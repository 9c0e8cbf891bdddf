import RegisterMap.Text.Numeral

/-!
# Binary64 — numbers with 53 significant bits

A finite number is `mantissa · 2 ^ exponent`. Decimal texts are read exactly and rounded once, to
the nearest number and on a tie to the even mantissa, all in natural number arithmetic.

## § Normal form

A nonzero finite number made by `ofRatio` has a mantissa below `2 ^ 53` and an exponent of at least
`-1074`, and its mantissa is at least `2 ^ 52` unless the exponent is `-1074`. The exponent of zero
is `0`.
-/

namespace RegisterMap.Decimal

/-- **Binary64** — a binary floating point number of 64 bits. -/
inductive Binary64 where
  | finite (negative : Bool) (mantissa : Nat) (exponent : Int)
  | infinite (negative : Bool)
  | nan
  deriving DecidableEq, Repr

namespace Binary64

/-- The exponent of the smallest positive number. -/
def leastExponent : Int := -1074

/-- The exponent of the largest finite numbers. -/
def greatestExponent : Int := 971

/-- **leadingBit** — the weight of the first of 53 bits. -/
def leadingBit : Nat := 1 <<< 52

/-- **scale** — `n · 2 ^ e` as a numerator and a denominator. -/
def scale (n : Nat) (e : Int) : Nat × Nat :=
  if 0 ≤ e then (n <<< e.toNat, 1) else (n, 1 <<< (-e).toNat)

/-- **roundDiv** — the quotient rounded to the nearest integer, a tie to the even one. -/
def roundDiv (num den : Nat) : Nat :=
  let q := num / den
  let r := num % den
  if 2 * r < den then q
  else if den < 2 * r then q + 1
  else if q % 2 = 0 then q else q + 1

/-- **binaryPlace** — the `t` with `2 ^ t ≤ num / den < 2 ^ (t + 1)`, for positive numbers. -/
def binaryPlace (num den : Nat) : Int :=
  let t : Int := (Nat.log2 num : Int) - (Nat.log2 den : Int)
  let (a, b) := scale den t
  if num * b < a then t - 1 else t

/-- **ofRatio** — the mantissa and the exponent nearest to a positive ratio, or `none` beyond the
largest finite number. -/
def ofRatio (num den : Nat) : Option (Nat × Int) :=
  let e := max (binaryPlace num den - 52) leastExponent
  let (a, b) := scale den e
  let q := roundDiv (num * b) a
  let (m, e) := if q = 2 * leadingBit then (leadingBit, e + 1) else (q, e)
  if greatestExponent < e then none else some (m, if m = 0 then 0 else e)

/-- **tenPow** — a power of ten. -/
def tenPow (k : Nat) : Nat := Nat.pow 10 k

/-- **ofScientific** — the number nearest to `±digits · 10 ^ exponent`, or `none` beyond the
largest finite number. Powers of ten far outside the range are not computed. -/
def ofScientific (negative : Bool) (digits : Nat) (exponent : Int) : Option Binary64 :=
  if digits = 0 then some (.finite negative 0 0)
  else
    let place : Int := ((Nat.toDigits 10 digits).length : Int) + exponent
    if 310 < place then none
    else if place < -330 then some (.finite negative 0 0)
    else
      let ratio :=
        if 0 ≤ exponent then ofRatio (digits * tenPow exponent.toNat) 1
        else ofRatio digits (tenPow (-exponent).toNat)
      ratio.map fun (m, e) => .finite negative m e

/-! ## § Reading decimal text -/

/-- **spanDigits** — the leading decimal digits and the rest. -/
def spanDigits (cs : List Char) : List Char × List Char := cs.span Char.isDigit

/-- **readExponent** — what follows the digits: nothing, or `e`, an optional sign and digits. -/
def readExponent : List Char → Option Int
  | [] => some 0
  | c :: cs =>
    if c = 'e' ∨ c = 'E' then
      let (negative, ds) :=
        match cs with
        | '-' :: ds => (true, ds)
        | '+' :: ds => (false, ds)
        | ds => (false, ds)
      match ds with
      | [] => none
      | d :: ds =>
        (Text.readDigits 10 0 (d :: ds)).map fun n => if negative then -(n : Int) else (n : Int)
    else none

/-- **readUnsigned** — digits with at most one point among or beside them, then an exponent. -/
def readUnsigned (negative : Bool) (cs : List Char) : Option Binary64 :=
  let (whole, rest) := spanDigits cs
  let (fraction, rest) :=
    match rest with
    | '.' :: rest => spanDigits rest
    | rest => ([], rest)
  match whole ++ fraction with
  | [] => none
  | d :: ds =>
    match readExponent rest, Text.readDigits 10 0 (d :: ds) with
    | some e, some n => ofScientific negative n (e - fraction.length)
    | _, _ => none

/-- **read** — a finite number in decimal notation, with an optional sign. -/
def read : List Char → Option Binary64
  | '-' :: cs => readUnsigned true cs
  | '+' :: cs => readUnsigned false cs
  | cs => readUnsigned false cs

/-- **sameNumber** — equality of numbers: the two zeros agree, and so do two values that are no
number. -/
def sameNumber : Binary64 → Binary64 → Bool
  | .finite s m e, .finite t n f => if m = 0 then n == 0 else s == t && m == n && e == f
  | .infinite s, .infinite t => s == t
  | .nan, .nan => true
  | _, _ => false

end Binary64

end RegisterMap.Decimal
