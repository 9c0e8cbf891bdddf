import RegisterMap.Decimal.Shortest

/-!
# Layout — the text of a floating point number

A layout says which numbers are written positionally; the others are written with an exponent.
Positional numbers always show a point with a digit on either side. It also says which of two
equally near decimals is written.
-/

namespace RegisterMap.Decimal

/-- **Layout** — `place` is the position of the decimal point relative to the first digit; numbers
whose place lies strictly above `above` and is at most `upTo` are positional. -/
structure Layout where
  above : Option Int
  upTo : Option Int
  tie : Tie
  notANumber : String
  infinity : String

namespace Layout

/-- **compact** — positional from `0.00001` up to sixteen digits before the point; a tie goes to
the even decimal. -/
def compact : Layout := ⟨some (-5), some 16, .even, ".nan", ".inf"⟩

/-- **positional** — never an exponent; a tie goes to the decimal further from zero. -/
def positional : Layout := ⟨none, none, .up, "NaN", "inf"⟩

/-- **isPositional** — whether a number with this place is written without an exponent. -/
def isPositional (l : Layout) (place : Int) : Bool :=
  (l.above.all (· < place)) && (l.upTo.all (place ≤ ·))

end Layout

/-- **place** — the position of the decimal point relative to the first digit. -/
def Digits.place (d : Digits) : Int :=
  ((Nat.toDigits 10 d.digits).length : Int) + d.exponent

/-- **positionalText** — the digits with a point, filled up with zeros. -/
def Digits.positionalText (d : Digits) : String :=
  let ds := Nat.toDigits 10 d.digits
  let place := d.place
  if place ≤ 0 then
    "0." ++ String.ofList (List.replicate (-place).toNat '0' ++ ds)
  else
    let whole := ds.take place.toNat
    let rest := ds.drop place.toNat
    let zeros := List.replicate (place.toNat - ds.length) '0'
    String.ofList (whole ++ zeros ++ ['.'] ++ (if rest = [] then ['0'] else rest))

/-- **exponentText** — one digit, the others behind a point, and the exponent. -/
def Digits.exponentText (d : Digits) : String :=
  let e := d.place - 1
  let exponent := (if e < 0 then "e-" else "e") ++ Text.decimal e.natAbs
  match Nat.toDigits 10 d.digits with
  | [] => exponent
  | [c] => String.ofList [c] ++ exponent
  | c :: cs => String.ofList (c :: '.' :: cs) ++ exponent

/-- **render** — the text of a number in a layout. -/
def Binary64.render (l : Layout) : Binary64 → String
  | .nan => l.notANumber
  | .infinite negative => (if negative then "-" else "") ++ l.infinity
  | .finite negative m e =>
    let sign := if negative then "-" else ""
    if m = 0 then sign ++ "0.0"
    else
      let d := shortest l.tie m e
      sign ++ (if l.isPositional d.place then d.positionalText else d.exponentText)

end RegisterMap.Decimal
