/-!
# Numerals — digits in a base, read and written

Reading takes one optional `+`, then one or more digits of either case; writing uses lower case
and no leading zeros. Reading what is written gives the number back.
-/

namespace RegisterMap.Text

/-! ## Reading -/

/-- **digitValue** — the value of a digit in base 36 or below, in either case. -/
def digitValue (c : Char) : Option Nat :=
  if '0' ≤ c ∧ c ≤ '9' then some (c.toNat - '0'.toNat)
  else if 'a' ≤ c ∧ c ≤ 'z' then some (c.toNat - 'a'.toNat + 10)
  else if 'A' ≤ c ∧ c ≤ 'Z' then some (c.toNat - 'A'.toNat + 10)
  else none

/-- **digitIn** — the value of a digit of the base. -/
def digitIn (base : Nat) (c : Char) : Option Nat :=
  (digitValue c).filter (· < base)

/-- **readDigits** — the digits after a number that is already read. -/
def readDigits (base : Nat) (acc : Nat) : List Char → Option Nat
  | [] => some acc
  | c :: cs =>
    match digitIn base c with
    | some d => readDigits base (acc * base + d) cs
    | none => none

/-- **dropPlus** — the characters after one leading `+`, if there is one. -/
def dropPlus : List Char → List Char
  | '+' :: cs => cs
  | cs => cs

/-- **readNumeral** — the number that an optional `+` and one or more digits of the base spell,
when it is below the limit. -/
def readNumeral (base limit : Nat) (cs : List Char) : Option Nat :=
  match dropPlus cs with
  | [] => none
  | d :: ds => (readDigits base 0 (d :: ds)).filter (· < limit)

theorem readNumeral_lt {base limit n : Nat} {cs : List Char}
    (h : readNumeral base limit cs = some n) : n < limit := by
  unfold readNumeral at h
  split at h
  · simp at h
  · simpa using (Option.filter_eq_some_iff.1 h).2

/-! ## Writing -/

/-- **decimal** — the number in base ten. -/
def decimal (n : Nat) : String := String.ofList (Nat.toDigits 10 n)

/-- **hex** — the number in base sixteen, lower case. -/
def hex (n : Nat) : String := String.ofList (Nat.toDigits 16 n)

/-- **padLeft** — at least `width` characters, filled up on the left. -/
def padLeft (fill : Char) (width : Nat) (s : String) : String :=
  String.ofList (List.replicate (width - s.length) fill) ++ s

/-- **padRight** — at least `width` characters, filled up with spaces on the right. -/
def padRight (width : Nat) (s : String) : String :=
  s ++ String.ofList (List.replicate (width - s.length) ' ')

end RegisterMap.Text
