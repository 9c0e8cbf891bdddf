import RegisterMap.Decimal.Layout

/-!
# Number — the numbers of a document

Integers of 64 bits, with or without a sign, and floating point numbers.
-/

namespace RegisterMap.Yaml

/-- **Number** — an integer from `-2 ^ 63` to `2 ^ 64 - 1`, or a floating point number. -/
inductive Number where
  | integer (n : Int)
  | float (x : Decimal.Binary64)
  deriving DecidableEq, Repr

namespace Number

/-- **natural** — the number when it is an integer that is not negative. -/
def natural : Number → Option Nat
  | .integer n => if 0 ≤ n then some n.toNat else none
  | .float _ => none

/-- **render** — integers in decimal, floating point numbers as short as they read back. -/
def render : Number → String
  | .integer n => (if n < 0 then "-" else "") ++ Text.decimal n.natAbs
  | .float x => x.render Decimal.Layout.compact

/-- **same** — equality as keys; an integer is never a floating point number. -/
def same : Number → Number → Bool
  | .integer m, .integer n => m == n
  | .float x, .float y => x.sameNumber y
  | _, _ => false

end Number

end RegisterMap.Yaml
