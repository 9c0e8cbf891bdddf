import RegisterMap.Arithmetic
import RegisterMap.Text.Blank
import RegisterMap.Text.Numeral

/-!
# Integers — the spellings of a number of 64 bits

A number is written in base ten, or in base sixteen, eight or two after `0x`, `0o` or `0b`. Blanks
around it, underscores anywhere and the case of letters do not matter.
-/

namespace RegisterMap.Text

namespace Integer

/-- **plain** — a spelling without blanks around it, underscores, and capital ASCII letters. -/
def plain (cs : List Char) : List Char := ((trim cs).filter (· ≠ '_')).map Char.toLower

/-- **readPlain** — the number of a plain spelling. -/
def readPlain : List Char → Option Nat
  | '0' :: 'x' :: digits => readNumeral 16 (capacity 64) digits
  | '0' :: 'o' :: digits => readNumeral 8 (capacity 64) digits
  | '0' :: 'b' :: digits => readNumeral 2 (capacity 64) digits
  | digits => readNumeral 10 (capacity 64) digits

end Integer

/-- **readInteger** — the number that a text spells. -/
def readInteger (cs : List Char) : Option Nat := Integer.readPlain (Integer.plain cs)

end RegisterMap.Text
