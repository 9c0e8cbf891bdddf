/-!
# Blank characters — the white space of Unicode, and trimming

A character is blank when it has the Unicode property `White_Space`. Bit lists, addresses and
integers may be surrounded by any of them.
-/

namespace RegisterMap.Text

/-- **isBlank** — the characters with the property `White_Space`. -/
def isBlank (c : Char) : Bool :=
  let n := c.toNat
  (9 ≤ n && n ≤ 13) || n == 0x20 || n == 0x85 || n == 0xA0 || n == 0x1680
    || (0x2000 ≤ n && n ≤ 0x200A) || n == 0x2028 || n == 0x2029 || n == 0x202F
    || n == 0x205F || n == 0x3000

/-- **trim** — the characters without the blanks around them. -/
def trim (cs : List Char) : List Char :=
  ((cs.dropWhile isBlank).reverse.dropWhile isBlank).reverse

@[simp] theorem trim_nil : trim [] = [] := rfl

end RegisterMap.Text
