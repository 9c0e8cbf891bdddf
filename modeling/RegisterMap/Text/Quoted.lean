import RegisterMap.Text.Quoted.Table

/-!
# Quoted text — a text between double quotes

Double quotes, backslashes, tabs, line ends and the null character are written with a backslash;
every other control or character without a printed form is written by its number, `\u` and the
hexadecimal number in braces.
-/

namespace RegisterMap.Text

namespace Quoted

/-- **isPrinted** — the character stands for itself, escapes apart. -/
def isPrinted (c : Char) : Bool :=
  let n := c.toNat
  if n < 0x7F then 0x20 ≤ n
  else n ≠ 0x7F && !(unprintedRanges.any fun r => r.1 ≤ n && n ≤ r.2)

/-- **byNumber** — a character written by its code point. -/
def byNumber (c : Char) : List Char :=
  ['\\', 'u', '\x7b'] ++ Nat.toDigits 16 c.toNat ++ ['\x7d']

/-- **encodeChar** — one character of a quoted text. -/
def encodeChar (c : Char) : List Char :=
  match c.toNat with
  | 0x00 => ['\\', '0']
  | 0x09 => ['\\', 't']
  | 0x0A => ['\\', 'n']
  | 0x0D => ['\\', 'r']
  | 0x22 => ['\\', '\x22']
  | 0x5C => ['\\', '\\']
  | _ => if isPrinted c then [c] else byNumber c

end Quoted

/-- **quoted** — the text between double quotes, escapes written out. -/
def quoted (s : String) : String :=
  String.ofList ('\x22' :: s.toList.flatMap Quoted.encodeChar ++ ['\x22'])

end RegisterMap.Text
