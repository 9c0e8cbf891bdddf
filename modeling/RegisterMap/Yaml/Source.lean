/-!
# Source — the characters of a text with their places

A text is scanned as a list of characters that know their line, column and byte offset. The list
ends with a null character, which no text may contain, so the end of the text has a place too.

## § Line ends

A carriage return, a line feed, both together, and a next-line character all stand for one line
feed. The two Unicode separators end a line and stay what they are.

## § Pieces

A text is looked at in pieces of at most 16384 bytes, each when its first character is needed. What
stands before the piece with a forbidden character can still be read.
-/

namespace RegisterMap.Yaml

/-! ## § Character classes -/

/-- **isAllowed** — the characters that a text may contain. -/
def isAllowed (c : Char) : Bool :=
  let n := c.toNat
  n == 0x09 || n == 0x0A || n == 0x0D || (0x20 ≤ n && n ≤ 0x7E) || n == 0x85
    || (0xA0 ≤ n && n ≤ 0xD7FF) || (0xE000 ≤ n && n ≤ 0xFFFD) || 0x10000 ≤ n

/-- **isBreak** — the characters that end a line. -/
def isBreak (c : Char) : Bool :=
  c == '\n' || c == '\r' || c == '\x85' || c == '\u2028' || c == '\u2029'

/-- **isGap** — spaces and tabs. -/
def isGap (c : Char) : Bool := c == ' ' || c == '\t'

/-- **isEnd** — the mark of the end of the text. -/
def isEnd (c : Char) : Bool := c == '\x00'

/-- **isBreakOrEnd** — a line ends here. -/
def isBreakOrEnd (c : Char) : Bool := isBreak c || isEnd c

/-- **isSeparation** — a word ends here: space, tab, line end or end of the text. -/
def isSeparation (c : Char) : Bool := isGap c || isBreakOrEnd c

/-- **isByteOrderMark** — the mark that may stand at the start of a line and means nothing there. -/
def isByteOrderMark (c : Char) : Bool := c == '\uFEFF'

/-- **isWordChar** — the characters of names: ASCII letters and digits, `_` and `-`. -/
def isWordChar (c : Char) : Bool := c.isAlphanum || c == '_' || c == '-'

/-! ## § Places -/

/-- **Mark** — a place in the text. -/
structure Mark where
  offset : Nat := 0
  line : Nat := 0
  column : Nat := 0
  deriving DecidableEq, Repr, Inhabited

/-- **Located** — a character and its place. -/
structure Located where
  char : Char
  mark : Mark
  deriving DecidableEq, Repr

/-- **Input** — what is left of a text. -/
abbrev Input := List Located

/-- **Mark.next** — the place after a character that ends no line. -/
def Mark.next (m : Mark) (c : Char) : Mark :=
  { offset := m.offset + c.utf8Size, line := m.line, column := m.column + 1 }

/-- **Mark.nextLine** — the start of the line after a break of so many bytes. -/
def Mark.nextLine (m : Mark) (size : Nat) : Mark :=
  { offset := m.offset + size, line := m.line + 1, column := 0 }

/-- **plainBreak** — the line end that a break stands for. -/
def plainBreak (c : Char) : Char :=
  if c == '\u2028' || c == '\u2029' then c else '\n'

/-- **locate** — the characters from a place on, line ends made plain, with the end of the text. -/
def locate (m : Mark) : List Char → Input
  | [] => [⟨'\x00', m⟩]
  | '\r' :: '\n' :: cs => ⟨'\n', m⟩ :: locate (m.nextLine 2) cs
  | c :: cs =>
    if isBreak c then ⟨plainBreak c, m⟩ :: locate (m.nextLine c.utf8Size) cs
    else ⟨c, m⟩ :: locate (m.next c) cs

/-! ## § Pieces -/

/-- **pieceBytes** — the size of a piece. -/
def pieceBytes : Nat := 16384

/-- **beforeForbidden** — how many characters stand before the piece with the first forbidden one.
`start` is the number of the first character of a piece, `here` that of the next character, and
`room` what is left of the size of the piece. -/
def beforeForbidden (start here room : Nat) : List Char → Option Nat
  | [] => none
  | c :: cs =>
    let (start, room) := if c.utf8Size ≤ room then (start, room) else (here, pieceBytes)
    if isAllowed c then beforeForbidden start (here + 1) (room - c.utf8Size) cs else some start

/-- **ofText** — the input of a text, and whether a forbidden character cuts it short. -/
def Input.ofText (cs : List Char) : Input × Bool :=
  match beforeForbidden 0 0 pieceBytes cs with
  | some count => (locate {} (cs.take count), true)
  | none => (locate {} cs, false)

namespace Input

/-- **head** — the next character; the end of the text when nothing is left. -/
def head : Input → Char
  | [] => '\x00'
  | c :: _ => c.char

/-- **mark** — the place of the next character. -/
def mark : Input → Mark
  | [] => {}
  | c :: _ => c.mark

/-- **column** — the column of the next character. -/
def column (i : Input) : Nat := i.mark.column

/-- **second** — the character after the next one. -/
def second (i : Input) : Char := head i.tail

/-- **chars** — the characters without their places. -/
def chars (i : List Located) : List Char := i.map Located.char

/-- **spanWhile** — the leading characters of a class and what follows them. -/
def spanWhile (p : Char → Bool) (i : Input) : List Char × Input :=
  (chars (i.takeWhile fun c => p c.char), i.dropWhile fun c => p c.char)

/-- **skipWhile** — what follows the leading characters of a class. -/
def skipWhile (p : Char → Bool) (i : Input) : Input := i.dropWhile fun c => p c.char

/-- **atTriple** — three of the character at the start of a line, alone or before a separation. -/
def atTriple (c : Char) (i : Input) : Bool :=
  i.column == 0 && chars (i.take 3) == [c, c, c] && isSeparation (head (i.drop 3))

/-- **atDocumentIndicator** — a line that starts or ends a document. -/
def atDocumentIndicator (i : Input) : Bool := i.atTriple '-' || i.atTriple '.'

/-- **skipLineRest** — past the blanks and the comment at the end of a line. -/
def skipLineRest (i : Input) : Input :=
  let i := i.skipWhile isGap
  if i.head == '#' then i.skipWhile (!isBreakOrEnd ·) else i

end Input

end RegisterMap.Yaml
