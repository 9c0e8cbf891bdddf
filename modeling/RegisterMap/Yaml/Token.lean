import RegisterMap.Yaml.Fault
import RegisterMap.Yaml.Source

/-!
# Token — the smallest units of a YAML stream

Indentation is part of the tokens: block collections open and close with tokens of their own.
-/

namespace RegisterMap.Yaml

/-- **Style** — how a scalar is written. -/
inductive Style where
  | plain
  | singleQuoted
  | doubleQuoted
  | literal
  | folded
  deriving DecidableEq, Repr

/-- **Name** — the name of an anchor or the handle of a tag. -/
abbrev Name := List Char

/-- **Bytes** — the spelling of a tag; percent escapes may spell any bytes. -/
abbrev Bytes := List UInt8

/-- **bytesOf** — the bytes of characters. -/
def bytesOf (cs : List Char) : Bytes := cs.flatMap String.utf8EncodeChar

/-- **Token** — a unit of the stream. -/
inductive Token where
  | streamEnd
  | versionDirective (major minor : Nat)
  | tagDirective (handle : Name) (start : Bytes)
  | documentStart
  | documentEnd
  | blockSequenceStart
  | blockMappingStart
  | blockEnd
  | flowSequenceStart
  | flowSequenceEnd
  | flowMappingStart
  | flowMappingEnd
  | blockEntry
  | flowEntry
  | key
  | value
  | alias (name : Name)
  | anchor (name : Name)
  | tag (handle : Name) (suffix : Bytes)
  | scalar (style : Style) (text : List Char)
  deriving DecidableEq, Repr

/-- **isDirective** — the tokens that stand before a document. -/
def Token.isDirective : Token → Bool
  | .versionDirective .. | .tagDirective .. => true
  | _ => false

/-! ## § Folding -/

/-- **Gap** — the blanks and line ends between two words of a scalar. -/
inductive Gap where
  /-- Blanks within a line, last one first. -/
  | blanks (spaces : List Char)
  /-- Line ends; the first is missing when a backslash hides it, the others stand last one first. -/
  | breaks (first : Option Char) (more : List Char)
  deriving DecidableEq, Repr

namespace Gap

/-- **empty** — nothing between two words. -/
def empty : Gap := .blanks []

/-- **addBlank** — one more blank; after a line end it is indentation. -/
def addBlank (c : Char) : Gap → Gap
  | .blanks spaces => .blanks (c :: spaces)
  | g => g

/-- **addBreak** — one more line end. Blanks before the first one do not count. -/
def addBreak (c : Char) : Gap → Gap
  | .blanks _ => .breaks (some c) []
  | .breaks first more => .breaks first (c :: more)

/-- **fold** — what a gap reads as: one line feed is a space, more are all but the first. -/
def fold : Gap → List Char
  | .blanks spaces => spaces.reverse
  | .breaks none more => more.reverse
  | .breaks (some c) more =>
    if c = '\n' then (if more = [] then [' '] else more.reverse) else c :: more.reverse

/-- **hasBreak** — the gap reaches into another line. -/
def hasBreak : Gap → Bool
  | .blanks _ => false
  | .breaks .. => true

end Gap

end RegisterMap.Yaml
