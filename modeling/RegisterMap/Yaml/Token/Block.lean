import RegisterMap.Text.Numeral
import RegisterMap.Yaml.Token

/-!
# Block scalars — indented lines of text

The header says how the lines are joined, what happens to the line ends at the bottom, and
possibly how far the lines are indented. Without that, the first line that is not empty decides.
-/

namespace RegisterMap.Yaml.Token.Block

open Input

/-- **Chomping** — what remains of the line ends at the bottom. -/
inductive Chomping where
  /-- None of them. -/
  | strip
  /-- The first of them. -/
  | clip
  /-- All of them. -/
  | keep

/-- **Header** — what stands behind the indicator. -/
structure Header where
  chomping : Chomping
  indentation : Option Nat

/-- **chompingOf** — the indicator of chomping. -/
def chompingOf (c : Char) : Option Chomping :=
  if c == '+' then some .keep else if c == '-' then some .strip else none

/-- **digitOf** — the indicator of indentation. -/
def digitOf (c : Char) : Option Nat := if c.isDigit then some (c.toNat - '0'.toNat) else none

/-- **header** — the two indicators in either order, each at most once, and the end of the line. -/
def header (input : Input) : Except Fault (Header × Input) := do
  let (chomping, indentation, input) :=
    match chompingOf input.head with
    | some c =>
      match digitOf input.second with
      | some n => (c, some n, input.drop 2)
      | none => (c, none, input.drop 1)
    | none =>
      match digitOf input.head with
      | some n =>
        match chompingOf input.second with
        | some c => (c, some n, input.drop 2)
        | none => (.clip, some n, input.drop 1)
      | none => (.clip, none, input)
  if indentation = some 0 then .error .zeroIndentation
  let input : Input := Input.skipLineRest input
  if !isBreakOrEnd input.head then .error .textAfterHeader
  .ok (⟨chomping, indentation⟩, if isBreak input.head then input.tail else input)

/-- **gap** — the indentation and the empty lines before a line of text, last one first. While the
indentation is not known every space counts, and `widest` is the widest indentation so far. -/
def gap (indent : Option Nat) (widest : Nat) (breaks : List Char) :
    Input → Except Fault (Nat × List Char × Input)
  | [] => .ok (widest, breaks, [])
  | c :: rest =>
    let inside := indent.all (c.mark.column < ·)
    if inside && c.char == ' ' then gap indent widest breaks rest
    else
      let widest := max widest c.mark.column
      if inside && c.char == '\t' then .error .tabIndentation
      else if isBreak c.char then gap indent widest (c.char :: breaks) rest
      else .ok (widest, breaks, c :: rest)

/-- **State** — the text so far, last character first, the end of its last line, the empty lines
after it, last one first, and whether that line started with a blank. -/
structure State where
  text : List Char := []
  lastBreak : Option Char := none
  empty : List Char := []
  blankStart : Bool := false

/-- **addLine** — the text after one more line. Between two lines of folded text that start with
no blank, one line feed becomes a space. -/
def State.addLine (s : State) (folded : Bool) (line : List Char) : List Char :=
  let blank := isGap (line.headD 'x')
  let joined :=
    if folded && s.lastBreak == some '\n' && !s.blankStart && !blank then
      if s.empty.isEmpty then [' '] else []
    else s.lastBreak.toList
  line.reverse ++ s.empty ++ joined ++ s.text

/-- **lines** — the lines that are indented by `indent`; `fuel` has at least one element for each
of them. -/
def lines (folded : Bool) (indent : Nat) :
    (fuel : Input) → State → Input → Except Fault (State × Input)
  | [], s, input => .ok (s, input)
  | _ :: fuel, s, input =>
    if input.column = indent ∧ !isEnd input.head then do
      let (line, rest) := input.spanWhile (!isBreakOrEnd ·)
      let (lastBreak, rest) :=
        if isBreak rest.head then (some rest.head, rest.tail) else (none, rest)
      let (_, empty, rest) ← gap (some indent) 0 [] rest
      lines folded indent fuel
        { text := s.addLine folded line, lastBreak, empty, blankStart := isGap (line.headD 'x') }
        rest
    else .ok (s, input)

/-- **scan** — a block scalar after its indicator. Its lines are indented by more than `indent`. -/
def scan (folded : Bool) (indent : Int) (input : Input) : Except Fault (List Char × Input) := do
  let (h, input) ← header input
  let known := h.indentation.map fun n => n + indent.toNat
  let (widest, empty, input) ← gap known 0 [] input
  let indent := known.getD (max widest (max (indent + 1).toNat 1))
  let (s, rest) ← lines folded indent input { empty } input
  let tail :=
    match h.chomping with
    | .strip => []
    | .clip => s.lastBreak.toList
    | .keep => s.lastBreak.toList ++ s.empty.reverse
  .ok (s.text.reverse ++ tail, rest)

end RegisterMap.Yaml.Token.Block
