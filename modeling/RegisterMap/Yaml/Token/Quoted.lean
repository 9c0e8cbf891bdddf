import RegisterMap.Text.Numeral
import RegisterMap.Yaml.Token

/-!
# Quoted scalars — text between quotes

Between single quotes a quote is written twice and nothing else is special. Between double quotes
a backslash starts an escape. In both, line ends fold, and a document indicator at the start of a
line is refused.
-/

namespace RegisterMap.Yaml.Token.Quoted

open Input

/-- **prepend** — a scan whose text starts with more characters. -/
def prepend (cs : List Char) (scan : Except Fault (List Char × Input)) :
    Except Fault (List Char × Input) :=
  scan.map fun (text, rest) => (cs ++ text, rest)

/-- **single** — the rest of a single quoted scalar after the gap `g`. -/
def single (g : Gap) : Input → Except Fault (List Char × Input)
  | [] => .error .unclosedQuote
  | c :: rest =>
    if atDocumentIndicator (c :: rest) then .error .indicatorInQuote
    else if isEnd c.char then .error .unclosedQuote
    else if isGap c.char then single (g.addBlank c.char) rest
    else if isBreak c.char then single (g.addBreak c.char) rest
    else if c.char == '\x27' then
      match rest with
      | d :: rest' =>
        if d.char == '\x27' then prepend (g.fold ++ ['\x27']) (single Gap.empty rest')
        else .ok (g.fold, d :: rest')
      | [] => .ok (g.fold, [])
    else prepend (g.fold ++ [c.char]) (single Gap.empty rest)

/-- **Escape** — what a character after a backslash stands for. -/
inductive Escape where
  /-- One character. -/
  | char (c : Char)
  /-- So many hexadecimal digits of a code point. -/
  | number (digits : Nat)

/-- **escapeOf** — the escapes of double quoted scalars, the hidden line end apart. -/
def escapeOf (c : Char) : Option Escape :=
  match c with
  | '0' => some (.char '\x00')
  | 'a' => some (.char '\x07')
  | 'b' => some (.char '\x08')
  | 't' => some (.char '\t')
  | '\t' => some (.char '\t')
  | 'n' => some (.char '\n')
  | 'v' => some (.char '\x0b')
  | 'f' => some (.char '\x0c')
  | 'r' => some (.char '\r')
  | 'e' => some (.char '\x1b')
  | ' ' => some (.char ' ')
  | '\x22' => some (.char '\x22')
  | '/' => some (.char '/')
  | '\\' => some (.char '\\')
  | 'N' => some (.char '\x85')
  | '_' => some (.char '\xa0')
  | 'L' => some (.char '\u2028')
  | 'P' => some (.char '\u2029')
  | 'x' => some (.number 2)
  | 'u' => some (.number 4)
  | 'U' => some (.number 8)
  | _ => none

/-- **Mode** — where a double quoted scalar stands. -/
inductive Mode where
  /-- After a gap. -/
  | text (g : Gap)
  /-- After a backslash. -/
  | escape
  /-- In a numbered escape: digits still to come, and the number so far. -/
  | number (left code : Nat)

/-- **start** — between two characters. -/
def Mode.start : Mode := .text Gap.empty

/-- **charOf** — the character of a code point, if it has one. -/
def charOf (n : Nat) : Option Char := if n.isValidChar then some (Char.ofNat n) else none

/-- **double** — the rest of a double quoted scalar. -/
def double (mode : Mode) : Input → Except Fault (List Char × Input)
  | [] => .error .unclosedQuote
  | c :: rest =>
    match mode with
    | .text g =>
      if atDocumentIndicator (c :: rest) then .error .indicatorInQuote
      else if isEnd c.char then .error .unclosedQuote
      else if isGap c.char then double (.text (g.addBlank c.char)) rest
      else if isBreak c.char then double (.text (g.addBreak c.char)) rest
      else if c.char == '\x22' then .ok (g.fold, rest)
      else if c.char == '\\' then prepend g.fold (double .escape rest)
      else prepend (g.fold ++ [c.char]) (double Mode.start rest)
    | .escape =>
      if isBreak c.char then double (.text (.breaks none [])) rest
      else
        match escapeOf c.char with
        | some (.char e) => prepend [e] (double Mode.start rest)
        | some (.number digits) => double (.number digits 0) rest
        | none => .error .unknownEscape
    | .number left code =>
      match Text.digitIn 16 c.char with
      | none => .error .badEscapeNumber
      | some d =>
        if left ≤ 1 then
          match charOf (16 * code + d) with
          | some e => prepend [e] (double Mode.start rest)
          | none => .error .badEscapeNumber
        else double (.number (left - 1) (16 * code + d)) rest

/-- **scan** — the scalar that starts with this quote, and what follows its closing quote. -/
def scan (isSingle : Bool) (input : Input) : Except Fault (List Char × Input) :=
  if isSingle then single Gap.empty input.tail else double Mode.start input.tail

end RegisterMap.Yaml.Token.Quoted
