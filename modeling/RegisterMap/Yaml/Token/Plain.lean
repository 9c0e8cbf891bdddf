import RegisterMap.Yaml.Token

/-!
# Plain scalars — words without quotes

A plain scalar runs over words and gaps. It ends before a comment, a document indicator, a colon
that a separation follows, in flow context before a flow indicator, and in block context at a line
that is not indented enough.
-/

namespace RegisterMap.Yaml.Token.Plain

open Input

/-- **isFlowIndicator** — the characters that end a plain scalar inside a flow collection. -/
def isFlowIndicator (c : Char) : Bool :=
  c == ',' || c == '[' || c == ']' || c == '\x7b' || c == '\x7d'

/-- **endsWord** — the scalar ends before this character, which the given one follows. -/
def endsWord (flow : Bool) (c next : Char) : Bool :=
  (c == ':' && isSeparation next) || (flow && isFlowIndicator c)

/-- **word** — the characters up to a separation or the end of the scalar. -/
def word (flow : Bool) : Input → Except Fault (List Char × Input)
  | [] => .ok ([], [])
  | c :: rest =>
    let next := head rest
    if isSeparation c.char then .ok ([], c :: rest)
    else if flow && c.char == ':' && (isFlowIndicator next || next == '?') then .error .colonInFlow
    else if endsWord flow c.char next then .ok ([], c :: rest)
    else do
      let (cs, rest) ← word flow rest
      .ok (c.char :: cs, rest)

/-- **gap** — the blanks and line ends after a word. A tab may not indent a line below `indent`. -/
def gap (indent : Int) (g : Gap) : Input → Except Fault (Gap × Input)
  | [] => .ok (g, [])
  | c :: rest =>
    if isGap c.char then
      if g.hasBreak && c.mark.column < indent && c.char == '\t' then .error .tabIndentation
      else gap indent (g.addBlank c.char) rest
    else if isBreak c.char then gap indent (g.addBreak c.char) rest
    else .ok (g, c :: rest)

/-- **words** — the rest of the scalar after the gap `g` and `text`, last character first; `fuel`
has at least one element for each word. -/
def words (flow : Bool) (indent : Int) :
    (fuel : Input) → List Char → Gap → Input → Except Fault (List Char × Gap × Input)
  | [], text, g, input => .ok (text, g, input)
  | _ :: fuel, text, g, input =>
    if input.atDocumentIndicator || input.head == '#' then .ok (text, g, input)
    else do
      let (cs, rest) ← word flow input
      let (text, g) := if cs.isEmpty then (text, g) else ((g.fold ++ cs).reverse ++ text, Gap.empty)
      if isGap rest.head || isBreak rest.head then
        let (g, rest) ← gap indent g rest
        if !flow && (rest.column : Int) < indent then .ok (text, g, rest)
        else words flow indent fuel text g rest
      else .ok (text, g, rest)

/-- **scan** — a plain scalar, whether it ended in another line than its last word, and what
follows. In block context its lines are indented by more than `indent`. Every word but the last
one takes a character. -/
def scan (flow : Bool) (indent : Int) (input : Input) :
    Except Fault (List Char × Bool × Input) := do
  let (text, g, rest) ← words flow (indent + 1) input [] Gap.empty input
  .ok (text.reverse, g.hasBreak, rest)

end RegisterMap.Yaml.Token.Plain
