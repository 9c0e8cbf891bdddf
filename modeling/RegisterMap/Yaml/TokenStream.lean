import RegisterMap.Yaml.Token.Block
import RegisterMap.Yaml.Token.Directive
import RegisterMap.Yaml.Token.Plain
import RegisterMap.Yaml.Token.Property
import RegisterMap.Yaml.Token.Quoted

/-!
# Token stream — a text as tokens

The tokens of a text, and the fault that ends them if there is one.

## § Candidates

Whether a word is a key shows only at the colon behind it. Until then the word is a *candidate*:
the stream remembers its number and place, one candidate for each flow collection that is open.
At the colon a key token is inserted before it. A candidate lapses at the end of its line or after
1024 bytes; if the indentation asked for a key there, that is a fault.

A token is final once no candidate stands before it, so a fault hides the tokens from the first
candidate on.
-/

namespace RegisterMap.Yaml

/-- **TokenStream** — the tokens that are final, and the fault that ends them. -/
structure TokenStream where
  tokens : List Token
  fault : Option Fault

namespace TokenStream

/-- **Candidate** — a place that may turn out to start a key. -/
structure Candidate where
  /-- The number of the token there. -/
  number : Nat
  mark : Mark
  /-- Only a key can stand at this indentation. -/
  required : Bool

/-- **State** — what has been scanned. -/
structure State where
  input : Input
  /-- A character that no text may contain cuts the input short. -/
  isCut : Bool := false
  /-- The column of the innermost block collection, `-1` outside all of them. -/
  indent : Int := -1
  outer : List Int := []
  /-- The candidate of the innermost flow collection, or of the block context. -/
  candidate : Option Candidate := none
  /-- The candidates around the flow collections that are open, innermost first. -/
  around : List (Option Candidate) := []
  keyAllowed : Bool := true
  /-- The tokens, last one first. -/
  tokens : List Token := []
  count : Nat := 0

namespace State

/-- **inFlow** — a flow collection is open. -/
def inFlow (s : State) : Bool := !s.around.isEmpty

/-- **push** — one more token at the end. -/
def push (s : State) (t : Token) : State := { s with tokens := t :: s.tokens, count := s.count + 1 }

/-- **insert** — one more token with the given number; those from there on move up. -/
def insert (s : State) (number : Nat) (t : Token) : State :=
  { s with tokens := s.tokens.insertIdx (s.count - number) t, count := s.count + 1 }

/-! ## § Candidates -/

/-- **lapse** — a candidate seen from a later place: `none` when it is no longer one. -/
def lapse (m : Mark) : Option Candidate → Except Fault (Option Candidate)
  | none => .ok none
  | some c =>
    if c.mark.line < m.line ∨ c.mark.offset + 1024 < m.offset then
      if c.required then .error .missingColon else .ok none
    else .ok (some c)

/-- **lapseAll** — all candidates seen from the place `m`. -/
def lapseAll (s : State) (m : Mark) : Except Fault State := do
  .ok { s with candidate := ← lapse m s.candidate, around := ← s.around.mapM (lapse m) }

/-- **dropCandidate** — no key starts at the innermost candidate. -/
def dropCandidate (s : State) : Except Fault State :=
  match s.candidate with
  | some c => if c.required then .error .missingColon else .ok { s with candidate := none }
  | none => .ok s

/-- **addCandidate** — a key may start here. -/
def addCandidate (s : State) : Except Fault State :=
  if s.keyAllowed then do
    let required := !s.inFlow && s.indent == s.input.column
    let s ← s.dropCandidate
    .ok { s with candidate := some ⟨s.count, s.input.mark, required⟩ }
  else .ok s

/-! ## § Indentation -/

/-- **indentTo** — a block collection opens at a column that lies deeper than the last one; its
token gets the number `at?`, or comes last. -/
def indentTo (s : State) (column : Nat) (at? : Option Nat) (t : Token) : State :=
  if !s.inFlow && s.indent < column then
    let s := { s with indent := column, outer := s.indent :: s.outer }
    match at? with
    | some number => s.insert number t
    | none => s.push t
  else s

/-- **closeTo** — the block collections deeper than a column end, innermost first. -/
def closeTo (column : Int) (indent : Int) : List Int → Int × List Int × Nat
  | [] => (indent, [], 0)
  | i :: outer =>
    if column < indent then
      let (indent, outer, closed) := closeTo column i outer
      (indent, outer, closed + 1)
    else (indent, i :: outer, 0)

/-- **outdentTo** — block ends for all block collections deeper than a column. -/
def outdentTo (s : State) (column : Int) : State :=
  if s.inFlow then s
  else
    let (indent, outer, closed) := closeTo column s.indent s.outer
    { s with
      indent, outer
      tokens := List.replicate closed Token.blockEnd ++ s.tokens
      count := s.count + closed }

/-! ## § Tokens -/

/-- **skipBlank** — past blanks, comments and line ends, and byte order marks where a line starts.
In block context a new line may start a key; a tab is no blank where a key may start. -/
def skipBlank (inFlow inComment keyAllowed : Bool) : Input → Bool × Input
  | [] => (keyAllowed, [])
  | c :: rest =>
    if isBreak c.char then skipBlank inFlow false (keyAllowed || !inFlow) rest
    else if inComment && !isEnd c.char then skipBlank inFlow true keyAllowed rest
    else if c.char == ' ' || ((inFlow || !keyAllowed) && c.char == '\t')
        || (c.mark.column == 0 && isByteOrderMark c.char) then
      skipBlank inFlow false keyAllowed rest
    else if c.char == '#' then skipBlank inFlow true keyAllowed rest
    else (keyAllowed, c :: rest)

/-- **indicator** — a token of `length` characters. -/
def indicator (s : State) (length : Nat) (t : Token) : State :=
  { s.push t with input := s.input.drop length }

/-- **atMargin** — a token that belongs to no block collection comes next. -/
def atMargin (s : State) : Except Fault State := do
  let s ← (s.outdentTo (-1)).dropCandidate
  .ok { s with keyAllowed := false }

/-- **openFlow** — a flow collection opens, possibly as a key. -/
def openFlow (s : State) (t : Token) : Except Fault State := do
  let s ← s.addCandidate
  let s := { s with candidate := none, around := s.candidate :: s.around, keyAllowed := true }
  .ok (s.indicator 1 t)

/-- **closeFlow** — the innermost flow collection ends, if one is open. -/
def closeFlow (s : State) (t : Token) : Except Fault State := do
  let s ← s.dropCandidate
  let s :=
    match s.around with
    | c :: around => { s with candidate := c, around }
    | [] => s
  .ok ({ s with keyAllowed := false }.indicator 1 t)

/-- **entry** — `-` opens or continues a block sequence. -/
def entry (s : State) : Except Fault State := do
  let s ←
    if s.inFlow then .ok s
    else if s.keyAllowed then .ok (s.indentTo s.input.column none .blockSequenceStart)
    else .error .misplacedEntry
  let s ← s.dropCandidate
  .ok ({ s with keyAllowed := true }.indicator 1 .blockEntry)

/-- **explicitKey** — `?` opens or continues a mapping. -/
def explicitKey (s : State) : Except Fault State := do
  let s ←
    if s.inFlow then .ok s
    else if s.keyAllowed then .ok (s.indentTo s.input.column none .blockMappingStart)
    else .error .misplacedKey
  let s ← s.dropCandidate
  .ok ({ s with keyAllowed := !s.inFlow }.indicator 1 .key)

/-- **mappingValue** — `:` makes the innermost candidate a key, or follows an explicit key. -/
def mappingValue (s : State) : Except Fault State :=
  match s.candidate with
  | some c =>
    let s := s.insert c.number .key
    let s := s.indentTo c.mark.column (some c.number) .blockMappingStart
    .ok ({ s with candidate := none, keyAllowed := false }.indicator 1 .value)
  | none => do
    let s ←
      if s.inFlow then .ok s
      else if s.keyAllowed then .ok (s.indentTo s.input.column none .blockMappingStart)
      else .error .misplacedValue
    .ok ({ s with keyAllowed := !s.inFlow }.indicator 1 .value)

/-- **property** — an anchor, alias or tag, possibly before a key. -/
def property (s : State) (scan : Input → Except Fault (Token × Input)) : Except Fault State := do
  let s ← s.addCandidate
  let (t, rest) ← scan s.input
  .ok { s.push t with input := rest, keyAllowed := false }

/-- **blockScalar** — a scalar that is never a key. -/
def blockScalar (s : State) (folded : Bool) : Except Fault State := do
  let s ← s.dropCandidate
  let (text, rest) ← Token.Block.scan folded s.indent s.input.tail
  let style := if folded then Style.folded else Style.literal
  .ok { s.push (.scalar style text) with input := rest, keyAllowed := true }

/-- **quotedScalar** — a scalar between quotes, possibly a key. -/
def quotedScalar (s : State) (isSingle : Bool) : Except Fault State := do
  let s ← s.addCandidate
  let (text, rest) ← Token.Quoted.scan isSingle s.input
  let style := if isSingle then Style.singleQuoted else Style.doubleQuoted
  .ok { s.push (.scalar style text) with input := rest, keyAllowed := false }

/-- **plainScalar** — a scalar without quotes, possibly a key. -/
def plainScalar (s : State) : Except Fault State := do
  let s ← s.addCandidate
  let (text, brokeLine, rest) ← Token.Plain.scan s.inFlow s.indent s.input
  .ok { s.push (.scalar .plain text) with input := rest, keyAllowed := brokeLine }

/-- **startsPlain** — a plain scalar may start with this character before that one. -/
def startsPlain (inFlow : Bool) (c next : Char) : Bool :=
  let special :=
    isSeparation c || c == '-' || c == '?' || c == ':' || c == ',' || c == '[' || c == ']'
      || c == '\x7b' || c == '\x7d' || c == '#' || c == '&' || c == '*' || c == '!' || c == '|'
      || c == '>' || c == '\x27' || c == '\x22' || c == '%' || c == '@' || c == '\x60'
  !special || (c == '-' && !isGap next)
    || (!inFlow && (c == '?' || c == ':') && !isSeparation next)

/-- **token** — the token that starts at a character that is no blank. -/
def token (s : State) : Except Fault State :=
  let i := s.input
  let c := i.head
  let bound := s.inFlow || isSeparation i.second
  if i.column == 0 && c == '%' then do
    let s ← s.atMargin
    let (t, rest) ← Token.Directive.scan i.tail
    .ok { s.push t with input := rest }
  else if i.atTriple '-' then do .ok ((← s.atMargin).indicator 3 .documentStart)
  else if i.atTriple '.' then do .ok ((← s.atMargin).indicator 3 .documentEnd)
  else if c == '[' then s.openFlow .flowSequenceStart
  else if c == '\x7b' then s.openFlow .flowMappingStart
  else if c == ']' then s.closeFlow .flowSequenceEnd
  else if c == '\x7d' then s.closeFlow .flowMappingEnd
  else if c == ',' then do
    let s ← s.dropCandidate
    .ok ({ s with keyAllowed := true }.indicator 1 .flowEntry)
  else if c == '-' && isSeparation i.second then s.entry
  else if c == '?' && bound then s.explicitKey
  else if c == ':' && bound then s.mappingValue
  else if c == '*' then s.property fun i => do
    let (name, rest) ← Token.Property.scanName i.tail
    .ok (.alias name, rest)
  else if c == '&' then s.property fun i => do
    let (name, rest) ← Token.Property.scanName i.tail
    .ok (.anchor name, rest)
  else if c == '!' then s.property fun i => do
    let (handle, suffix, rest) ← Token.Property.scanTag s.inFlow i
    .ok (.tag handle suffix, rest)
  else if c == '|' && !s.inFlow then s.blockScalar false
  else if c == '>' && !s.inFlow then s.blockScalar true
  else if c == '\x27' then s.quotedScalar true
  else if c == '\x22' then s.quotedScalar false
  else if startsPlain s.inFlow c i.second then s.plainScalar
  else .error .strayCharacter

/-- **finish** — the end of the text ends all block collections and all candidates. -/
def finish (s : State) : Except Fault State := do
  let s ← s.atMargin
  let m := s.input.mark
  let s ← s.lapseAll { m with line := m.line + 1 }
  .ok (s.push .streamEnd)

/-- **reachesCut** — fewer than so many characters are left of an input that is cut short. -/
def reachesCut (s : State) (count : Nat) : Bool := s.isCut && (s.input.drop count).isEmpty

/-- **next** — the state after one more token, and whether it is the last one. Four characters tell
which token comes next. -/
def next (s : State) : Except Fault (State × Bool) := do
  let (keyAllowed, input) := skipBlank s.inFlow false s.keyAllowed s.input
  let s := { s with keyAllowed, input }
  if s.reachesCut 4 then .error .forbiddenCharacter
  let s ← s.lapseAll input.mark
  let s := s.outdentTo input.column
  if isEnd input.head then .ok (← s.finish, true)
  else do
    let s ← s.token
    if s.reachesCut 1 then .error .forbiddenCharacter
    .ok (← s.lapseAll s.input.mark, false)

/-- **finalCount** — how many tokens no candidate can move any more. -/
def finalCount (s : State) : Nat :=
  (s.candidate :: s.around).foldl (fun n c => min n ((c.map (·.number)).getD n)) s.count

end State

/-- **scanFrom** — the tokens from a state on; `fuel` bounds their number. -/
def scanFrom : Nat → State → TokenStream
  | 0, s => ⟨s.tokens.reverse, none⟩
  | fuel + 1, s =>
    match s.next with
    | .error f => ⟨s.tokens.reverse.take s.finalCount, some f⟩
    | .ok (s, true) => ⟨s.tokens.reverse, none⟩
    | .ok (s, false) => scanFrom fuel s

/-- **ofText** — the tokens of a text. Every token takes at least one character. -/
def ofText (cs : List Char) : TokenStream :=
  let (input, isCut) := Input.ofText cs
  scanFrom (input.length + 1) { input, isCut }

end TokenStream

end RegisterMap.Yaml
