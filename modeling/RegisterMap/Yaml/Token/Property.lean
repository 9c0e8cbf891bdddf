import RegisterMap.Text.Numeral
import RegisterMap.Yaml.Token

/-!
# Properties — anchors, aliases and tags

A tag is a handle and a suffix, or between angle brackets the whole tag. Percent escapes in it
spell the bytes of UTF-8 sequences.
-/

namespace RegisterMap.Yaml.Token.Property

open Input

/-- **endsName** — what may follow the name of an anchor or alias. -/
def endsName (c : Char) : Bool :=
  isSeparation c || c == '?' || c == ':' || c == ',' || c == ']' || c == '\x7d' || c == '%'
    || c == '@' || c == '\x60'

/-- **scanName** — the name of an anchor or alias after its indicator. -/
def scanName (input : Input) : Except Fault (Name × Input) :=
  let (name, rest) := input.spanWhile isWordChar
  if name.isEmpty || !endsName rest.head then .error .badAnchor else .ok (name, rest)

/-! ## § Tags -/

/-- **isTagChar** — the characters that a tag is spelled with; some only in whole tags and in
directives. -/
def isTagChar (whole : Bool) (c : Char) : Bool :=
  isWordChar c || c == ';' || c == '/' || c == '?' || c == ':' || c == '@' || c == '&' || c == '='
    || c == '+' || c == '$' || c == '.' || c == '%' || c == '!' || c == '~' || c == '*'
    || c == '\x27' || c == '(' || c == ')' || (whole && (c == ',' || c == '[' || c == ']'))

/-- **sequenceLength** — the length of the UTF-8 sequence that a byte starts. -/
def sequenceLength (byte : Nat) : Option Nat :=
  if byte < 0x80 then some 1
  else if byte / 0x20 = 0x6 then some 2
  else if byte / 0x10 = 0xE then some 3
  else if byte / 0x08 = 0x1E then some 4
  else none

/-- **Mode** — where a tag stands. -/
inductive Mode where
  /-- Between characters. -/
  | text
  /-- After `%`, with so many bytes of the sequence to come, this one included; none for its
  first byte. -/
  | percent (left : Option Nat)
  /-- After `%` and one digit. -/
  | digit (left : Option Nat) (high : Nat)
  /-- Before the `%` of a byte that continues a sequence. -/
  | more (left : Nat)

/-- **afterByte** — the mode after a byte of a sequence, if the byte may stand there. -/
def afterByte (left : Option Nat) (byte : Nat) : Option Mode :=
  match left with
  | none => (sequenceLength byte).map fun n => if n = 1 then .text else .more (n - 1)
  | some n =>
    if byte / 0x40 = 0x2 then some (if n ≤ 1 then .text else .more (n - 1)) else none

/-- **spell** — the bytes of a tag up to the first character that is none of its own. -/
def spell (whole : Bool) (mode : Mode) : Input → Except Fault (Bytes × Input)
  | [] => .ok ([], [])
  | c :: rest =>
    match mode with
    | .text =>
      if c.char == '%' then spell whole (.percent none) rest
      else if isTagChar whole c.char then do
        let (bytes, rest) ← spell whole .text rest
        .ok (String.utf8EncodeChar c.char ++ bytes, rest)
      else .ok ([], c :: rest)
    | .more left => if c.char == '%' then spell whole (.percent (some left)) rest
      else .error .badPercentEscape
    | .percent left =>
      match Text.digitIn 16 c.char with
      | some d => spell whole (.digit left d) rest
      | none => .error .badPercentEscape
    | .digit left high =>
      match Text.digitIn 16 c.char with
      | none => .error .badPercentEscape
      | some d =>
        match afterByte left (16 * high + d) with
        | none => .error .badPercentEscape
        | some mode => do
          let (bytes, rest) ← spell whole mode rest
          .ok (UInt8.ofNat (16 * high + d) :: bytes, rest)

/-- **scanHandle** — a handle: `!`, word characters, and `!` again if it is there. -/
def scanHandle (input : Input) : Except Fault (Name × Input) :=
  if input.head != '!' then .error .badTag
  else
    let (name, rest) := Input.spanWhile isWordChar input.tail
    if rest.head == '!' then .ok ('!' :: name ++ ['!'], rest.tail) else .ok ('!' :: name, rest)

/-- **isClosed** — a handle that `!` closes. -/
def isClosed (handle : Name) : Bool := 1 < handle.length && handle.getLast? == some '!'

/-- **untilNull** — the bytes before the first zero byte, which ends the spelling of a tag. -/
def untilNull (bytes : Bytes) : Bytes := bytes.takeWhile (· ≠ 0)

/-- **scanTag** — handle and suffix of the tag that starts here. The lone `!` has no handle. -/
def scanTag (flow : Bool) (input : Input) : Except Fault (Name × Bytes × Input) := do
  let (handle, suffix, rest) ←
    if input.second == '<' then do
      let (suffix, rest) ← spell true .text (input.drop 2)
      if suffix.isEmpty || rest.head != '>' then .error .badTag
      .ok (([] : Name), untilNull suffix, (rest.tail : Input))
    else do
      let (handle, rest) ← scanHandle input
      let (suffix, rest) ← spell false .text rest
      if isClosed handle then
        if suffix.isEmpty then .error .badTag
        .ok (handle, untilNull suffix, rest)
      else
        let suffix := untilNull (bytesOf handle.tail ++ suffix)
        if suffix.isEmpty then .ok ([], bytesOf ['!'], rest) else .ok (['!'], suffix, rest)
  let next := Input.head rest
  if isSeparation next || (flow && next == ',') then .ok (handle, suffix, rest)
  else .error .badTag

end RegisterMap.Yaml.Token.Property
