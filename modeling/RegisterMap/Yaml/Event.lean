import RegisterMap.Yaml.TokenStream

/-!
# Event — the nodes of a document in the order of the text

The first document of a token stream as a list of events: scalars, aliases, and the starts and
ends of collections. A fault ends the list.

## § Goals

The grammar is read with a stack of goals: what has to come next, innermost first. A goal looks at
the next tokens, makes at most one event, and leaves further goals.
-/

namespace RegisterMap.Yaml

/-- **Event** — a node, or the start or end of one. -/
inductive Event where
  | alias (name : Name)
  | scalar (anchor : Option Name) (tag : Option Bytes) (style : Style) (text : List Char)
  | sequenceStart (anchor : Option Name) (tag : Option Bytes)
  | sequenceEnd
  | mappingStart (anchor : Option Name) (tag : Option Bytes)
  | mappingEnd
  deriving DecidableEq, Repr

/-- **EventStream** — the events of a document and the fault that ends them. `started` is false when
the text holds no document. -/
structure EventStream where
  started : Bool
  events : List Event
  fault : Option Fault

namespace Event

/-- **Goal** — what has to come next. -/
inductive Goal where
  /-- A node; block collections only where they can stand, entries without indentation only as the
  value or key of a block mapping. -/
  | node (block unindented : Bool)
  /-- The entries of a block sequence. -/
  | entries
  /-- The entries of a sequence that is not indented. -/
  | unindentedEntries
  /-- The keys of a block mapping. -/
  | blockKey
  /-- The value of a key of a block mapping. -/
  | blockValue
  /-- The items of a flow sequence. -/
  | flowItem (first : Bool)
  /-- The key of a pair in a flow sequence. -/
  | pairKey
  /-- The value of a pair in a flow sequence. -/
  | pairValue
  /-- The end of a pair in a flow sequence. -/
  | pairEnd
  /-- The keys of a flow mapping. -/
  | flowKey (first : Bool)
  /-- The value of a key of a flow mapping, or of a key that has none. -/
  | flowValue (missing : Bool)
  deriving DecidableEq, Repr

/-- **Step** — the events made, the goals that replace the one that was met, and the tokens left. -/
structure Step where
  events : List Event
  goals : List Goal
  rest : List Token

/-- **emptyScalar** — the node that stands where the text has none. -/
def emptyScalar : Event := .scalar none none .plain []

/-! ## § Tags -/

/-- **Handles** — the handles of a document and what they abbreviate. -/
abbrev Handles := List (Name × Bytes)

/-- **standardHandles** — the handles that need no directive. -/
def standardHandles : Handles :=
  [(['!'], bytesOf ['!']), (['!', '!'], bytesOf "tag:yaml.org,2002:".toList)]

/-- **resolveTag** — the tag that a handle and a suffix spell. -/
def resolveTag (handles : Handles) (handle : Name) (suffix : Bytes) : Except Fault Bytes :=
  if handle.isEmpty then .ok suffix
  else
    match handles.lookup handle with
    | some start => .ok (start ++ suffix)
    | none => .error .undefinedHandle

/-- **Properties** — what stands before the content of a node. -/
structure Properties where
  anchor : Option Name := none
  tag : Option (Name × Bytes) := none

/-- **properties** — an anchor and a tag in either order, each at most once. -/
def properties : List Token → Properties × List Token
  | .anchor a :: .tag h s :: rest => ({ anchor := some a, tag := some (h, s) }, rest)
  | .anchor a :: rest => ({ anchor := some a }, rest)
  | .tag h s :: .anchor a :: rest => ({ anchor := some a, tag := some (h, s) }, rest)
  | .tag h s :: rest => ({ tag := some (h, s) }, rest)
  | rest => ({}, rest)

/-! ## § Meeting a goal -/

/-- **content** — the content of a node after its properties. -/
def content (block unindented : Bool) (anchor : Option Name) (tag : Option Bytes)
    (t : Token) (rest : List Token) : Except Fault Step :=
  match t, block, unindented with
  | .blockEntry, _, true => .ok ⟨[.sequenceStart anchor tag], [.unindentedEntries], t :: rest⟩
  | .scalar style text, _, _ => .ok ⟨[.scalar anchor tag style text], [], rest⟩
  | .flowSequenceStart, _, _ => .ok ⟨[.sequenceStart anchor tag], [.flowItem true], rest⟩
  | .flowMappingStart, _, _ => .ok ⟨[.mappingStart anchor tag], [.flowKey true], rest⟩
  | .blockSequenceStart, true, _ => .ok ⟨[.sequenceStart anchor tag], [.entries], rest⟩
  | .blockMappingStart, true, _ => .ok ⟨[.mappingStart anchor tag], [.blockKey], rest⟩
  | _, _, _ =>
    if anchor.isSome || tag.isSome then .ok ⟨[.scalar anchor tag .plain []], [], t :: rest⟩
    else .error .missingNode

/-- **node** — an alias, or properties and content. `missing` is the fault when the tokens end. -/
def node (missing : Fault) (handles : Handles) (block unindented : Bool) :
    List Token → Except Fault Step
  | [] => .error missing
  | .alias name :: rest => .ok ⟨[.alias name], [], rest⟩
  | tokens =>
    let (p, rest) := properties tokens
    match rest with
    | [] => .error missing
    | t :: rest => do
      let tag ← p.tag.mapM fun (h, s) => resolveTag handles h s
      content block unindented p.anchor tag t rest

/-- **nodeUnless** — a node, or an empty scalar when a token of the list comes next. -/
def nodeUnless (missing : Fault) (stop : List Token) (block unindented : Bool)
    (goals : List Goal) : List Token → Except Fault Step
  | [] => .error missing
  | t :: rest =>
    if stop.contains t then .ok ⟨[emptyScalar], goals, t :: rest⟩
    else .ok ⟨[], .node block unindented :: goals, t :: rest⟩

/-- **meet** — one step towards a goal. -/
def meet (missing : Fault) (handles : Handles) (goal : Goal) (tokens : List Token) :
    Except Fault Step :=
  match goal, tokens with
  | _, [] => .error missing
  | .node block unindented, tokens => node missing handles block unindented tokens
  | .entries, .blockEntry :: rest =>
    nodeUnless missing [.blockEntry, .blockEnd] true false [.entries] rest
  | .entries, .blockEnd :: rest => .ok ⟨[.sequenceEnd], [], rest⟩
  | .entries, _ => .error .missingEntry
  | .unindentedEntries, .blockEntry :: rest =>
    nodeUnless missing [.blockEntry, .key, .value, .blockEnd] true false [.unindentedEntries] rest
  | .unindentedEntries, tokens => .ok ⟨[.sequenceEnd], [], tokens⟩
  | .blockKey, .key :: rest =>
    nodeUnless missing [.key, .value, .blockEnd] true true [.blockValue] rest
  | .blockKey, .blockEnd :: rest => .ok ⟨[.mappingEnd], [], rest⟩
  | .blockKey, _ => .error .missingKey
  | .blockValue, .value :: rest =>
    nodeUnless missing [.key, .value, .blockEnd] true true [.blockKey] rest
  | .blockValue, tokens => .ok ⟨[emptyScalar], [.blockKey], tokens⟩
  | .flowItem _, .flowSequenceEnd :: rest => .ok ⟨[.sequenceEnd], [], rest⟩
  | .flowItem false, .flowEntry :: rest => flowItem rest
  | .flowItem false, _ => .error .unclosedFlow
  | .flowItem true, tokens => flowItem tokens
  | .pairKey, .value :: rest => .ok ⟨[emptyScalar], [.pairValue], rest⟩
  | .pairKey, .flowEntry :: rest => .ok ⟨[emptyScalar], [.pairValue], rest⟩
  | .pairKey, .flowSequenceEnd :: rest => .ok ⟨[emptyScalar], [.pairValue], rest⟩
  | .pairKey, tokens => .ok ⟨[], [.node false false, .pairValue], tokens⟩
  | .pairValue, .value :: rest =>
    nodeUnless missing [.flowEntry, .flowSequenceEnd] false false [.pairEnd] rest
  | .pairValue, tokens => .ok ⟨[emptyScalar], [.pairEnd], tokens⟩
  | .pairEnd, tokens => .ok ⟨[.mappingEnd], [], tokens⟩
  | .flowKey _, .flowMappingEnd :: rest => .ok ⟨[.mappingEnd], [], rest⟩
  | .flowKey false, .flowEntry :: rest => flowKey rest
  | .flowKey false, _ => .error .unclosedFlow
  | .flowKey true, tokens => flowKey tokens
  | .flowValue true, tokens => .ok ⟨[emptyScalar], [.flowKey false], tokens⟩
  | .flowValue false, .value :: rest =>
    nodeUnless missing [.flowEntry, .flowMappingEnd] false false [.flowKey false] rest
  | .flowValue false, tokens => .ok ⟨[emptyScalar], [.flowKey false], tokens⟩
where
  /-- An item of a flow sequence after its comma. -/
  flowItem : List Token → Except Fault Step
    | [] => .error missing
    | .flowSequenceEnd :: rest => .ok ⟨[.sequenceEnd], [], rest⟩
    | .key :: rest => .ok ⟨[.mappingStart none none], [.pairKey, .flowItem false], rest⟩
    | tokens => .ok ⟨[], [.node false false, .flowItem false], tokens⟩
  /-- A key of a flow mapping after its comma. -/
  flowKey : List Token → Except Fault Step
    | [] => .error missing
    | .flowMappingEnd :: rest => .ok ⟨[.mappingEnd], [], rest⟩
    | .key :: rest =>
      nodeUnless missing [.value, .flowEntry, .flowMappingEnd] false false [.flowValue false] rest
    | tokens => .ok ⟨[], [.node false false, .flowValue true], tokens⟩

/-- **run** — the events until all goals are met and the next token is known; `fuel` bounds the
steps. -/
def run (missing : Fault) (handles : Handles) :
    Nat → List Goal → List Token → List Event × Option Fault
  | 0, _, _ => ([], some missing)
  | _ + 1, [], [] => ([], some missing)
  | _ + 1, [], _ :: _ => ([], none)
  | fuel + 1, goal :: goals, tokens =>
    match meet missing handles goal tokens with
    | .error f => ([], some f)
    | .ok s =>
      let (events, fault) := run missing handles fuel (s.goals ++ goals) s.rest
      (s.events ++ events, fault)

/-! ## § The first document -/

/-- **directives** — the handles that the directives before a document define, and the tokens after
them. -/
def directives (versionSeen : Bool) (handles : Handles) :
    List Token → Except Fault (Handles × List Token)
  | .versionDirective major minor :: rest =>
    if versionSeen then .error .repeatedDirective
    else if major = 1 ∧ (minor = 1 ∨ minor = 2) then directives true handles rest
    else .error .unknownVersion
  | .tagDirective handle start :: rest =>
    if handles.any (·.1 == handle) then .error .repeatedDirective
    else directives versionSeen (handles ++ [(handle, start)]) rest
  | rest => .ok (handles, rest)

/-- **stepBound** — more steps than a document of so many tokens can take: a step without a token is
followed by one with a token. -/
def stepBound (tokens : List Token) : Nat := 8 * (tokens.length + 2)

/-- **document** — the events of the document that starts here. -/
def document (missing : Fault) (handles : Handles) (tokens : List Token) : EventStream :=
  let (events, fault) :=
    run missing (handles ++ standardHandles) (stepBound tokens) [.node true false] tokens
  ⟨true, events, fault⟩

/-- **explicitDocument** — the document after directives and `---`. -/
def explicitDocument (missing : Fault) (tokens : List Token) : EventStream :=
  match directives false [] tokens with
  | .error f => ⟨true, [], some f⟩
  | .ok (handles, tokens) =>
    match tokens with
    | [] => ⟨true, [], some missing⟩
    | .documentStart :: [] => ⟨true, [], some missing⟩
    | .documentStart :: t :: rest =>
      if t.isDirective || [Token.documentStart, .documentEnd, .streamEnd].contains t then
        ⟨true, [emptyScalar], none⟩
      else document missing handles (t :: rest)
    | _ :: _ => ⟨true, [], some .missingDocumentStart⟩

end Event

/-- **ofTokens** — the first document of a stream. -/
def EventStream.ofTokens (s : TokenStream) : EventStream :=
  let missing := s.fault.getD .missingNode
  match s.tokens with
  | [] => ⟨s.fault.isSome, [], s.fault⟩
  | .streamEnd :: _ => ⟨false, [], none⟩
  | t :: rest =>
    if t.isDirective || t == .documentStart then Event.explicitDocument missing (t :: rest)
    else Event.document missing [] (t :: rest)

end RegisterMap.Yaml
