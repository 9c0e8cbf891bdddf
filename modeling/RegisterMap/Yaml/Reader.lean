import RegisterMap.Yaml.Document
import RegisterMap.Yaml.Scalar
import RegisterMap.Yaml.Value

/-!
# Reader — data of a given shape out of a document

A reader walks the nodes of a document in the order of the text and stops at the first thing that
does not fit, be it a value of another type or the place where the text itself goes wrong.

## § Limits

Collections nest at most 128 deep, and aliases are followed at most a hundred times for each event
of the document.
-/

namespace RegisterMap.Yaml

/-- **Unreadable** — why a document cannot be read, whatever is asked of it. -/
inductive Unreadable where
  /-- The text is no YAML. -/
  | syntaxFault (f : Fault)
  /-- The text ends where data is asked for. -/
  | ended
  /-- A scalar that does not spell what its tag asks for. -/
  | tagMismatch
  /-- A local tag where no tag can be kept. -/
  | localTag
  /-- Collections too deep in each other. -/
  | nesting
  /-- Too many aliases followed. -/
  | repetition
  /-- A mapping with a key twice. -/
  | repeatedKey
  deriving DecidableEq, Repr

/-- **ReadFault** — what does not fit. -/
inductive ReadFault where
  | wrongType (found expected : String)
  | missingField (name : String)
  | duplicateField (name : String)
  | noVariant (type : String)
  | unreadable (cause : Unreadable)
  deriving DecidableEq, Repr

/-- **message** — the text of a fault. Documents that cannot be read at all share one. -/
def ReadFault.message : ReadFault → String
  | .wrongType found expected => "invalid type: " ++ found ++ ", expected " ++ expected
  | .missingField name => "missing field `" ++ name ++ "`"
  | .duplicateField name => "duplicate field `" ++ name ++ "`"
  | .noVariant type => "data did not match any variant of untagged enum " ++ type
  | .unreadable _ => "yaml"

/-- **describe** — the type and value of a scalar. -/
def Scalar.Meaning.describe : Scalar.Meaning → String
  | .null => "unit value"
  | .bool b => if b then "boolean `true`" else "boolean `false`"
  | .integer n => "integer `" ++ (Number.integer n).render ++ "`"
  | .wide n =>
    "integer `" ++ (Number.integer n).render ++ "` as " ++ (if n < 0 then "i128" else "u128")
  | .float x => "floating point `" ++ x.render Decimal.Layout.positional ++ "`"
  | .text s => "string " ++ Text.quoted s

/-- **Reader** — reads from a document, counting the aliases it follows. -/
abbrev Reader := ReaderT Document (StateT Nat (Except ReadFault))

namespace Reader

/-- **fail** — what is there does not fit. -/
def fail {α : Type} (f : ReadFault) : Reader α := throw f

/-- **unreadable** — the document cannot be read. -/
def unreadable {α : Type} (cause : Unreadable) : Reader α := fail (.unreadable cause)

/-- **maxDepth** — how deep collections may nest. -/
def maxDepth : Nat := 128

/-- **follow** — one more alias is followed. -/
def follow (target : Nat) : Reader Node := do
  let d ← read
  let jumps ← getModify (· + 1)
  if 100 * d.size < jumps + 1 then unreadable .repetition
  else
    match d.target? target with
    | some n => pure n
    | none => unreadable (.syntaxFault .unknownAnchor)

/-- **cutFault** — the fault of the text. -/
def cutFault {α : Type} : Reader α := do
  match (← read).fault with
  | some f => unreadable (.syntaxFault f)
  | none => unreadable .ended

/-- **resolve** — the node itself, or the one that an alias means. -/
def resolve : Node → Reader Node
  | .alias target => follow target
  | .cut => cutFault
  | n => pure n

/-! ## § Types -/

/-- **meaning** — the meaning of a scalar. -/
def meaning (tag : Option Bytes) (style : Style) (text : List Char) : Reader Scalar.Meaning :=
  match Scalar.meaning tag style text with
  | some m => pure m
  | none => unreadable .tagMismatch

/-- **wrongType** — a node of another type than expected. -/
def wrongType {α : Type} (expected : String) : Node → Reader α
  | .scalar tag style text => do fail (.wrongType (← meaning tag style text).describe expected)
  | .sequence .. => fail (.wrongType "sequence" expected)
  | .mapping .. => fail (.wrongType "map" expected)
  | _ => unreadable .ended

/-- **isBlank** — nothing is written where a collection may stand. -/
def isBlank : Node → Bool
  | .void => true
  | .scalar _ style text => style = .plain && text.isEmpty
  | _ => false

/-- **characters** — the text of any scalar as it is written. -/
def characters (expected : String) (n : Node) : Reader String := do
  match ← resolve n with
  | .scalar _ _ text => pure (String.ofList text)
  | n => wrongType expected n

/-- **text** — a text. -/
def text : Node → Reader String := characters "a string"

/-- **fieldName** — a key of a mapping with fixed keys. -/
def fieldName : Node → Reader String := characters "field identifier"

/-- **bool** — a truth value, written plain or as a literal block with the standard tag. -/
def bool (n : Node) : Reader Bool := do
  match ← resolve n with
  | .scalar tag style text =>
    let plain := style = .plain || (style = .literal && tag = some (Scalar.standard "bool"))
    match if plain then Scalar.readBool text else none with
    | some b => pure b
    | none => wrongType "a boolean" (.scalar tag style text)
  | n => wrongType "a boolean" n

/-- **isAbsent** — the node says that an optional field has no value. -/
def isAbsent : Node → Reader Bool
  | .void => pure true
  | .scalar tag style text =>
    if style ≠ .plain then pure false
    else
      match tag with
      | none => pure (text.isEmpty || Scalar.isNull text)
      | some tag =>
        if tag = Scalar.standard "null" then
          if Scalar.isNull text then pure true else unreadable .tagMismatch
        else pure false
  | _ => pure false

/-- **optional** — what the reader reads, unless the node says that there is nothing. -/
def optional {α : Type} (reader : Node → Reader α) (n : Node) : Reader (Option α) := do
  let n ← resolve n
  if ← isAbsent n then pure none else some <$> reader n

/-- **sequence** — the items of a sequence; nothing stands for none. So many collections may open as
`depth` says. -/
def sequence {α : Type} (item : Nat → Node → Reader α) (depth : Nat) (n : Node) :
    Reader (List α) := do
  match ← resolve n, depth with
  | .sequence .., 0 => unreadable .nesting
  | .sequence _ items, depth + 1 => items.mapM (item depth)
  | n, _ => if isBlank n then pure [] else wrongType "a sequence" n

/-- **ignore** — a field that nobody asks for has only to be there. -/
def ignore (n : Node) : Reader Unit := if n.isWhole then pure () else cutFault

/-- **foldFields** — the fields of a mapping in the order of the text. -/
def foldFields {σ : Type} (field : σ → String → Node → Reader σ) : σ → List Node → Reader σ
  | s, [] => pure s
  | s, [k] => do
    let _ ← fieldName k
    pure s
  | s, k :: v :: rest => do
    let name ← fieldName k
    let s ← field s name v
    foldFields field s rest

/-- **fields** — the fields of a mapping with fixed keys; nothing stands for none of them. -/
def fields {σ : Type} (type : String) (start : σ) (field : Nat → σ → String → Node → Reader σ)
    (depth : Nat) (n : Node) : Reader σ := do
  match ← resolve n, depth with
  | .mapping .., 0 => unreadable .nesting
  | .mapping _ items, depth + 1 => foldFields (field depth) start items
  | n, _ => if isBlank n then pure start else wrongType type n

/-- **once** — the value of a field that may come only once. -/
def once {α : Type} (name : String) (before : Option α) (reader : Reader α) : Reader (Option α) :=
  if before.isSome then fail (.duplicateField name) else some <$> reader

/-- **required** — the value of a field that has to come. -/
def required {α : Type} (name : String) (value : Option α) : Reader α :=
  match value with
  | some v => pure v
  | none => fail (.missingField name)

/-! ## § Data without a fixed shape -/

/-- **Keeping** — what becomes of data without a fixed shape. -/
inductive Keeping where
  /-- It is looked at again later: keys may repeat until then, and no local tag can be kept. -/
  | forLater
  /-- It is a value from the start. -/
  | asValue
  deriving DecidableEq

/-- **expectation** — what a reader of such data asks for. -/
def Keeping.expectation : Keeping → String
  | .forLater => "any value"
  | .asValue => "any YAML value"

/-- **ofMeaning** — the value of a scalar. -/
def ofMeaning (keeping : Keeping) : Scalar.Meaning → Reader Value
  | .null => pure .null
  | .bool b => pure (.bool b)
  | .integer n => pure (.number (.integer n))
  | .wide n => fail (.wrongType (Scalar.Meaning.wide n).describe keeping.expectation)
  | .float x => pure (.number (.float x))
  | .text s => pure (.text s)

/-- **entries** — the entries of a mapping after those that have been read. -/
def entries (keeping : Keeping) (value : Node → Reader Value) :
    List (Value × Value) → List Node → Reader (List (Value × Value))
  | before, [] => pure before.reverse
  | before, [k] => do
    let _ ← value k
    pure before.reverse
  | before, k :: v :: rest => do
    let k ← value k
    if keeping = .asValue && Value.hasKey k before then unreadable .repeatedKey
    else
      let v ← value v
      entries keeping value ((k, v) :: before) rest

/-- **localTag** — the local tag of a node. -/
def localTag : Node → Option String
  | .scalar tag .. | .sequence tag _ | .mapping tag _ => tag.bind Scalar.localName
  | _ => none

/-- **untagged** — a node whose local tag has been dealt with. -/
def untagged : Node → Node
  | .scalar tag style text => .scalar (tag.filter fun t => (Scalar.localName t).isNone) style text
  | n => n

/-- **shapeless** — the value of a node whose items are read by `inner`; without one, collections
are too deep. -/
def shapeless (keeping : Keeping) (inner : Option (Node → Reader Value)) (n : Node) :
    Reader Value := do
  let n ← resolve n
  let body : Reader Value :=
    match untagged n, inner with
    | .scalar tag style text, _ => do ofMeaning keeping (← meaning tag style text)
    | .sequence .., none => unreadable .nesting
    | .mapping .., none => unreadable .nesting
    | .sequence _ items, some inner => do pure (.sequence (← items.mapM inner))
    | .mapping _ items, some inner => do pure (.mapping (← entries keeping inner [] items))
    | _, _ => pure .null
  match localTag n with
  | none => body
  | some tag => if keeping = .forLater then unreadable .localTag else .tagged tag <$> body

/-- **value** — the value of any node; `depth` collections may open. -/
def value (keeping : Keeping) : Nat → Node → Reader Value
  | 0 => shapeless keeping none
  | depth + 1 => shapeless keeping (some (value keeping depth))

/-- **mapping** — the entries of a mapping without fixed keys; nothing stands for none. -/
def mapping (depth : Nat) (n : Node) : Reader (List (Value × Value)) := do
  match ← resolve n, depth with
  | .mapping .., 0 => unreadable .nesting
  | .mapping _ items, depth + 1 => entries .asValue (value .asValue depth) [] items
  | n, _ => if isBlank n then pure [] else wrongType "a YAML mapping" n

/-- **run** — what a reader finds at the root of a document that has no fault after it. -/
def run {α : Type} (reader : Node → Reader α) (d : Document) : Except ReadFault α := do
  let (a, _) ← StateT.run (ReaderT.run (reader d.root) d) 0
  match d.fault with
  | some f => .error (.unreadable (.syntaxFault f))
  | none => .ok a

end Reader

end RegisterMap.Yaml
