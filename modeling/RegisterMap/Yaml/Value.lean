import RegisterMap.Text.Quoted
import RegisterMap.Text.Split
import RegisterMap.Yaml.Number

/-!
# Value — data without a fixed shape

What a document holds where nothing is asked of it: null, truth values, numbers, text, sequences,
mappings in the order of the text, and values with a local tag.

## § Equality

Values are equal as keys of a mapping: two mappings are equal when they have the same entries in
any order, and two tags when they have the same name, with or without the mark in front.
-/

namespace RegisterMap.Yaml

/-- **Value** — data without a fixed shape. -/
inductive Value where
  | null
  | bool (b : Bool)
  | number (n : Number)
  | text (s : String)
  | sequence (items : List Value)
  | mapping (entries : List (Value × Value))
  | tagged (tag : String) (value : Value)
  deriving Repr, Inhabited

namespace Value

/-- **tagName** — a tag without the mark in front, unless the mark is all of it. -/
def tagName (tag : String) : String :=
  match tag.toList with
  | '!' :: c :: cs => String.ofList (c :: cs)
  | _ => tag

/-! ## § Equality -/

mutual

/-- **same** — equality as keys. -/
def same : Value → Value → Bool
  | .null, .null => true
  | .bool a, .bool b => a == b
  | .number a, .number b => a.same b
  | .text a, .text b => a == b
  | .sequence as, .sequence bs => sameItems as bs
  | .mapping as, .mapping bs => as.length == bs.length && entriesIn as bs
  | .tagged s a, .tagged t b => tagName s == tagName t && same a b
  | _, _ => false

/-- **sameItems** — equality of sequences. -/
def sameItems : List Value → List Value → Bool
  | [], [] => true
  | a :: as, b :: bs => same a b && sameItems as bs
  | _, _ => false

/-- **entriesIn** — every entry is one of the others. -/
def entriesIn : List (Value × Value) → List (Value × Value) → Bool
  | [], _ => true
  | (k, v) :: as, bs => bs.any (fun e => same k e.1 && same v e.2) && entriesIn as bs

end

/-! ## § Keys -/

/-- **hasKey** — a mapping has an entry with this key. -/
def hasKey (k : Value) (entries : List (Value × Value)) : Bool := entries.any fun e => same e.1 k

/-- **distinctEntries** — no key occurs twice. -/
def distinctEntries : List (Value × Value) → Bool
  | [] => true
  | (k, _) :: es => !hasKey k es && distinctEntries es

mutual

/-- **distinctKeys** — no mapping inside the value has a key twice. -/
def distinctKeys : Value → Bool
  | .sequence items => distinctKeysAll items
  | .mapping entries => distinctEntries entries && distinctKeysEntries entries
  | .tagged _ v => distinctKeys v
  | .null => true
  | .bool _ => true
  | .number _ => true
  | .text _ => true

/-- **distinctKeysAll** — the same for all items of a sequence. -/
def distinctKeysAll : List Value → Bool
  | [] => true
  | v :: vs => distinctKeys v && distinctKeysAll vs

/-- **distinctKeysEntries** — the same for all keys and values of a mapping. -/
def distinctKeysEntries : List (Value × Value) → Bool
  | [] => true
  | (k, v) :: es => distinctKeys k && distinctKeys v && distinctKeysEntries es

end

/-! ## § Parts -/

/-- **untagged** — the value without tags around it. -/
def untagged : Value → Value
  | .tagged _ v => untagged v
  | v => v

/-- **text?** — the text of a value, tagged or not. -/
def text? (v : Value) : Option String :=
  match v.untagged with
  | .text s => some s
  | _ => none

/-- **mapping?** — the entries of a mapping, tagged or not. -/
def mapping? (v : Value) : Option (List (Value × Value)) :=
  match v.untagged with
  | .mapping entries => some entries
  | _ => none

/-! ## § Description -/

/-- **describeKey** — how a key is shown, given how it would be shown as a value: a truth value, a
number or a text stands for itself. -/
def describeKey (shown : String) : Value → String
  | .bool b => if b then "true" else "false"
  | .number n => n.render
  | .text s => Text.quoted s
  | _ => shown

mutual

/-- **describe** — the value for a message, with the kind of everything in it. -/
def describe : Value → String
  | .null => "Null"
  | .bool b => if b then "Bool(true)" else "Bool(false)"
  | .number n => "Number(" ++ n.render ++ ")"
  | .text s => "String(" ++ Text.quoted s ++ ")"
  | .sequence items => "Sequence [" ++ Text.join ", " (describeItems items) ++ "]"
  | .mapping entries => "Mapping \x7b" ++ Text.join ", " (describeEntries entries) ++ "\x7d"
  | .tagged tag v =>
    "TaggedValue \x7b tag: !" ++ tagName tag ++ ", value: " ++ describe v ++ " \x7d"

/-- **describeItems** — the items of a sequence. -/
def describeItems : List Value → List String
  | [] => []
  | v :: vs => describe v :: describeItems vs

/-- **describeEntries** — the entries of a mapping. -/
def describeEntries : List (Value × Value) → List String
  | [] => []
  | (k, v) :: es => (describeKey (describe k) k ++ ": " ++ describe v) :: describeEntries es

end

end Value

end RegisterMap.Yaml
