import RegisterMap.Device.Basic
import RegisterMap.Device.Build.Scalar

/-!
# Value tables of a description

A top-level key that starts with `x-` names a value table. It maps values to labels; a label that
comes again keeps its first place and takes its last value.
-/

namespace RegisterMap.ValueTable

/-- **nameOf** — the name of the table that a key stands for. -/
def nameOf (key : Yaml.Value) : Option String :=
  match key.text? with
  | some s =>
    match s.toList with
    | 'x' :: '-' :: cs => some (String.ofList cs)
    | _ => none
  | none => none

/-- **assign** — the entries after a label gets a value. -/
def assign (label : String) (value : Nat) : List (String × Nat) → List (String × Nat)
  | [] => [(label, value)]
  | (l, v) :: es => if l = label then (l, value) :: es else (l, v) :: assign label value es

/-- **readEntry** — a label and its value. -/
def readEntry (what : String) (e : Yaml.Value × Yaml.Value) :
    Except SchemaFault (String × Nat) := do
  let value ← naturalOf what e.1
  let label ← labelOf what e.2
  .ok (label, value)

/-- **ofEntries** — the entries of a table whose labels get their values one after another. -/
def ofEntries (pairs : List (String × Nat)) : List (String × Nat) :=
  pairs.foldl (fun es p => assign p.1 p.2 es) []

/-- **ofValue** — the table of a name. -/
def ofValue (name : String) (v : Yaml.Value) : Except SchemaFault ValueTable :=
  match v.mapping? with
  | none => .error (.tableNotMapping name)
  | some entries => do
    let pairs ← entries.mapM (readEntry ("enum `" ++ name ++ "`"))
    .ok ⟨name, ofEntries pairs⟩

/-- **build** — the tables of the extra entries of a description. -/
def build : List (Yaml.Value × Yaml.Value) → Except SchemaFault (List ValueTable)
  | [] => .ok []
  | (k, v) :: es =>
    match nameOf k with
    | none => build es
    | some name => do
      let table ← ofValue name v
      let tables ← build es
      .ok (table :: tables)

end RegisterMap.ValueTable
