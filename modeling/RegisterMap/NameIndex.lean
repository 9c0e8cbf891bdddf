/-!
# Name index — where the first element of each name stands

An index is built along with a list of named elements. A name that comes again keeps the place of
its first element, so looking a name up finds the first element that has it.

## § Statements

* `position?_push` — a new name takes the next place, a known one keeps its own;
* `position?_ofNames` — an index of a whole list gives the first place of each name;
* `find?_eq` — looking up through an index is searching the list.
-/

namespace RegisterMap

/-- **NameIndex** — names with their places, and the number of elements so far. -/
structure NameIndex where
  entries : List (String × Nat) := []
  size : Nat := 0
  deriving DecidableEq, Repr

namespace NameIndex

/-- **empty** — the index of no element. -/
def empty : NameIndex := {}

/-- **position?** — the place of the first element with the name. -/
def position? (index : NameIndex) (name : String) : Option Nat := index.entries.lookup name

/-- **contains** — an element has the name. -/
def contains (index : NameIndex) (name : String) : Bool := (index.position? name).isSome

/-- **push** — the index with one more element. -/
def push (index : NameIndex) (name : String) : NameIndex :=
  if index.contains name then { index with size := index.size + 1 }
  else ⟨index.entries ++ [(name, index.size)], index.size + 1⟩

/-- **ofNames** — the index of a list by its names. -/
def ofNames (names : List String) : NameIndex := names.foldl push empty

/-- **find?** — the element of the list that the index gives for a name. -/
def find? {α : Type} (index : NameIndex) (elements : List α) (name : String) : Option α :=
  (index.position? name).bind fun i => elements[i]?

theorem lookup_append_singleton (es : List (String × Nat)) (key name : String) (n : Nat) :
    (es ++ [(name, n)]).lookup key
      = (es.lookup key).or (if key == name then some n else none) := by
  rw [List.lookup_append, List.lookup_cons, List.lookup_nil]
  cases key == name <;> rfl

/-- A new name takes the next place; a known one keeps its own. -/
theorem position?_push (index : NameIndex) (name key : String) :
    (index.push name).position? key
      = (index.position? key).or (if key = name then some index.size else none) := by
  unfold push
  split
  · rename_i h
    by_cases hk : key = name
    · subst hk
      simp only [contains] at h
      simp only [position?] at h ⊢
      cases hl : index.entries.lookup key <;> simp_all
    · simp [position?, hk]
  · simp [position?, lookup_append_singleton]

@[simp] theorem size_push (index : NameIndex) (name : String) :
    (index.push name).size = index.size + 1 := by
  unfold push
  split <;> rfl

theorem position?_foldl_push (names : List String) (index : NameIndex) (key : String) :
    (names.foldl push index).position? key
      = (index.position? key).or ((names.findIdx? (· == key)).map (index.size + ·)) := by
  induction names generalizing index with
  | nil => simp
  | cons n ns ih =>
    rw [List.foldl_cons, ih, position?_push, List.findIdx?_cons, size_push]
    by_cases h : key = n
    · subst h
      cases index.position? key <;> simp
    · have h' : (n == key) = false := by simpa using fun e => h e.symm
      simp only [h, if_false, h', Bool.false_eq_true, Option.map_map, Function.comp_def]
      cases index.position? key with
      | some i => simp
      | none =>
        cases ns.findIdx? (· == key) with
        | none => simp
        | some i => simp only [Option.or, Option.map_some]; congr 1; omega

/-- The index of a list gives the first place of each name. -/
theorem position?_ofNames (names : List String) (key : String) :
    (ofNames names).position? key = names.findIdx? (· == key) := by
  rw [ofNames, position?_foldl_push]
  cases names.findIdx? (· == key) <;> simp [position?, empty]

/-- Looking up through the index of a list by name is searching the list. -/
theorem find?_eq {α : Type} (elements : List α) (name : α → String) (key : String) :
    (ofNames (elements.map name)).find? elements key
      = elements.find? (fun a => name a == key) := by
  rw [find?, position?_ofNames]
  induction elements with
  | nil => rfl
  | cons a as ih =>
    rw [List.map_cons, List.findIdx?_cons, List.find?_cons]
    split
    · rename_i h
      simp [h]
    · rename_i h
      rw [← ih]
      simp only [h, Option.bind_map]
      congr 1

end NameIndex

end RegisterMap
