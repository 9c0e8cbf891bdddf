import RegisterMap.Bus.Transfer

/-!
# Accesses — one after another, up to the first that fails

A transfer asks the bus for one access after another. The first that fails ends it: what was done
before stays done, and nothing behind it is asked for. A read changes nothing but the trace, so a
run of reads is known from the words that the bus holds at its start.

## § What is here

* `Bus.recorded` — a bus with accesses that changed none of its words;
* `Transfer.each_cons`, `Transfer.each_of_error` — a run that goes on, and one that ends;
* `Transfer.reading`, `each_reading`, `each_reading_absent` — runs of reads;
* `each_reading_recorded` — none of them changes the bus.
-/

namespace RegisterMap

namespace Bus

/-- **recorded** — the bus with more accesses in its trace, and everything else as it is. -/
def recorded (b : Bus) (accesses : List Access) : Bus := { b with trace := b.trace ++ accesses }

@[simp] theorem word?_recorded (b : Bus) (accesses : List Access) (key : Nat) :
    (b.recorded accesses).word? key = b.word? key := rfl

@[simp] theorem isLocked_recorded (b : Bus) (accesses : List Access) (key : Nat) :
    (b.recorded accesses).isLocked key = b.isLocked key := rfl

theorem recorded_recorded (b : Bus) (first rest : List Access) :
    (b.recorded first).recorded rest = b.recorded (first ++ rest) := by
  rw [recorded, recorded, recorded, List.append_assoc]

theorem word?_of_ne_none {b : Bus} {key : Nat} (h : b.word? key ≠ none) :
    b.word? key = some ((b.word? key).getD 0) := by
  obtain ⟨w, hw⟩ := Option.ne_none_iff_exists'.1 h
  rw [hw]
  rfl

end Bus

namespace Transfer

variable {α β : Type}

/-! ## § Runs -/

/-- A run succeeds when its first access does, and the others from there on. -/
theorem each_cons_eq_ok {f : α → Transfer β} {a : α} {as : List α} {b after : Bus} {xs : List β} :
    each f (a :: as) b = (.ok xs, after) ↔ ∃ x middle rest, f a b = (.ok x, middle) ∧
      each f as middle = (.ok rest, after) ∧ x :: rest = xs := by
  constructor
  · intro h
    rw [each] at h
    cases hfirst : f a b with
    | mk result middle =>
      cases result with
      | error e =>
        simp only [hfirst] at h
        cases congrArg Prod.fst h
      | ok x =>
        cases hrest : each f as middle with
        | mk results last =>
          cases results with
          | error e =>
            simp only [hfirst, hrest] at h
            cases congrArg Prod.fst h
          | ok rest =>
            simp only [hfirst, hrest] at h
            cases h
            exact ⟨x, middle, rest, rfl, hrest, rfl⟩
  · rintro ⟨x, middle, rest, hfirst, hrest, rfl⟩
    simp only [each, hfirst, hrest]

theorem each_cons {f : α → Transfer β} {a : α} {as : List α} {b b' b'' : Bus} {x : β}
    {xs : List β} (hfirst : f a b = (.ok x, b')) (hrest : each f as b' = (.ok xs, b'')) :
    each f (a :: as) b = (.ok (x :: xs), b'') :=
  each_cons_eq_ok.2 ⟨x, b', xs, hfirst, hrest, rfl⟩

/-- A run ends with the first access that fails, whatever stands behind it. -/
theorem each_of_error {f : α → Transfer β} {before after : List α} {a : α} {b b' b'' : Bus}
    {xs : List β} {e : BusFault} (hbefore : each f before b = (.ok xs, b'))
    (hfail : f a b' = (.error e, b'')) : each f (before ++ a :: after) b = (.error e, b'') := by
  induction before generalizing b xs with
  | nil =>
    obtain rfl : b = b' := congrArg Prod.snd hbefore
    rw [List.nil_append, each]
    simp only [hfail]
  | cons c before ih =>
    obtain ⟨x, middle, rest, hfirst, hrest, -⟩ := each_cons_eq_ok.1 hbefore
    rw [List.cons_append, each]
    simp only [hfirst, ih hrest]

/-! ## § Reads -/

/-- **reading** — one read, and what is made of the address and its word. -/
def reading (make : Nat → Nat → β) (addr : Nat) : Transfer β := fun b =>
  let (word, b) := b.read addr
  (word.map (make addr), b)

variable {make : Nat → Nat → β} {b : Bus}

theorem reading_present {a w : Nat} (h : b.word? a = some w) :
    reading make a b = (.ok (make a w), b.recorded [.read a]) := by
  simp only [reading, Bus.read, h]
  rfl

theorem reading_absent {a : Nat} (h : b.word? a = none) :
    reading make a b = (.error (.absent a), b.recorded [.read a]) := by
  simp only [reading, Bus.read, h]
  rfl

/-- Where each address holds a word, all of them are read. -/
theorem each_reading (make : Nat → Nat → β) (word : Nat → Nat) {as : List Nat}
    (hword : ∀ a ∈ as, b.word? a = some (word a)) :
    each (reading make) as b
      = (.ok (as.map fun a => make a (word a)), b.recorded (as.map Access.read)) := by
  induction as generalizing b with
  | nil =>
    rw [each, List.map_nil, List.map_nil, Bus.recorded, List.append_nil]
  | cons a as ih =>
    obtain ⟨hfirst, hrest⟩ := List.forall_mem_cons.1 hword
    -- A read changes no word, so the others are read as the bus holds them now.
    have htail := ih (b := b.recorded [.read a]) hrest
    rw [Bus.recorded_recorded] at htail
    exact each_cons (reading_present hfirst) htail

/-- The first address without a word ends a run of reads, after it has been asked for. -/
theorem each_reading_absent {before after : List Nat} {a : Nat}
    (hbefore : ∀ x ∈ before, b.word? x ≠ none) (habsent : b.word? a = none) :
    each (reading make) (before ++ a :: after) b
      = (.error (.absent a), b.recorded ((before ++ [a]).map Access.read)) := by
  have hword := each_reading make _ fun x hx => Bus.word?_of_ne_none (hbefore x hx)
  refine (each_of_error hword (reading_absent habsent)).trans ?_
  rw [Bus.recorded_recorded, List.map_append]
  rfl

/-- A list has a first address of some kind, when it has one at all. -/
theorem exists_first {p : Nat → Prop} [DecidablePred p] {as : List Nat} (h : ∃ x ∈ as, p x) :
    ∃ before a after, as = before ++ a :: after ∧ (∀ x ∈ before, ¬ p x) ∧ p a := by
  obtain ⟨x, hx, hp⟩ := h
  have hsome : (as.find? fun x => decide (p x)).isSome :=
    List.find?_isSome.2 ⟨x, hx, decide_eq_true hp⟩
  obtain ⟨a, ha⟩ := Option.isSome_iff_exists.1 hsome
  obtain ⟨hpa, before, after, has, hbefore⟩ := List.find?_eq_some_iff_append.1 ha
  exact ⟨before, a, after, has, fun y hy => by simpa using hbefore y hy, by simpa using hpa⟩

/-- No run of reads changes a word or a lock, whether it succeeds or not. -/
theorem each_reading_recorded (make : Nat → Nat → β) (as : List Nat) (b : Bus) :
    ∃ accesses, (each (reading make) as b).2 = b.recorded accesses := by
  by_cases hmissing : ∃ x ∈ as, b.word? x = none
  · obtain ⟨before, a, after, rfl, hbefore, habsent⟩ := exists_first hmissing
    exact ⟨_, congrArg Prod.snd (each_reading_absent hbefore habsent)⟩
  · have hword := each_reading make _ fun x hx =>
      Bus.word?_of_ne_none fun hnone => hmissing ⟨x, hx, hnone⟩
    exact ⟨_, congrArg Prod.snd hword⟩

end Transfer

end RegisterMap
