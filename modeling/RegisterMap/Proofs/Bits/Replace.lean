import Mathlib.Data.Nat.Bitwise
import RegisterMap.Proofs.Bits.Spread

/-!
# Replaced bits — a field is changed and nothing besides

The bits of a field are cleared in the value of its register, and the new ones are put in. A field
and the value of its register are then a lens: what is put in is what is found there, what is found
there may be put in again without a change, and of two values that are put in the last one counts.
Fields without a common bit do not notice each other.

## § What is here

* `replace`, `testBit_replace` — the value with new bits in the places of a field;
* `collect_replace`, `replace_collect`, `replace_replace` — the laws of a lens;
* `testBit_replace_of_not_contains`, `collect_replace_of_disjoint` — what does not change.
-/

namespace RegisterMap.BitSpec

variable {s t : BitSpec}

/-- **replace** — the value of a register with a dense value in the places of a field. -/
def replace (s : BitSpec) (register dense : Nat) : Nat :=
  register.ldiff s.mask.toNat ||| s.spread dense

/-- A place of the field has its bit of the dense value, and any other bit is as before. -/
theorem testBit_replace (s : BitSpec) (register dense b : Nat) :
    (s.replace register dense).testBit b ↔ (register.testBit b ∧ ¬ s.mask.contains b) ∨
      ∃ k, k < s.size ∧ s.place k = b ∧ dense.testBit k := by
  rw [replace, Nat.testBit_or, Nat.testBit_ldiff, ← BitMask.contains_eq_testBit, Bool.or_eq_true,
    Bool.and_eq_true, testBit_spread, Bool.not_eq_true', Bool.not_eq_true]

theorem testBit_replace_place (hs : s.Proper) {k : Nat} (hk : k < s.size) (register dense : Nat) :
    (s.replace register dense).testBit (s.place k) ↔ dense.testBit k := by
  have hinside : s.mask.contains (s.place k) := (contains_mask hs _).2 ⟨k, hk, rfl⟩
  rw [testBit_replace]
  constructor
  · rintro (⟨-, houtside⟩ | ⟨l, hl, hplace, hbit⟩)
    · exact absurd hinside houtside
    · rwa [← place_injective hs hl hk hplace]
  · exact fun hbit => .inr ⟨k, hk, rfl, hbit⟩

/-- Bits outside of the field do not change. -/
theorem testBit_replace_of_not_contains (hs : s.Proper) {b : Nat} (hb : ¬ s.mask.contains b)
    (register dense : Nat) : (s.replace register dense).testBit b = register.testBit b := by
  rw [Bool.eq_iff_iff, testBit_replace]
  constructor
  · rintro (⟨hbit, -⟩ | ⟨k, hk, hplace, -⟩)
    · exact hbit
    · exact absurd ((contains_mask hs b).2 ⟨k, hk, hplace⟩) hb
  · exact fun hbit => .inl ⟨hbit, hb⟩

/-! ## § The laws of a lens -/

/-- What is put in is found there, as far as the field has room for it. -/
theorem collect_replace (hs : s.Proper) (register dense : Nat) :
    s.collect (s.replace register dense) = dense % capacity s.size := by
  apply eq_of_testBit_iff
  intro k
  rw [testBit_collect, testBit_mod_capacity, Bool.and_eq_true, decide_eq_true_eq]
  exact and_congr_right fun hk => testBit_replace_place hs hk register dense

/-- What is found there may be put in again. -/
theorem replace_collect (hs : s.Proper) (register : Nat) :
    s.replace register (s.collect register) = register := by
  apply eq_of_testBit_iff
  intro b
  by_cases hb : s.mask.contains b
  · obtain ⟨k, hk, rfl⟩ := (contains_mask hs b).1 hb
    rw [testBit_replace_place hs hk, testBit_collect]
    exact and_iff_right hk
  · rw [testBit_replace_of_not_contains hs hb]

/-- Of two values that are put in, the last one counts. -/
theorem replace_replace (hs : s.Proper) (register first second : Nat) :
    s.replace (s.replace register first) second = s.replace register second := by
  apply eq_of_testBit_iff
  intro b
  by_cases hb : s.mask.contains b
  · obtain ⟨k, hk, rfl⟩ := (contains_mask hs b).1 hb
    rw [testBit_replace_place hs hk, testBit_replace_place hs hk]
  · simp only [testBit_replace_of_not_contains hs hb]

/-- A field without a common bit has the value that it had. -/
theorem collect_replace_of_disjoint (hs : s.Proper) (ht : t.Proper)
    (hdisjoint : ∀ b, s.mask.contains b → ¬ t.mask.contains b) (register dense : Nat) :
    t.collect (s.replace register dense) = t.collect register := by
  apply eq_of_testBit_iff
  intro k
  rw [testBit_collect, testBit_collect]
  refine and_congr_right fun hk => ?_
  have hinside : t.mask.contains (t.place k) := (contains_mask ht _).2 ⟨k, hk, rfl⟩
  rw [testBit_replace_of_not_contains hs fun hb => hdisjoint _ hb hinside]

end RegisterMap.BitSpec
