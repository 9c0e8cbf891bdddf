import RegisterMap.Header.Field
import RegisterMap.Proofs.Header.Value

/-!
# Setters — the expression that puts a value at the bits of a field

A header puts the value of a range to its place with one shift, and the value of a list bit by bit;
a mask then drops what is too wide. Both kinds give the same: the bits of the value at the places of
the field, for values of any size.

## § What is here

* `ranked_expr`, `mem_tokens_expr` — how a setter is read, and the names in it;
* `testBit_unionOf_moved` — the bits of a list, moved one by one;
* `value_expr` — a setter spreads its value over the bits of the field.
-/

namespace RegisterMap.Header.Setter

variable {bits : BitSpec} {field : String} {v : Expr}

/-! ## § Reading -/

section Reading

variable {params : List String}

theorem ranked_bitTerm (hv : v.IsName ∨ v.Ranked params 0) (position place rank : Nat) :
    (bitTerm v position place).Ranked params rank := by
  simp [bitTerm, Expr.Ranked, Expr.IsName, Operator.rank]
  exact hv

theorem rankedAll_bitTerms (hv : v.IsName ∨ v.Ranked params 0) (ps : List Nat) :
    Expr.RankedAll params (bitTerms v ps) := by
  induction ps with
  | nil => trivial
  | cons p ps ih => exact ⟨ranked_bitTerm hv p ps.length _, ih⟩

/-- A setter can stand anywhere. -/
theorem ranked_expr (hs : bits.Proper) (hv : v.IsName ∨ v.Ranked params 0)
    (hoffset : offsetName field ∉ params) (hmask : maskName field ∉ params) (rank : Nat) :
    (expr bits field v).Ranked params rank := by
  cases bits with
  | range hi lo =>
    simp [expr, Expr.Ranked, Expr.IsName, Operator.rank]
    exact ⟨⟨hv, hoffset⟩, hmask⟩
  | list ps =>
    have hne : bitTerms v ps ≠ [] := by
      cases ps with
      | nil => exact absurd hs.1 (by simp)
      | cons p ps => exact List.cons_ne_nil _ _
    simp [expr, Expr.Ranked, Expr.IsName, Operator.rank]
    exact ⟨⟨hne, rankedAll_bitTerms hv ps⟩, hmask⟩

end Reading

/-! ## § Names -/

theorem mem_tokensAll {t : Token} (ht : t ≠ .operator .or) : ∀ {es : List Expr},
    t ∈ Expr.tokensAll es → ∃ e ∈ es, t ∈ e.tokens
  | [], h => by simp [Expr.tokensAll] at h
  | [e], h => ⟨e, List.mem_cons_self, h⟩
  | e :: f :: es, h => by
    rw [Expr.tokensAll, List.mem_append, List.mem_cons] at h
    rcases h with h | rfl | h
    · exact ⟨e, List.mem_cons_self, h⟩
    · exact absurd rfl ht
    · obtain ⟨g, hg, hmem⟩ := mem_tokensAll ht h
      exact ⟨g, List.mem_cons_of_mem _ hg, hmem⟩

theorem mem_tokens_bitTerms {text : String} {ps : List Nat} {e : Expr} (he : e ∈ bitTerms v ps)
    (h : .name text ∈ e.tokens) : .name text ∈ v.tokens := by
  induction ps with
  | nil => simp [bitTerms] at he
  | cons p ps ih =>
    rw [bitTerms] at he
    rcases List.mem_cons.1 he with rfl | he
    · simpa [bitTerm, Expr.tokens] using h
    · exact ih he

/-- The names in a setter are those of the value and the two of the field. -/
theorem mem_tokens_expr {text : String} (h : .name text ∈ (expr bits field v).tokens) :
    .name text ∈ v.tokens ∨ text = offsetName field ∨ text = maskName field := by
  cases bits with
  | range hi lo =>
    simpa [expr, Expr.tokens] using h
  | list ps =>
    have hcases : .name text ∈ Expr.tokensAll (bitTerms v ps) ∨ text = maskName field := by
      simpa [expr, Expr.tokens] using h
    rcases hcases with hmem | hmask
    · obtain ⟨e, he, hname⟩ := mem_tokensAll (by simp) hmem
      exact .inl (mem_tokens_bitTerms he hname)
    · exact .inr (.inr hmask)

/-! ## § Values -/

/-- **moved** — the bits of a dense value, each at its position of a list. -/
def moved (dense : Nat) : List Nat → List Nat
  | [] => []
  | p :: ps => (((dense >>> ps.length) &&& 1) <<< p) :: moved dense ps

/-- Moved one by one, the bits of a list come to their places. -/
theorem testBit_unionOf_moved (dense : Nat) (ps : List Nat) (b : Nat) :
    (unionOf (moved dense ps)).testBit b
      ↔ ∃ k, k < ps.length ∧ (BitSpec.list ps).place k = b ∧ dense.testBit k := by
  rw [testBit_unionOf]
  induction ps with
  | nil => simp [moved]
  | cons p ps ih =>
    rw [moved, List.exists_mem_cons_iff, ih, BitSpec.testBit_moved]
    constructor
    · rintro (⟨hplace, hbit⟩ | ⟨k, hk, hplace, hbit⟩)
      -- The first position of a list takes the highest bit that is left.
      · exact ⟨ps.length, by simp, by rw [BitSpec.place_cons_length, hplace], hbit⟩
      · exact ⟨k, Nat.lt_succ_of_lt hk, by rw [BitSpec.place_cons_of_lt hk, hplace], hbit⟩
    · rintro ⟨k, hk, hplace, hbit⟩
      rcases Nat.lt_succ_iff_lt_or_eq.1 hk with hlt | rfl
      · exact .inr ⟨k, hlt, by rw [← hplace, BitSpec.place_cons_of_lt hlt], hbit⟩
      · exact .inl ⟨by rw [← hplace, BitSpec.place_cons_length], hbit⟩

section Values

variable {numbers : String → Option Nat} {n : Nat}

theorem values_bitTerms (hv : v.value numbers = some n) (ps : List Nat) :
    Expr.values numbers (bitTerms v ps) = some (moved n ps) := by
  induction ps with
  | nil => rfl
  | cons p ps ih =>
    have hterm : (bitTerm v p ps.length).value numbers
        = some (((n >>> ps.length) &&& 1) <<< p) := by
      simp only [bitTerm, Expr.value, hv, Operator.applyTo_some, Operator.apply]
    rw [bitTerms, Expr.values, hterm, ih]
    rfl

/-- A setter spreads its value over the bits of the field and drops all other bits. -/
theorem value_expr (hs : bits.Proper) (hoffset : numbers (offsetName field) = some bits.lo)
    (hmask : numbers (maskName field) = some bits.mask.toNat) (hv : v.value numbers = some n) :
    (expr bits field v).value numbers = some (bits.spread n) := by
  cases bits with
  | range hi lo =>
    have hlo : numbers (offsetName field) = some lo := hoffset
    rw [BitSpec.spread_range hs]
    simp only [expr, Expr.value, hv, hlo, hmask, Operator.applyTo_some, Operator.apply]
  | list ps =>
    have hterms : unionOf (moved n ps) = (BitSpec.list ps).spread n := by
      apply eq_of_testBit_iff
      intro b
      rw [testBit_unionOf_moved, BitSpec.testBit_spread]
      rfl
    -- All places are inside the mask, so it cuts nothing off.
    have hinside : (BitSpec.list ps).spread n &&& (BitSpec.list ps).mask.toNat
        = (BitSpec.list ps).spread n := by
      apply eq_of_testBit_iff
      intro b
      rw [Nat.testBit_and, Bool.and_eq_true, ← BitMask.contains_eq_testBit]
      constructor
      · exact fun h => h.1
      · exact fun h => ⟨h, BitSpec.contains_of_testBit_spread hs h⟩
    simp only [expr, Expr.value, values_bitTerms hv, hmask, hterms, Option.map_some,
      Operator.applyTo_some, Operator.apply, hinside]

end Values

end RegisterMap.Header.Setter
