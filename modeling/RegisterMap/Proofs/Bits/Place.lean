import RegisterMap.Bits.Codec
import RegisterMap.Proofs.Outcome

/-!
# Places — where each bit of a dense value stands

Bit `k` of the dense value of a field has one place in the register: `k` above the lowest bit of a
range, and the `k`-th position from the end of a list. This module counts the places, bounds them,
and shows that no two bits share one. It also finds them in every text that is accepted.

## § What is here

* `Proper` — a specification that a text can have;
* `place`, `size` — the place of a bit, the number of bits;
* `place_injective`, `size_le` — different bits have different places, so there are no more bits
  than positions from the lowest to the highest;
* `contains_mask` — the mask is the set of all places;
* `width_of_size_lt`, `maxValue_eq_ok` — the width, and the greatest value of so many bits;
* `proper_of_parse` — accepted texts have proper specifications.
-/

namespace RegisterMap.BitSpec

open Outcome

/-! ## § Places -/

/-- **Proper** — a range from high to low, or at least two different positions. -/
def Proper : BitSpec → Prop
  | range hi lo => lo ≤ hi
  | list ps => 2 ≤ ps.length ∧ ps.Nodup

/-- **size** — the number of bits. -/
def size : BitSpec → Nat
  | range hi lo => hi - lo + 1
  | list ps => ps.length

/-- **place** — the position of bit `k` of the dense value. The last one of a list has bit 0. -/
def place : BitSpec → Nat → Nat
  | range _ lo, k => lo + k
  | list ps, k => ps.getD (ps.length - 1 - k) 0

/-- The first position of a list stands for the bit above those of all others. -/
theorem place_cons_length (p : Nat) (ps : List Nat) : (list (p :: ps)).place ps.length = p := by
  simp [place]

theorem place_cons_of_lt {p k : Nat} {ps : List Nat} (hk : k < ps.length) :
    (list (p :: ps)).place k = (list ps).place k := by
  have hindex : (p :: ps).length - 1 - k = (ps.length - 1 - k) + 1 := by
    rw [List.length_cons]
    omega
  rw [place, place, hindex, List.getD_cons_succ]

/-- The places of a list are its positions. -/
theorem mem_iff_exists_place {ps : List Nat} {b : Nat} :
    b ∈ ps ↔ ∃ k, k < ps.length ∧ (list ps).place k = b := by
  induction ps with
  | nil => simp
  | cons p ps ih =>
    rw [List.mem_cons, ih]
    constructor
    · rintro (rfl | ⟨k, hk, hplace⟩)
      · exact ⟨ps.length, by simp, place_cons_length _ _⟩
      · exact ⟨k, Nat.lt_succ_of_lt hk, by rw [place_cons_of_lt hk, hplace]⟩
    · rintro ⟨k, hk, hplace⟩
      rcases Nat.lt_succ_iff_lt_or_eq.1 hk with hlt | rfl
      · exact .inr ⟨k, hlt, by rw [← hplace, place_cons_of_lt hlt]⟩
      · exact .inl (by rw [← hplace, place_cons_length])

/-- The mask is the set of all places. -/
theorem contains_mask {s : BitSpec} (hs : s.Proper) (b : Nat) :
    s.mask.contains b ↔ ∃ k, k < s.size ∧ s.place k = b := by
  cases s with
  | range hi lo =>
    rw [mask, BitMask.contains_ofRange, decide_eq_true_eq]
    simp only [Proper, size, place] at hs ⊢
    constructor
    · intro h
      exact ⟨b - lo, by omega, by omega⟩
    · rintro ⟨k, hk, rfl⟩
      omega
  | list ps =>
    rw [mask, BitMask.contains_ofBits, decide_eq_true_eq]
    exact mem_iff_exists_place

/-! ## § Bounds -/

theorem lo_list_le {ps : List Nat} {b : Nat} (hb : b ∈ ps) : (list ps).lo ≤ b := by
  cases hmin : ps.min? with
  | none => simp [List.min?_eq_none_iff.1 hmin] at hb
  | some m =>
    rw [lo, hmin]
    exact (List.min?_eq_some_iff.1 hmin).2 b hb

theorem le_hi_list {ps : List Nat} {b : Nat} (hb : b ∈ ps) : b ≤ (list ps).hi := by
  cases hmax : ps.max? with
  | none => simp [List.max?_eq_none_iff.1 hmax] at hb
  | some m =>
    rw [hi, hmax]
    exact (List.max?_eq_some_iff.1 hmax).2 b hb

theorem lo_le_place {s : BitSpec} {k : Nat} (hk : k < s.size) : s.lo ≤ s.place k := by
  cases s with
  | range hi lo => exact Nat.le_add_right lo k
  | list ps => exact lo_list_le (mem_iff_exists_place.2 ⟨k, hk, rfl⟩)

theorem place_le_hi {s : BitSpec} (hs : s.Proper) {k : Nat} (hk : k < s.size) :
    s.place k ≤ s.hi := by
  cases s with
  | range hi lo =>
    simp only [Proper, size, place, BitSpec.hi] at hs hk ⊢
    omega
  | list ps => exact le_hi_list (mem_iff_exists_place.2 ⟨k, hk, rfl⟩)

/-- Different bits have different places. -/
theorem place_injective {s : BitSpec} (hs : s.Proper) {k l : Nat} (hk : k < s.size)
    (hl : l < s.size) (h : s.place k = s.place l) : k = l := by
  cases s with
  | range hi lo => exact Nat.add_left_cancel h
  | list ps =>
    simp only [size, place] at hk hl h
    have hk' : ps.length - 1 - k < ps.length := by omega
    have hl' : ps.length - 1 - l < ps.length := by omega
    simp only [List.getD_eq_getElem?_getD, List.getElem?_eq_getElem hk',
      List.getElem?_eq_getElem hl', Option.getD_some] at h
    have := (List.getElem_inj hs.2).1 h
    omega

/-- A field has no more bits than there are positions from its lowest to its highest one. -/
theorem size_le {s : BitSpec} (hs : s.Proper) : s.size ≤ s.hi - s.lo + 1 := by
  cases s with
  | range hi lo => exact Nat.le_refl _
  | list ps =>
    -- Different positions between two bounds are no more than there are between them.
    have hsub : ps ⊆ List.range' (list ps).lo ((list ps).hi - (list ps).lo + 1) := by
      intro b hb
      rw [List.mem_range'_1]
      have hlow := lo_list_le hb
      have hhigh := le_hi_list hb
      omega
    have hlen := hs.2.length_le_of_subset hsub
    rwa [List.length_range'] at hlen

/-- The lowest position is the place of a bit. -/
theorem exists_place_eq_lo {s : BitSpec} (hs : s.Proper) :
    ∃ k, k < s.size ∧ s.place k = s.lo := by
  cases s with
  | range hi lo => exact ⟨0, Nat.succ_pos _, rfl⟩
  | list ps =>
    apply mem_iff_exists_place.1
    cases hmin : ps.min? with
    | none =>
      have hlen := hs.1
      simp [List.min?_eq_none_iff.1 hmin] at hlen
    | some m =>
      rw [lo, hmin]
      exact (List.min?_eq_some_iff.1 hmin).1

/-! ## § Width -/

/-- The width is the number of bits, when that is a number of 32 bits. -/
theorem width_of_size_lt {s : BitSpec} (hs : s.Proper) (h : s.size < capacity 32) :
    s.width = .ok s.size := by
  cases s with
  | range hi lo =>
    have hle : lo ≤ hi := hs
    exact bind_eq_ok.2 ⟨hi - lo, checkedSub_eq_ok.2 ⟨rfl, hle⟩, checkedAdd_eq_ok.2 ⟨rfl, h⟩⟩
  | list ps => rfl

/-- A width that can be counted is the number of bits. -/
theorem eq_size_of_width {s : BitSpec} {w : Nat} (h : s.width = .ok w) : w = s.size := by
  cases s with
  | range hi lo =>
    obtain ⟨n, hn, hw⟩ := bind_eq_ok.1 h
    obtain ⟨rfl, -⟩ := checkedSub_eq_ok.1 hn
    exact (checkedAdd_eq_ok.1 hw).1
  | list ps => exact (Except.ok.inj h).symm

/-- The greatest value has ones in as many places as the width says. -/
theorem maxValue_eq_ok {s : BitSpec} {m : BitMask} :
    s.maxValue = .ok m ↔ ∃ w, s.width = .ok w ∧ .ones w = m := by
  rw [maxValue]
  cases s.width with
  | error e => simp [Functor.map, Except.map]
  | ok w => simp [Functor.map, Except.map]

/-! ## § Accepted texts -/

theorem nodup_of_repeated?_eq_none {ps before : List Nat} (h : repeated? before ps = none) :
    ps.Nodup ∧ ∀ p ∈ ps, p ∉ before := by
  induction ps generalizing before with
  | nil => simp
  | cons p ps ih =>
    simp only [repeated?] at h
    split at h
    · cases h
    · rename_i hnew
      obtain ⟨hnodup, hfresh⟩ := ih h
      have hp : p ∉ ps := fun hmem => hfresh p hmem List.mem_cons_self
      refine ⟨List.nodup_cons.2 ⟨hp, hnodup⟩, ?_⟩
      intro q hq
      rcases List.mem_cons.1 hq with rfl | hq
      · simpa using hnew
      · exact fun hbefore => hfresh q hq (List.mem_cons_of_mem _ hbefore)

theorem proper_of_ofPositions {text : List Char} {ps : List Nat} {s : BitSpec}
    (hlen : 2 ≤ ps.length) (h : ofPositions text ps = .ok s) : s.Proper := by
  unfold ofPositions at h
  split at h
  · cases h
  · simp at hlen
  · rename_i hnone
    cases h
    exact ⟨hlen, (nodup_of_repeated?_eq_none hnone).1⟩

theorem proper_of_ofRangeParts {text : List Char} {parts : List (List Char)} {s : BitSpec}
    (h : ofRangeParts text parts = .ok s) : s.Proper := by
  unfold ofRangeParts at h
  split at h
  · obtain ⟨p, -, hs⟩ := bind_eq_ok.1 h
    cases hs
    exact Nat.le_refl p
  · obtain ⟨hi, -, hrest⟩ := bind_eq_ok.1 h
    obtain ⟨lo, -, hs⟩ := bind_eq_ok.1 hrest
    split at hs
    · cases hs
    · rename_i hle
      cases hs
      exact Nat.le_of_not_lt hle
  · cases h

theorem proper_of_ofChars {text : List Char} {s : BitSpec} (h : ofChars text = .ok s) :
    s.Proper := by
  unfold ofChars at h
  split at h
  · rename_i hcomma
    -- A comma parts a text into two positions at least.
    obtain ⟨ps, hps, hs⟩ := bind_eq_ok.1 h
    have hlen := (mapM_eq_ok.1 hps).length_eq
    have htwo := Text.two_le_length_splitOn hcomma
    exact proper_of_ofPositions (by omega) hs
  · exact proper_of_ofRangeParts h

/-- Every accepted text has a proper specification. -/
theorem proper_of_parse {text : String} {s : BitSpec} (h : parse text = .ok s) : s.Proper :=
  proper_of_ofChars h

end RegisterMap.BitSpec
