import RegisterMap.Proofs.Bits.Codec

/-!
# Limits of the codec — which fields a register value can carry

A shift of a range is as long as it has to be. The bits of a list are moved one by one, and moving
one of them by as many places as a value has bits is a fault. So a list has limits: encoding fails
when it has more bits than a value, decoding when its positions are too far apart. Both fail for
every value, the same way, and otherwise neither fails for any.

## § What is here

* `CanEncode`, `CanDecode` — the lists that can be moved, and every range;
* `Encodes`, `Decodes` — what a register value and a dense value have of each other;
* `scatterBits_eq_error`, `gatherBits_eq_error` — beyond the limits, moving bits fails;
* `encode_within`, `encode_beyond`, `decode_within`, `decode_beyond` — both operations on the two
  sides of their limits.
-/

namespace RegisterMap.BitSpec

open Outcome

/-! ## § The limits -/

/-- **CanEncode** — a list has no more bits than a register value. -/
def CanEncode (s : BitSpec) : Prop := s.isScattered = true → s.size ≤ valueBits

/-- **CanDecode** — the positions of a list are no further apart than the bits of a register
value. -/
def CanDecode (s : BitSpec) : Prop := s.isScattered = true → s.hi - s.lo < valueBits

theorem canEncode_list {ps : List Nat} : (list ps).CanEncode ↔ ps.length ≤ valueBits :=
  ⟨fun h => h rfl, fun h _ => h⟩

theorem canDecode_list {ps : List Nat} :
    (list ps).CanDecode ↔ (list ps).hi - (list ps).lo < valueBits :=
  ⟨fun h => h rfl, fun h _ => h⟩

theorem canEncode_range (hi lo : Nat) : (range hi lo).CanEncode :=
  fun h => absurd h Bool.false_ne_true

theorem canDecode_range (hi lo : Nat) : (range hi lo).CanDecode :=
  fun h => absurd h Bool.false_ne_true

/-- What can be decoded can be encoded: different positions that are near are few. -/
theorem CanDecode.canEncode {s : BitSpec} (hs : s.Proper) (h : s.CanDecode) : s.CanEncode := by
  intro hlist
  have hsize := size_le hs
  have hspan := h hlist
  omega

/-- A range in a register has a width that can be counted. -/
theorem CanEncode.scatterable {s : BitSpec} (hhi : s.hi + 1 < capacity 32) (h : s.CanEncode) :
    s.Scatterable := by
  cases s with
  | range hi lo => exact Nat.lt_of_le_of_lt (Nat.succ_le_succ (Nat.sub_le hi lo)) hhi
  | list ps => exact canEncode_list.1 h

theorem CanDecode.movable {s : BitSpec} (hs : s.Proper) (hhi : s.hi + 1 < capacity 32)
    (h : s.CanDecode) : s.Movable := by
  cases s with
  | range hi lo => exact Nat.lt_of_le_of_lt (Nat.succ_le_succ (Nat.sub_le hi lo)) hhi
  | list ps => exact movable_of_span hs (canDecode_list.1 h)

/-! ## § Beyond the limits -/

/-- Of a list with more bits than a value, the first one is moved too far. -/
theorem scatterBits_eq_error (dense lo : Nat) {ps : List Nat} (h : valueBits < ps.length) :
    scatterBits dense lo ps = .error .rightShift := by
  cases ps with
  | nil => simp at h
  | cons p ps =>
    have hfar : valueBits ≤ ps.length := Nat.le_of_lt_succ h
    exact bind_eq_error.2 (.inl (checkedShiftRight_eq_error.2 ⟨rfl, hfar⟩))

/-- Gathering stops at the first position that is too far from the lowest one. -/
theorem gatherBits_eq_error (scattered lo : Nat) {ps : List Nat}
    (h : ∃ p ∈ ps, valueBits ≤ p - lo) : gatherBits scattered lo ps = .error .rightShift := by
  induction ps with
  | nil => simp at h
  | cons p ps ih =>
    by_cases hfar : valueBits ≤ p - lo
    · exact bind_eq_error.2 (.inl (checkedShiftRight_eq_error.2 ⟨rfl, hfar⟩))
    · -- The head is near, so one of the others is not.
      have hrest : ∃ q ∈ ps, valueBits ≤ q - lo := by
        obtain ⟨q, hq, hfar'⟩ := h
        rcases List.mem_cons.1 hq with rfl | hq
        · exact absurd hfar' hfar
        · exact ⟨q, hq, hfar'⟩
      have hshift : checkedShiftRight valueBits scattered (p - lo) = .ok (scattered >>> (p - lo)) :=
        checkedShiftRight_eq_ok.2 ⟨rfl, Nat.lt_of_not_le hfar⟩
      exact bind_eq_error.2 (.inr ⟨_, hshift, bind_eq_error.2 (.inl (ih hrest))⟩)

/-- The highest position of a list is one of its positions. -/
theorem hi_mem_list {ps : List Nat} (h : ps ≠ []) : (list ps).hi ∈ ps := by
  cases hmax : ps.max? with
  | none => exact absurd (List.max?_eq_none_iff.1 hmax) h
  | some m =>
    rw [hi, hmax]
    exact (List.max?_eq_some_iff.1 hmax).1

/-! ## § Both sides -/

/-- **Encodes** — a register value has the bits of a dense value at those of their places that it
has, and no others. -/
def Encodes (s : BitSpec) (dense register : Nat) : Prop :=
  ∀ b, register.testBit b = true ↔
    b < valueBits ∧ ∃ k, k < min s.size valueBits ∧ s.place k = b ∧ dense.testBit k = true

/-- **Decodes** — a dense value has the bits of a register value from those of their places that it
has, and no others. -/
def Decodes (s : BitSpec) (register dense : Nat) : Prop :=
  ∀ k, dense.testBit k = true ↔
    k < min s.size valueBits ∧ s.place k < valueBits ∧ register.testBit (s.place k) = true

section

variable {s : BitSpec} (hs : s.Proper)
include hs

/-- Encoding puts the bits of a value to those of their places that a register value has. -/
theorem encode_within (hhi : s.hi + 1 < capacity 32) (h : s.CanEncode) (dense : Nat) :
    ∃ e, s.encode dense = .ok e ∧ s.Encodes dense e := by
  obtain ⟨e, he, hbits⟩ := encode_places hs (h.scatterable hhi) dense
  refine ⟨e, he, ?_⟩
  intro b
  rw [hbits]
  refine and_congr_right fun hb => exists_congr fun k => and_congr_left fun ⟨hplace, _⟩ => ?_
  -- A bit beyond the value would have its place beyond it too.
  rw [Nat.lt_min]
  refine ⟨fun hk => ⟨hk, ?_⟩, And.left⟩
  cases s with
  | range hi lo =>
    have hplace : lo + k = b := hplace
    omega
  | list ps => exact Nat.lt_of_lt_of_le hk (canEncode_list.1 h)

theorem encode_beyond (h : ¬ s.CanEncode) (dense : Nat) : s.encode dense = .error .rightShift := by
  cases s with
  | range hi lo => exact absurd (canEncode_range hi lo) h
  | list ps =>
    have hlong := Nat.lt_of_not_le (mt canEncode_list.2 h)
    exact bind_eq_error.2 (.inl (scatterBits_eq_error dense (list ps).lo hlong))

/-- Decoding takes the bits of a value from those of their places that a register value has. -/
theorem decode_within (hhi : s.hi + 1 < capacity 32) (h : s.CanDecode) (register : Nat) :
    ∃ d, s.decode register = .ok d ∧ s.Decodes register d := by
  obtain ⟨d, hd, hbits⟩ := decode_spec hs (h.movable hs hhi) register
  refine ⟨d, hd, ?_⟩
  intro k
  rw [hbits, Nat.lt_min, and_left_comm, and_assoc]

theorem decode_beyond (h : ¬ s.CanDecode) (register : Nat) :
    s.decode register = .error .rightShift := by
  cases s with
  | range hi lo => exact absurd (canDecode_range hi lo) h
  | list ps =>
    have hfar := Nat.le_of_not_lt (mt canDecode_list.2 h)
    have hne : ps ≠ [] := by
      intro hnil
      have hlen := hs.1
      simp [hnil] at hlen
    exact gatherBits_eq_error _ _ ⟨_, hi_mem_list hne, hfar⟩

end

end RegisterMap.BitSpec
