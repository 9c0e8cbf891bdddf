import RegisterMap.Proofs.Bits.Place

/-!
# The codec, bit by bit

Every operation of the codec moves single bits between their numbers in the dense value and their
places. Said for each bit, what the four operations do needs no shift and no mask, and the laws of
the codec are read off from there: what is encoded is decoded again, and what is decoded is encoded
again.

## § What is here

* `Movable`, `Scatterable` — no bit of the field is moved too far, which is when all operations
  succeed, and when those do that start from a dense value;
* `scatter_places`, `gather_spec`, `encode_places`, `decode_spec` — each operation, bit by bit;
* `codec_bijective` — the operations are inverse to each other on the bits of the field.
-/

namespace RegisterMap.BitSpec

open Outcome

/-! ## § When bits can be moved -/

/-- **Movable** — the operations of the codec shift no value by its whole size. Only the bits of a
list are moved one by one; a range needs a width that can be counted. -/
def Movable (s : BitSpec) : Prop :=
  match s with
  | range hi lo => hi - lo + 1 < capacity 32
  | list ps => ps.length ≤ valueBits ∧ ∀ p ∈ ps, p - s.lo < valueBits

/-- **Scatterable** — no bit of the dense value lies beyond the value, which is all that scattering
asks for. -/
def Scatterable (s : BitSpec) : Prop :=
  match s with
  | range hi lo => hi - lo + 1 < capacity 32
  | list ps => ps.length ≤ valueBits

theorem Movable.scatterable {s : BitSpec} (hm : s.Movable) : s.Scatterable := by
  cases s with
  | range hi lo => exact hm
  | list ps => exact hm.1

/-- A field that spans at most 128 positions can be moved. -/
theorem movable_of_span {s : BitSpec} (hs : s.Proper) (h : s.hi - s.lo < valueBits) :
    s.Movable := by
  cases s with
  | range hi lo =>
    have hcap : valueBits + 1 < capacity 32 := by decide
    simp only [BitSpec.hi, BitSpec.lo] at h
    show hi - lo + 1 < capacity 32
    omega
  | list ps =>
    have hsize := size_le hs
    simp only [size] at hsize
    refine ⟨by omega, ?_⟩
    intro p hp
    have hhigh := le_hi_list hp
    omega

theorem width_eq_ok {s : BitSpec} (hs : s.Proper) (hm : s.Movable) : s.width = .ok s.size := by
  apply width_of_size_lt hs
  cases s with
  | range hi lo => exact hm
  | list ps =>
    have hcap : valueBits < capacity 32 := by decide
    exact Nat.lt_of_le_of_lt hm.1 hcap

/-! ## § Lists, bit by bit -/

/-- The bits of a dense value go to the places of a list, relative to `lo`. -/
theorem scatterBits_spec (dense lo : Nat) {ps : List Nat} (hlen : ps.length ≤ valueBits) :
    ∃ e, scatterBits dense lo ps = .ok e ∧
      ∀ b, e.testBit b ↔
        b < valueBits ∧ ∃ k, k < ps.length ∧ (list ps).place k - lo = b ∧ dense.testBit k := by
  induction ps with
  | nil => exact ⟨0, rfl, by simp⟩
  | cons p ps ih =>
    rw [List.length_cons] at hlen
    -- The head has the bit above those of all other positions.
    obtain ⟨e, he, hbits⟩ := ih (by omega)
    have hshift : checkedShiftRight valueBits dense ps.length = .ok (dense >>> ps.length) :=
      checkedShiftRight_eq_ok.2 ⟨rfl, hlen⟩
    refine ⟨(if (dense >>> ps.length).testBit 0 then bit (p - lo) else 0) ||| e, ?_, ?_⟩
    · simp only [scatterBits, hshift, he]
      rfl
    · intro b
      have hhead : (if (dense >>> ps.length).testBit 0 then bit (p - lo) else 0).testBit b
          ↔ b < valueBits ∧ p - lo = b ∧ dense.testBit ps.length := by
        rw [Nat.testBit_shiftRight, Nat.add_zero]
        cases dense.testBit ps.length with
        | false => simp
        | true =>
          simp only [if_true, testBit_bit, Bool.and_eq_true, decide_eq_true_eq, and_true]
          omega
      rw [Nat.testBit_or, Bool.or_eq_true, hhead, hbits]
      constructor
      · rintro (⟨hb, hplace, hbit⟩ | ⟨hb, k, hk, hplace, hbit⟩)
        · exact ⟨hb, ps.length, by simp, by rw [place_cons_length, hplace], hbit⟩
        · exact ⟨hb, k, Nat.lt_succ_of_lt hk, by rw [place_cons_of_lt hk, hplace], hbit⟩
      · rintro ⟨hb, k, hk, hplace, hbit⟩
        rcases Nat.lt_succ_iff_lt_or_eq.1 hk with hlt | rfl
        · exact .inr ⟨hb, k, hlt, by rw [← hplace, place_cons_of_lt hlt], hbit⟩
        · exact .inl ⟨hb, by rw [← hplace, place_cons_length], hbit⟩

/-- The bits at the places of a list, relative to `lo`, become a dense value. -/
theorem gatherBits_spec (scattered lo : Nat) {ps : List Nat} (hlen : ps.length ≤ valueBits)
    (hnear : ∀ p ∈ ps, p - lo < valueBits) :
    ∃ d, gatherBits scattered lo ps = .ok d ∧
      ∀ k, d.testBit k ↔ k < ps.length ∧ scattered.testBit ((list ps).place k - lo) := by
  induction ps with
  | nil => exact ⟨0, rfl, by simp⟩
  | cons p ps ih =>
    rw [List.length_cons] at hlen
    obtain ⟨d, hd, hbits⟩ := ih (by omega) fun q hq => hnear q (List.mem_cons_of_mem _ hq)
    have hshift : checkedShiftRight valueBits scattered (p - lo) = .ok (scattered >>> (p - lo)) :=
      checkedShiftRight_eq_ok.2 ⟨rfl, hnear p List.mem_cons_self⟩
    refine ⟨(if (scattered >>> (p - lo)).testBit 0 then bit ps.length else 0) ||| d, ?_, ?_⟩
    · simp only [gatherBits, hshift, hd]
      rfl
    · intro k
      have hhead : (if (scattered >>> (p - lo)).testBit 0 then bit ps.length else 0).testBit k
          ↔ k = ps.length ∧ scattered.testBit (p - lo) := by
        rw [Nat.testBit_shiftRight, Nat.add_zero]
        cases scattered.testBit (p - lo) with
        | false => simp
        | true =>
          simp only [if_true, testBit_bit, Bool.and_eq_true, decide_eq_true_eq, and_true]
          omega
      rw [Nat.testBit_or, Bool.or_eq_true, hhead, hbits]
      constructor
      · rintro (⟨rfl, hbit⟩ | ⟨hk, hbit⟩)
        · exact ⟨by simp, by rwa [place_cons_length]⟩
        · exact ⟨Nat.lt_succ_of_lt hk, by rwa [place_cons_of_lt hk]⟩
      · rintro ⟨hk, hbit⟩
        rcases Nat.lt_succ_iff_lt_or_eq.1 hk with hlt | rfl
        · exact .inr ⟨hlt, by rwa [place_cons_of_lt hlt] at hbit⟩
        · exact .inl ⟨rfl, by rwa [place_cons_length] at hbit⟩

/-! ## § The four operations, bit by bit -/

/-- Scattering puts bit `k` of the dense value to its place, counted from the lowest one. -/
theorem scatter_places {s : BitSpec} (hs : s.Proper) (hm : s.Scatterable) (dense : Nat) :
    ∃ e, s.scatter dense = .ok e ∧
      ∀ b, e.testBit b ↔
        b < valueBits ∧ ∃ k, k < s.size ∧ s.place k = s.lo + b ∧ dense.testBit k := by
  cases s with
  | range hi lo =>
    refine ⟨dense &&& lowOnes valueBits (range hi lo).size, ?_, ?_⟩
    · exact bind_eq_ok.2 ⟨_, width_of_size_lt hs hm, rfl⟩
    · intro b
      rw [Nat.testBit_and, testBit_lowOnes, Bool.and_eq_true, decide_eq_true_eq]
      simp only [place, BitSpec.lo]
      constructor
      · rintro ⟨hbit, hb⟩
        exact ⟨by omega, b, by omega, rfl, hbit⟩
      · rintro ⟨hb, k, hk, hplace, hbit⟩
        obtain rfl : k = b := Nat.add_left_cancel hplace
        exact ⟨hbit, by omega⟩
  | list ps =>
    obtain ⟨e, he, hbits⟩ := scatterBits_spec dense (list ps).lo hm
    refine ⟨e, he, ?_⟩
    intro b
    rw [hbits]
    constructor
    · rintro ⟨hb, k, hk, hplace, hbit⟩
      have hlow : (list ps).lo ≤ (list ps).place k := lo_le_place hk
      exact ⟨hb, k, hk, by omega, hbit⟩
    · rintro ⟨hb, k, hk, hplace, hbit⟩
      exact ⟨hb, k, hk, by omega, hbit⟩

theorem scatter_spec {s : BitSpec} (hs : s.Proper) (hm : s.Movable) (dense : Nat) :
    ∃ e, s.scatter dense = .ok e ∧
      ∀ b, e.testBit b ↔
        b < valueBits ∧ ∃ k, k < s.size ∧ s.place k = s.lo + b ∧ dense.testBit k :=
  scatter_places hs hm.scatterable dense

/-- Gathering takes bit `k` from its place, counted from the lowest one. -/
theorem gather_spec {s : BitSpec} (hs : s.Proper) (hm : s.Movable) (scattered : Nat) :
    ∃ d, s.gather scattered = .ok d ∧
      ∀ k, d.testBit k ↔ k < valueBits ∧ k < s.size ∧ scattered.testBit (s.place k - s.lo) := by
  cases s with
  | range hi lo =>
    refine ⟨scattered &&& lowOnes valueBits (range hi lo).size, ?_, ?_⟩
    · exact bind_eq_ok.2 ⟨_, width_eq_ok hs hm, rfl⟩
    · intro k
      rw [Nat.testBit_and, testBit_lowOnes, Bool.and_eq_true, decide_eq_true_eq]
      simp only [place, BitSpec.lo, Nat.add_sub_cancel_left]
      constructor
      · rintro ⟨hbit, hk⟩
        exact ⟨by omega, by omega, hbit⟩
      · rintro ⟨hk, hsize, hbit⟩
        exact ⟨hbit, by omega⟩
  | list ps =>
    obtain ⟨d, hd, hbits⟩ := gatherBits_spec scattered (list ps).lo hm.1 hm.2
    refine ⟨d, hd, ?_⟩
    intro k
    rw [hbits]
    have hlen : ps.length ≤ valueBits := hm.1
    constructor
    · rintro ⟨hk, hbit⟩
      exact ⟨by omega, hk, hbit⟩
    · rintro ⟨-, hk, hbit⟩
      exact ⟨hk, hbit⟩

/-- Encoding puts bit `k` of the dense value to its place; what lies beyond the register value is
dropped. -/
theorem encode_places {s : BitSpec} (hs : s.Proper) (hm : s.Scatterable) (dense : Nat) :
    ∃ e, s.encode dense = .ok e ∧
      ∀ b, e.testBit b ↔ b < valueBits ∧ ∃ k, k < s.size ∧ s.place k = b ∧ dense.testBit k := by
  obtain ⟨scattered, hscattered, hbits⟩ := scatter_places hs hm dense
  refine ⟨_, bind_eq_ok.2 ⟨scattered, hscattered, rfl⟩, ?_⟩
  intro b
  rw [Nat.testBit_and, testBit_shiftLeft, BitMask.testBit_low128]
  simp only [Bool.and_eq_true, decide_eq_true_eq]
  rw [hbits, contains_mask hs]
  -- The mask drops nothing: a moved bit is at a place of the field.
  constructor
  · rintro ⟨⟨hb, hlow, -, k, hk, hplace, hbit⟩, -⟩
    exact ⟨hb, k, hk, by omega, hbit⟩
  · rintro ⟨hb, k, hk, hplace, hbit⟩
    have hlow : s.lo ≤ s.place k := lo_le_place hk
    exact ⟨⟨hb, by omega, by omega, k, hk, by omega, hbit⟩, hb, k, hk, hplace⟩

theorem encode_spec {s : BitSpec} (hs : s.Proper) (hm : s.Movable) (dense : Nat) :
    ∃ e, s.encode dense = .ok e ∧
      ∀ b, e.testBit b ↔ b < valueBits ∧ ∃ k, k < s.size ∧ s.place k = b ∧ dense.testBit k :=
  encode_places hs hm.scatterable dense

/-- Decoding takes bit `k` from its place, if that is a place of the register value. -/
theorem decode_spec {s : BitSpec} (hs : s.Proper) (hm : s.Movable) (register : Nat) :
    ∃ d, s.decode register = .ok d ∧
      ∀ k, d.testBit k ↔
        k < valueBits ∧ k < s.size ∧ s.place k < valueBits ∧ register.testBit (s.place k) := by
  obtain ⟨d, hd, hbits⟩ :=
    gather_spec hs hm (shiftRight valueBits (register &&& s.mask.low128) s.lo)
  refine ⟨d, hd, ?_⟩
  intro k
  rw [hbits, testBit_shiftRight]
  simp only [Bool.and_eq_true, decide_eq_true_eq]
  constructor
  · rintro ⟨hk, hsize, hlow, hbit⟩
    have hle : s.lo ≤ s.place k := lo_le_place hsize
    rw [Nat.add_sub_of_le hle, Nat.testBit_and, BitMask.testBit_low128] at hbit
    simp only [Bool.and_eq_true, decide_eq_true_eq] at hbit
    exact ⟨hk, hsize, hbit.2.1, hbit.1⟩
  · rintro ⟨hk, hsize, hplace, hbit⟩
    have hle : s.lo ≤ s.place k := lo_le_place hsize
    refine ⟨hk, hsize, by omega, ?_⟩
    rw [Nat.add_sub_of_le hle, Nat.testBit_and, BitMask.testBit_low128]
    simp only [Bool.and_eq_true, decide_eq_true_eq]
    exact ⟨hbit, hplace, (contains_mask hs _).2 ⟨k, hsize, rfl⟩⟩

/-! ## § Round trips -/

/-- A field inside the register value has no more bits than the value. -/
theorem size_le_valueBits {s : BitSpec} (hs : s.Proper) (hspan : s.hi - s.lo < valueBits) :
    s.size ≤ valueBits := by
  have hsize := size_le hs
  omega

/-- What is scattered is gathered again, up to the width of the field. -/
theorem gather_of_scatter {s : BitSpec} (hs : s.Proper) (hspan : s.hi - s.lo < valueBits)
    {v e : Nat} (he : s.scatter v = .ok e) : s.gather e = .ok (v % capacity s.size) := by
  have hm := movable_of_span hs hspan
  have hsize := size_le_valueBits hs hspan
  obtain ⟨e', he', hplaced⟩ := scatter_spec hs hm v
  obtain rfl : e = e' := Except.ok.inj (he.symm.trans he')
  obtain ⟨d, hd, htaken⟩ := gather_spec hs hm e
  rw [hd]
  apply congrArg Except.ok
  apply Nat.eq_of_testBit_eq
  intro k
  rw [Bool.eq_iff_iff, htaken, testBit_mod_capacity, hplaced]
  simp only [Bool.and_eq_true, decide_eq_true_eq]
  constructor
  -- Two bits at the same place are the same bit.
  · rintro ⟨-, hk, -, l, hl, hplace, hbit⟩
    have hle : s.lo ≤ s.place k := lo_le_place hk
    obtain rfl : l = k := place_injective hs hl hk (by omega)
    exact ⟨hk, hbit⟩
  · rintro ⟨hk, hbit⟩
    have hle : s.lo ≤ s.place k := lo_le_place hk
    have hhigh : s.place k ≤ s.hi := place_le_hi hs hk
    exact ⟨by omega, hk, by omega, k, hk, by omega, hbit⟩

/-- What is gathered is scattered again, up to the mask of the field. -/
theorem scatter_of_gather {s : BitSpec} (hs : s.Proper) (hspan : s.hi - s.lo < valueBits)
    {r d : Nat} (hd : s.gather r = .ok d) : s.scatter d = .ok (r &&& (s.mask.toNat >>> s.lo)) := by
  have hm := movable_of_span hs hspan
  have hsize := size_le_valueBits hs hspan
  obtain ⟨d', hd', htaken⟩ := gather_spec hs hm r
  obtain rfl : d = d' := Except.ok.inj (hd.symm.trans hd')
  obtain ⟨e, he, hplaced⟩ := scatter_spec hs hm d
  rw [he]
  apply congrArg Except.ok
  apply Nat.eq_of_testBit_eq
  intro b
  rw [Bool.eq_iff_iff, hplaced, Nat.testBit_and, Nat.testBit_shiftRight,
    ← BitMask.contains_eq_testBit, Bool.and_eq_true, contains_mask hs]
  constructor
  · rintro ⟨-, k, hk, hplace, hbit⟩
    obtain ⟨-, -, hsource⟩ := (htaken k).1 hbit
    rw [hplace, Nat.add_sub_cancel_left] at hsource
    exact ⟨hsource, k, hk, hplace⟩
  · rintro ⟨hsource, k, hk, hplace⟩
    have hhigh : s.place k ≤ s.hi := place_le_hi hs hk
    refine ⟨by omega, k, hk, hplace, (htaken k).2 ⟨by omega, hk, ?_⟩⟩
    rwa [hplace, Nat.add_sub_cancel_left]

/-- What is encoded is decoded again, up to the width of the field. -/
theorem decode_of_encode {s : BitSpec} (hs : s.Proper) (hhi : s.hi < valueBits)
    {v e : Nat} (he : s.encode v = .ok e) : s.decode e = .ok (v % capacity s.size) := by
  have hspan : s.hi - s.lo < valueBits := by omega
  have hm := movable_of_span hs hspan
  have hsize := size_le_valueBits hs hspan
  obtain ⟨e', he', hplaced⟩ := encode_spec hs hm v
  obtain rfl : e = e' := Except.ok.inj (he.symm.trans he')
  obtain ⟨d, hd, htaken⟩ := decode_spec hs hm e
  rw [hd]
  apply congrArg Except.ok
  apply Nat.eq_of_testBit_eq
  intro k
  rw [Bool.eq_iff_iff, htaken, testBit_mod_capacity, hplaced]
  simp only [Bool.and_eq_true, decide_eq_true_eq]
  constructor
  · rintro ⟨-, hk, -, -, l, hl, hplace, hbit⟩
    obtain rfl : l = k := place_injective hs hl hk hplace
    exact ⟨hk, hbit⟩
  · rintro ⟨hk, hbit⟩
    have hhigh : s.place k ≤ s.hi := place_le_hi hs hk
    exact ⟨by omega, hk, by omega, by omega, k, hk, rfl, hbit⟩

/-- What is decoded is encoded again, up to the mask of the field. -/
theorem encode_of_decode {s : BitSpec} (hs : s.Proper) (hhi : s.hi < valueBits)
    {r d : Nat} (hd : s.decode r = .ok d) : s.encode d = .ok (r &&& s.mask.toNat) := by
  have hspan : s.hi - s.lo < valueBits := by omega
  have hm := movable_of_span hs hspan
  have hsize := size_le_valueBits hs hspan
  obtain ⟨d', hd', htaken⟩ := decode_spec hs hm r
  obtain rfl : d = d' := Except.ok.inj (hd.symm.trans hd')
  obtain ⟨e, he, hplaced⟩ := encode_spec hs hm d
  rw [he]
  apply congrArg Except.ok
  apply Nat.eq_of_testBit_eq
  intro b
  rw [Bool.eq_iff_iff, hplaced, Nat.testBit_and, ← BitMask.contains_eq_testBit, Bool.and_eq_true,
    contains_mask hs]
  constructor
  · rintro ⟨-, k, hk, rfl, hbit⟩
    exact ⟨((htaken k).1 hbit).2.2.2, k, hk, rfl⟩
  · rintro ⟨hsource, k, hk, rfl⟩
    have hhigh : s.place k ≤ s.hi := place_le_hi hs hk
    exact ⟨by omega, k, hk, rfl, (htaken k).2 ⟨by omega, hk, by omega, hsource⟩⟩

/-- **The codec is a bijection on the bits of a field.** Inside the register value, encoding moves
bit `k` to its place and sets no other bit, decoding takes it from there, and each undoes the other.
Relative to the lowest position, scattering and gathering do the same wherever the field lies. -/
theorem codec_bijective {text : String} {s : BitSpec} (hparse : parse text = .ok s) :
    (s.hi ≤ 127 → s.width = .ok s.size ∧ ∀ v r : Nat, ∃ e d,
      s.encode v = .ok e ∧ s.decode r = .ok d ∧
      (∀ k, k < s.size → e.testBit (s.place k) = v.testBit k) ∧
      (∀ b, (∀ k, k < s.size → s.place k ≠ b) → e.testBit b = false) ∧
      (∀ k, k < s.size → d.testBit k = r.testBit (s.place k)) ∧
      (∀ k, s.size ≤ k → d.testBit k = false) ∧
      s.decode e = .ok (v % capacity s.size) ∧
      s.encode d = .ok (r &&& s.mask.toNat)) ∧
    (s.hi - s.lo ≤ 127 → s.width = .ok s.size ∧ ∀ v r : Nat, ∃ e d,
      s.scatter v = .ok e ∧ s.gather r = .ok d ∧
      s.gather e = .ok (v % capacity s.size) ∧
      s.scatter d = .ok (r &&& (s.mask.toNat >>> s.lo))) := by
  have hs := proper_of_parse hparse
  have hbits : valueBits = 128 := rfl
  constructor
  · intro hhi
    have hm := movable_of_span hs (by omega)
    refine ⟨width_eq_ok hs hm, ?_⟩
    intro v r
    obtain ⟨e, he, hplaced⟩ := encode_spec hs hm v
    obtain ⟨d, hd, htaken⟩ := decode_spec hs hm r
    have hplace : ∀ k, k < s.size → s.place k < valueBits := by
      intro k hk
      have hhigh : s.place k ≤ s.hi := place_le_hi hs hk
      omega
    have hsize := size_le hs
    refine ⟨e, d, he, hd, ?_, ?_, ?_, ?_, decode_of_encode hs (by omega) he,
      encode_of_decode hs (by omega) hd⟩
    · intro k hk
      rw [Bool.eq_iff_iff, hplaced]
      constructor
      · rintro ⟨-, l, hl, hlk, hbit⟩
        rwa [place_injective hs hl hk hlk] at hbit
      · intro hbit
        exact ⟨hplace k hk, k, hk, rfl, hbit⟩
    · intro b hb
      apply Bool.eq_false_iff.2
      intro hbit
      obtain ⟨-, k, hk, hkb, -⟩ := (hplaced b).1 hbit
      exact hb k hk hkb
    · intro k hk
      rw [Bool.eq_iff_iff, htaken]
      constructor
      · rintro ⟨-, -, -, hbit⟩
        exact hbit
      · intro hbit
        exact ⟨by omega, hk, hplace k hk, hbit⟩
    · intro k hk
      apply Bool.eq_false_iff.2
      intro hbit
      obtain ⟨-, hlt, -⟩ := (htaken k).1 hbit
      omega
  · intro hspan
    have hm := movable_of_span hs (by omega)
    refine ⟨width_eq_ok hs hm, ?_⟩
    intro v r
    obtain ⟨e, he, -⟩ := scatter_spec hs hm v
    obtain ⟨d, hd, -⟩ := gather_spec hs hm r
    exact ⟨e, d, he, hd, gather_of_scatter hs (by omega) he, scatter_of_gather hs (by omega) hd⟩

/-- The law holds of a list in no order, with gaps, that reaches the last bit of a value. -/
theorem codec_bijective_scattered :
    parse "9,127,2,4" = .ok (list [9, 127, 2, 4]) ∧
    ∀ v r : Nat, ∃ e d,
      (list [9, 127, 2, 4]).encode v = .ok e ∧ (list [9, 127, 2, 4]).decode r = .ok d ∧
      (list [9, 127, 2, 4]).decode e = .ok (v % 16) ∧
      (list [9, 127, 2, 4]).encode d = .ok (r &&& (list [9, 127, 2, 4]).mask.toNat) := by
  have hparse : parse "9,127,2,4" = .ok (list [9, 127, 2, 4]) := by decide
  refine ⟨hparse, ?_⟩
  intro v r
  obtain ⟨e, d, he, hd, -, -, -, -, hround, hback⟩ :=
    ((codec_bijective hparse).1 (by decide)).2 v r
  exact ⟨e, d, he, hd, hround, hback⟩

end RegisterMap.BitSpec
