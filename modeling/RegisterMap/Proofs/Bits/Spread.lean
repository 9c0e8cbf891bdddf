import RegisterMap.Proofs.Bits.Codec

/-!
# Spread values — a dense value at its places, of any size

Encoding drops what a register value of 128 bits has no place for. Longer registers have fields
beyond it, so this module says what a dense value is at its places without a bound, `spread`, and
what a value has at these places, `collect`. They are what encoding and decoding give where those
have room, and for a range each of them is one shift and one mask.

## § What is here

* `unionOf` — the bits of any of some numbers;
* `testBit_spread`, `testBit_collect` — bit `k` is at its place or comes from there, and nothing
  else is set;
* `spread_range`, `encode_eq_spread`, `collect_range`, `decode_eq_collect` — the same by shift and
  mask, and by the codec.
-/

namespace RegisterMap

/-! ## § The bits of several numbers -/

/-- **unionOf** — the bits of any of the numbers. -/
def unionOf (ns : List Nat) : Nat := ns.foldl (· ||| ·) 0

theorem testBit_foldl_or (ns : List Nat) (acc b : Nat) :
    (ns.foldl (· ||| ·) acc).testBit b ↔ acc.testBit b ∨ ∃ n ∈ ns, n.testBit b := by
  induction ns generalizing acc with
  | nil => simp
  | cons n ns ih =>
    rw [List.foldl_cons, ih, Nat.testBit_or, Bool.or_eq_true, or_assoc, List.exists_mem_cons_iff]

theorem testBit_unionOf (ns : List Nat) (b : Nat) :
    (unionOf ns).testBit b ↔ ∃ n ∈ ns, n.testBit b := by
  rw [unionOf, testBit_foldl_or]
  simp

/-- A number is zero when it has no bit, and two are the same when they have the same bits. -/
theorem eq_of_testBit_iff {m n : Nat} (h : ∀ b, m.testBit b ↔ n.testBit b) : m = n :=
  Nat.eq_of_testBit_eq fun b => Bool.eq_iff_iff.2 (h b)

namespace BitSpec

/-! ## § Spreading -/

/-- **spread** — the bits of a dense value at their places. -/
def spread (s : BitSpec) (dense : Nat) : Nat :=
  unionOf ((List.range s.size).map fun k => ((dense >>> k) &&& 1) <<< s.place k)

/-- One bit of a value, moved to a place. -/
theorem testBit_moved (dense k place b : Nat) :
    (((dense >>> k) &&& 1) <<< place).testBit b ↔ place = b ∧ dense.testBit k := by
  rw [Nat.testBit_shiftLeft, Nat.testBit_and, Nat.testBit_shiftRight]
  simp only [Bool.and_eq_true, decide_eq_true_eq, Nat.testBit_one_eq_true_iff_self_eq_zero]
  constructor
  · rintro ⟨hle, hbit, hzero⟩
    have hplace : place = b := by omega
    rw [hzero] at hbit
    exact ⟨hplace, hbit⟩
  · rintro ⟨rfl, hbit⟩
    rw [Nat.sub_self]
    exact ⟨Nat.le_refl _, hbit, rfl⟩

/-- Bit `k` of the dense value is at its place, and no other bit is set. -/
theorem testBit_spread (s : BitSpec) (dense b : Nat) :
    (s.spread dense).testBit b ↔ ∃ k, k < s.size ∧ s.place k = b ∧ dense.testBit k := by
  rw [spread, testBit_unionOf]
  constructor
  · rintro ⟨n, hn, hbit⟩
    obtain ⟨k, hk, rfl⟩ := List.mem_map.1 hn
    obtain ⟨hplace, hdense⟩ := (testBit_moved dense k (s.place k) b).1 hbit
    exact ⟨k, List.mem_range.1 hk, hplace, hdense⟩
  · rintro ⟨k, hk, hplace, hdense⟩
    exact ⟨_, List.mem_map_of_mem (List.mem_range.2 hk),
      (testBit_moved dense k (s.place k) b).2 ⟨hplace, hdense⟩⟩

/-- A bit at its place is inside the mask. -/
theorem contains_of_testBit_spread {s : BitSpec} (hs : s.Proper) {dense b : Nat}
    (h : (s.spread dense).testBit b) : s.mask.contains b := by
  obtain ⟨k, hk, hplace, -⟩ := (testBit_spread s dense b).1 h
  exact (contains_mask hs b).2 ⟨k, hk, hplace⟩

/-- For a range, spreading is one shift and one mask. -/
theorem spread_range {hi lo : Nat} (hs : (range hi lo).Proper) (dense : Nat) :
    (range hi lo).spread dense = (dense <<< lo) &&& (range hi lo).mask.toNat := by
  apply eq_of_testBit_iff
  intro b
  rw [testBit_spread, Nat.testBit_and, Nat.testBit_shiftLeft, ← BitMask.contains_eq_testBit,
    Bool.and_eq_true, Bool.and_eq_true, contains_mask hs, decide_eq_true_eq]
  simp only [place]
  constructor
  · rintro ⟨k, hk, rfl, hbit⟩
    refine ⟨⟨Nat.le_add_right lo k, ?_⟩, k, hk, rfl⟩
    rwa [Nat.add_sub_cancel_left]
  · rintro ⟨⟨hle, hbit⟩, k, hk, rfl⟩
    rw [Nat.add_sub_cancel_left] at hbit
    exact ⟨k, hk, rfl, hbit⟩

/-- Inside the register value, spreading is what encoding does. -/
theorem encode_eq_spread {s : BitSpec} (hs : s.Proper) (hhi : s.hi < valueBits) (dense : Nat) :
    s.encode dense = .ok (s.spread dense) := by
  obtain ⟨e, he, hbits⟩ := encode_spec hs (movable_of_span hs (by omega)) dense
  rw [he]
  apply congrArg Except.ok
  apply eq_of_testBit_iff
  intro b
  rw [hbits, testBit_spread]
  constructor
  · exact fun h => h.2
  · rintro ⟨k, hk, rfl, hbit⟩
    have hhigh : s.place k ≤ s.hi := place_le_hi hs hk
    exact ⟨by omega, k, hk, rfl, hbit⟩

/-! ## § Collecting -/

/-- **collect** — the bits of a value at the places of a field, as a dense value. -/
def collect (s : BitSpec) (register : Nat) : Nat :=
  unionOf ((List.range s.size).map fun k => ((register >>> s.place k) &&& 1) <<< k)

/-- Bit `k` of the dense value comes from its place, and no other bit is set. -/
theorem testBit_collect (s : BitSpec) (register k : Nat) :
    (s.collect register).testBit k ↔ k < s.size ∧ register.testBit (s.place k) := by
  rw [collect, testBit_unionOf]
  constructor
  · rintro ⟨n, hn, hbit⟩
    obtain ⟨l, hl, rfl⟩ := List.mem_map.1 hn
    obtain ⟨rfl, hregister⟩ := (testBit_moved register (s.place l) l k).1 hbit
    exact ⟨List.mem_range.1 hl, hregister⟩
  · rintro ⟨hk, hregister⟩
    exact ⟨_, List.mem_map_of_mem (List.mem_range.2 hk),
      (testBit_moved register (s.place k) k k).2 ⟨rfl, hregister⟩⟩

/-- For a range, collecting is one mask and one shift. -/
theorem collect_range {hi lo : Nat} (hs : (range hi lo).Proper) (register : Nat) :
    (range hi lo).collect register = (register &&& (range hi lo).mask.toNat) >>> lo := by
  apply eq_of_testBit_iff
  intro k
  rw [testBit_collect, Nat.testBit_shiftRight, Nat.testBit_and, ← BitMask.contains_eq_testBit,
    Bool.and_eq_true, contains_mask hs]
  simp only [place]
  constructor
  · rintro ⟨hk, hbit⟩
    exact ⟨hbit, k, hk, rfl⟩
  · rintro ⟨hbit, l, hl, hplace⟩
    obtain rfl : l = k := Nat.add_left_cancel hplace
    exact ⟨hl, hbit⟩

/-- Inside the register value, collecting is what decoding does. -/
theorem decode_eq_collect {s : BitSpec} (hs : s.Proper) (hhi : s.hi < valueBits) (register : Nat) :
    s.decode register = .ok (s.collect register) := by
  obtain ⟨d, hd, hbits⟩ := decode_spec hs (movable_of_span hs (by omega)) register
  rw [hd]
  apply congrArg Except.ok
  apply eq_of_testBit_iff
  intro k
  rw [hbits, testBit_collect]
  constructor
  · rintro ⟨-, hk, -, hbit⟩
    exact ⟨hk, hbit⟩
  · rintro ⟨hk, hbit⟩
    have hhigh : s.place k ≤ s.hi := place_le_hi hs hk
    have hsize := size_le_valueBits hs (by omega)
    exact ⟨by omega, hk, by omega, hbit⟩

end BitSpec

end RegisterMap
