import RegisterMap.Bus.Transfer
import RegisterMap.Proofs.Bits.Spread
import RegisterMap.Proofs.Device.Sound

/-!
# The bits of a register — its mask, its lowest bit, and its words

The mask of a register holds the bits of its fields. All of them lie between the lowest bit of all
fields and the end of its last word, so they fall into its words without a rest.

## § What is here

* `wordSlice` — the bits of one word in a value of any size;
* `contains_valueMask` — the mask holds the bits of all fields;
* `valueOffset_le_of_contains`, `contains_valueOffset` — the lowest bit of all fields is the lowest
  bit of the mask;
* `lt_of_contains_valueMask` — no bit lies beyond the words;
* `exists_word_of_lt`, `eq_of_wordShift` — each bit of a register belongs to one of its words, and to
  no other;
* `testBit_window_word` — a mask, word by word.
-/

namespace RegisterMap

/-- **wordSlice** — the bits of word `u` in a value of a register. -/
def Device.wordSlice (d : Device) (r : Register) (u value : Nat) : Nat :=
  (value >>> d.wordShift r u) % capacity d.dataWidth

theorem Device.testBit_wordSlice (d : Device) (r : Register) (u value i : Nat) :
    (d.wordSlice r u value).testBit i ↔ i < d.dataWidth ∧ value.testBit (d.wordShift r u + i) := by
  rw [wordSlice, testBit_mod_capacity, Nat.testBit_shiftRight, Bool.and_eq_true, decide_eq_true_eq]

namespace Register

variable {dataWidth : Nat} {r : Register}

theorem contains_foldl_union (fs : List Field) (m : BitMask) (b : Nat) :
    (fs.foldl (fun m f => m.union f.mask) m).contains b
      ↔ m.contains b ∨ ∃ f ∈ fs, f.mask.contains b := by
  induction fs generalizing m with
  | nil => simp
  | cons f fs ih =>
    rw [List.foldl_cons, ih, BitMask.contains_union, Bool.or_eq_true, or_assoc,
      List.exists_mem_cons_iff]

/-- The mask of a register holds the bits of all its fields. -/
theorem contains_valueMask (r : Register) (b : Nat) :
    r.valueMask.contains b ↔ ∃ f ∈ r.fields, f.mask.contains b := by
  rw [valueMask, contains_foldl_union, BitMask.contains_empty]
  simp

/-- A bit of the mask is the place of a bit of a field. -/
theorem exists_place_of_contains (hr : r.Sound dataWidth) {b : Nat}
    (h : r.valueMask.contains b) :
    ∃ f ∈ r.fields, ∃ k, k < f.bits.size ∧ f.bits.place k = b := by
  obtain ⟨f, hf, hb⟩ := (contains_valueMask r b).1 h
  have hsound := hr.fields f hf
  rw [hsound.mask_eq] at hb
  exact ⟨f, hf, (BitSpec.contains_mask hsound.proper b).1 hb⟩

theorem valueOffset_le {f : Field} (hf : f ∈ r.fields) : r.valueOffset ≤ f.lo := by
  rw [valueOffset]
  have hmem : f.lo ∈ r.fields.map Field.lo := List.mem_map_of_mem hf
  cases hmin : (r.fields.map Field.lo).min? with
  | none => simp [List.min?_eq_none_iff.1 hmin] at hmem
  | some m => exact (List.min?_eq_some_iff.1 hmin).2 _ hmem

/-- No bit of the mask is below the lowest bit of all fields. -/
theorem valueOffset_le_of_contains (hr : r.Sound dataWidth) {b : Nat}
    (h : r.valueMask.contains b) : r.valueOffset ≤ b := by
  obtain ⟨f, hf, k, hk, rfl⟩ := exists_place_of_contains hr h
  exact Nat.le_trans (valueOffset_le hf) (BitSpec.lo_le_place hk)

/-- The lowest bit of all fields is in the mask. -/
theorem contains_valueOffset (hr : r.Sound dataWidth) : r.valueMask.contains r.valueOffset := by
  have hne : r.fields.map Field.lo ≠ [] := fun e => hr.inhabited (List.map_eq_nil_iff.1 e)
  cases hmin : (r.fields.map Field.lo).min? with
  | none => exact absurd (List.min?_eq_none_iff.1 hmin) hne
  | some m =>
    obtain ⟨f, hf, hlo⟩ := List.mem_map.1 (List.min?_eq_some_iff.1 hmin).1
    have hoffset : r.valueOffset = f.lo := by rw [valueOffset, hmin, hlo]; rfl
    have hsound := hr.fields f hf
    rw [hoffset, contains_valueMask]
    refine ⟨f, hf, ?_⟩
    rw [hsound.mask_eq]
    exact (BitSpec.contains_mask hsound.proper _).2 (BitSpec.exists_place_eq_lo hsound.proper)

/-- No bit of the mask lies beyond the words of the register. -/
theorem lt_of_contains_valueMask (hr : r.Sound dataWidth) (hwidth : 1 ≤ dataWidth) {b : Nat}
    (h : r.valueMask.contains b) : b < dataWidth * r.wordCount := by
  obtain ⟨f, hf, k, hk, rfl⟩ := exists_place_of_contains hr h
  have hsound := hr.fields f hf
  have hhigh : f.bits.place k ≤ f.bits.hi := BitSpec.place_le_hi hsound.proper hk
  have hlast : f.bits.hi ≤ dataWidth * r.wordCount - 1 := hsound.hi_le
  have hpos : 0 < dataWidth * r.wordCount := Nat.mul_pos hwidth r.wordCount_pos
  omega

end Register

namespace Device

variable {d : Device} {r : Register}

/-! ## § Bits of words -/

/-- Each bit of a register belongs to one of its words. -/
theorem exists_word_of_lt (hwidth : 1 ≤ d.dataWidth) {b : Nat}
    (hb : b < d.dataWidth * r.wordCount) :
    ∃ u, u < r.wordCount ∧ d.wordShift r u ≤ b ∧ b < d.wordShift r u + d.dataWidth := by
  have hword : b / d.dataWidth < r.wordCount := Nat.div_lt_of_lt_mul hb
  have hsplit := Nat.div_add_mod b d.dataWidth
  have hrest := Nat.mod_lt b hwidth
  generalize b / d.dataWidth = q at hword hsplit
  generalize b % d.dataWidth = rest at hsplit hrest
  -- Words are counted from the most significant one, so its number is the distance to the last.
  refine ⟨r.wordCount - 1 - q, by omega, ?_⟩
  have hshift : d.wordShift r (r.wordCount - 1 - q) = d.dataWidth * q := by
    rw [wordShift]
    congr 1
    omega
  rw [hshift]
  omega

/-- No word of a register reaches beyond its bits. -/
theorem wordShift_add_le {u : Nat} (hu : u < r.wordCount) :
    d.wordShift r u + d.dataWidth ≤ d.dataWidth * r.wordCount := by
  calc d.wordShift r u + d.dataWidth = d.dataWidth * (r.wordCount - 1 - u + 1) := by
        rw [wordShift, Nat.mul_succ]
    _ ≤ d.dataWidth * r.wordCount := Nat.mul_le_mul_left _ (by omega)

/-- A bit of a register belongs to one of its words only. -/
theorem eq_of_wordShift {u v i : Nat} (hu : u < r.wordCount) (hv : v < r.wordCount)
    (hlow : d.wordShift r u ≤ i) (hhigh : i < d.wordShift r u + d.dataWidth)
    (hlow' : d.wordShift r v ≤ i) (hhigh' : i < d.wordShift r v + d.dataWidth) : u = v := by
  -- The place of the bit says how far its word is from the last one.
  have hplace : ∀ w, d.wordShift r w ≤ i → i < d.wordShift r w + d.dataWidth →
      i / d.dataWidth = r.wordCount - 1 - w := by
    intro w hle hlt
    rw [wordShift] at hle hlt
    rw [← Nat.mul_succ] at hlt
    exact Nat.div_eq_of_lt_le (by rwa [Nat.mul_comm]) (by rwa [Nat.mul_comm])
  have hsame := (hplace u hlow hhigh).symm.trans (hplace v hlow' hhigh')
  omega

/-- A word has no bits beyond the data mask. -/
theorem wordSlice_and_dataMask (hd : d.Sound) (u value : Nat) :
    d.wordSlice r u value &&& d.dataMask = d.wordSlice r u value := by
  have hwidth := hd.dataWidth_le
  apply eq_of_testBit_iff
  intro i
  rw [Nat.testBit_and, Bool.and_eq_true, testBit_wordSlice, dataMask, testBit_lowOnes,
    decide_eq_true_eq]
  constructor
  · exact fun h => h.1
  · intro h
    exact ⟨h, by omega⟩

/-- No bit of a register is so high that a window would not reach it. -/
theorem wordShift_lt (hd : d.Sound) (hr : r.Sound d.dataWidth) {u i : Nat} (hi : i < d.dataWidth) :
    d.wordShift r u + i < capacity 32 - 1 := by
  have hwidth := hd.dataWidth_le
  have hwords := hr.words_le
  have hcount : r.wordCount - 1 - u ≤ 8 := by
    rw [Register.maxWordCount] at hwords
    omega
  have hshift : d.wordShift r u ≤ 64 * 8 := Nat.mul_le_mul hwidth hcount
  have hcap : 64 * 8 + 64 < capacity 32 - 1 := by decide
  omega

/-- The window of a word holds the bits of a mask in that word. -/
theorem testBit_window_word (hd : d.Sound) (hr : r.Sound d.dataWidth) (m : BitMask) (u i : Nat) :
    (m.window (d.wordShift r u) d.dataWidth).testBit i
      ↔ i < d.dataWidth ∧ m.contains (d.wordShift r u + i) := by
  have hwidth := hd.dataWidth_le
  rw [BitMask.testBit_window, Bool.and_eq_true, decide_eq_true_eq]
  constructor
  · rintro ⟨hi, hbit⟩
    have hlow : i < d.dataWidth := by omega
    rw [Nat.min_eq_left (Nat.le_of_lt (wordShift_lt hd hr hlow))] at hbit
    exact ⟨hlow, hbit⟩
  · rintro ⟨hi, hbit⟩
    refine ⟨by omega, ?_⟩
    rwa [Nat.min_eq_left (Nat.le_of_lt (wordShift_lt hd hr hi))]

end Device

end RegisterMap
