import Mathlib.Order.Bounds.Defs
import RegisterMap.Proofs.Device.Invariant

/-!
# Windows — the mask of a register, word by word

Words have from 1 to 64 bits, a mask is stored in words of 64, so the words of a register cut across
those of its mask. Each bit of the mask still falls into one word of the register and no other. So
the windows of all words, each moved to where its word starts, are the mask again, and it does not
matter whether the masks of the fields are put together before they are cut into words or after.

## § What is here

* `wordWindow`, `wordWindow_eq_wordSlice` — the bits of a mask in one word;
* `placedWindow`, `testBit_placedWindow` — the same at the place of the word;
* `unionOf_placedWindow`, `placedWindow_disjoint` — the windows of all words lose no bit, and no two
  of them share one;
* `toNat_valueMask`, `wordWindow_valueMask` — the mask of a register and its windows, by its fields;
* `windows_tile` — all of this, for each register of an accepted description.
-/

namespace RegisterMap.Device

variable {d : Device} {r : Register}

/-! ## § One word -/

/-- **wordWindow** — the bits of a mask in word `u` of a register. -/
def wordWindow (d : Device) (r : Register) (m : BitMask) (u : Nat) : Nat :=
  m.window (d.wordShift r u) d.dataWidth

theorem testBit_wordWindow (hd : d.Sound) (hr : r.Sound d.dataWidth) (m : BitMask) (u i : Nat) :
    (d.wordWindow r m u).testBit i ↔ i < d.dataWidth ∧ m.contains (d.wordShift r u + i) :=
  testBit_window_word hd hr m u i

/-- The window of a word is the word of the number of the mask. -/
theorem wordWindow_eq_wordSlice (hd : d.Sound) (hr : r.Sound d.dataWidth) (m : BitMask) (u : Nat) :
    d.wordWindow r m u = d.wordSlice r u m.toNat := by
  apply eq_of_testBit_iff
  intro i
  rw [testBit_wordWindow hd hr, testBit_wordSlice, BitMask.contains_eq_testBit]

/-- A window fits into a word. -/
theorem wordWindow_lt (hd : d.Sound) (hr : r.Sound d.dataWidth) (m : BitMask) (u : Nat) :
    d.wordWindow r m u < capacity d.dataWidth := by
  rw [wordWindow_eq_wordSlice hd hr, wordSlice]
  exact Nat.mod_lt _ (capacity_pos d.dataWidth)

/-- **placedWindow** — the bits of a mask in word `u`, at the place of the word. -/
def placedWindow (d : Device) (r : Register) (m : BitMask) (u : Nat) : Nat :=
  d.wordWindow r m u <<< d.wordShift r u

theorem testBit_placedWindow (hd : d.Sound) (hr : r.Sound d.dataWidth) (m : BitMask) (u b : Nat) :
    (d.placedWindow r m u).testBit b ↔
      (d.wordShift r u ≤ b ∧ b < d.wordShift r u + d.dataWidth) ∧ m.contains b := by
  rw [placedWindow, Nat.testBit_shiftLeft, Bool.and_eq_true, decide_eq_true_eq,
    testBit_wordWindow hd hr]
  constructor
  · rintro ⟨hlow, hplace, hbit⟩
    rw [Nat.add_sub_of_le hlow] at hbit
    exact ⟨⟨hlow, by omega⟩, hbit⟩
  · rintro ⟨⟨hlow, hhigh⟩, hbit⟩
    rw [← Nat.add_sub_of_le hlow] at hbit
    exact ⟨hlow, by omega, hbit⟩

/-! ## § All words -/

/-- The windows of all words are the mask again when it has no bit beyond the words. -/
theorem unionOf_placedWindow (hd : d.Sound) (hr : r.Sound d.dataWidth) {m : BitMask}
    (hm : ∀ b, m.contains b → b < d.dataWidth * r.wordCount) :
    unionOf ((List.range r.wordCount).map (d.placedWindow r m)) = m.toNat := by
  apply eq_of_testBit_iff
  intro b
  rw [testBit_unionOf, ← BitMask.contains_eq_testBit]
  constructor
  · rintro ⟨n, hn, hbit⟩
    obtain ⟨u, -, rfl⟩ := List.mem_map.1 hn
    exact ((testBit_placedWindow hd hr m u b).1 hbit).2
  · intro hbit
    obtain ⟨u, hu, hplace⟩ := exists_word_of_lt (r := r) hd.dataWidth_pos (hm b hbit)
    exact ⟨_, List.mem_map_of_mem (List.mem_range.2 hu),
      (testBit_placedWindow hd hr m u b).2 ⟨hplace, hbit⟩⟩

/-- The windows of two words share no bit. -/
theorem placedWindow_disjoint (hd : d.Sound) (hr : r.Sound d.dataWidth) (m : BitMask) {u v : Nat}
    (hu : u < r.wordCount) (hv : v < r.wordCount) (hne : u ≠ v) :
    d.placedWindow r m u &&& d.placedWindow r m v = 0 := by
  apply eq_of_testBit_iff
  intro b
  rw [Nat.testBit_and, Bool.and_eq_true, testBit_placedWindow hd hr, testBit_placedWindow hd hr,
    Nat.zero_testBit]
  refine iff_of_false ?_ Bool.false_ne_true
  rintro ⟨⟨⟨hlow, hhigh⟩, -⟩, ⟨hlow', hhigh'⟩, -⟩
  exact hne (eq_of_wordShift hu hv hlow hhigh hlow' hhigh')

/-! ## § The mask of a register -/

/-- The mask of a register has the bits of the masks of its fields. -/
theorem toNat_valueMask (r : Register) :
    r.valueMask.toNat = unionOf (r.fields.map fun f => f.mask.toNat) := by
  apply eq_of_testBit_iff
  intro b
  rw [← BitMask.contains_eq_testBit, Register.contains_valueMask, testBit_unionOf]
  simp only [List.mem_map, exists_exists_and_eq_and, BitMask.contains_eq_testBit]

/-- In each word, it has the bits that they have there. -/
theorem wordWindow_valueMask (hd : d.Sound) (hr : r.Sound d.dataWidth) (u : Nat) :
    d.wordWindow r r.valueMask u = unionOf (r.fields.map fun f => d.wordWindow r f.mask u) := by
  apply eq_of_testBit_iff
  intro i
  rw [testBit_wordWindow hd hr, Register.contains_valueMask, testBit_unionOf]
  simp only [List.mem_map, exists_exists_and_eq_and, testBit_wordWindow hd hr]
  constructor
  · rintro ⟨hi, f, hf, hbit⟩
    exact ⟨f, hf, hi, hbit⟩
  · rintro ⟨f, hf, hi, hbit⟩
    exact ⟨hi, f, hf, hbit⟩

/-- The lowest bit of all fields is the lowest bit of their masks. -/
theorem isLeast_valueOffset {dataWidth : Nat} (hr : r.Sound dataWidth) :
    IsLeast {b | (unionOf (r.fields.map fun f => f.mask.toNat)).testBit b} r.valueOffset := by
  rw [← toNat_valueMask]
  simp only [← BitMask.contains_eq_testBit]
  exact ⟨Register.contains_valueOffset hr, fun b => Register.valueOffset_le_of_contains hr⟩

/-- **Windows tile the mask.** The windows of the words of a register, each at the place of its word,
make up the mask of the register, and no two of them share a bit. The window of a word fits into the
word, has the bits that the mask has there, and is made up of the windows of the fields. The lowest
bit of all fields is the lowest bit that any of their masks has. -/
theorem windows_tile {text : String} {page : Page} (haccepted : (ofText text).result = .ok d)
    (hpage : page ∈ d.pages) (hreg : r ∈ page.regs) :
    unionOf ((List.range r.wordCount).map (d.placedWindow r r.valueMask)) = r.valueMask.toNat ∧
    (∀ u v, u < r.wordCount → v < r.wordCount → u ≠ v →
      d.placedWindow r r.valueMask u &&& d.placedWindow r r.valueMask v = 0) ∧
    (∀ u, u < r.wordCount →
      d.wordWindow r r.valueMask u < capacity d.dataWidth ∧
      d.wordWindow r r.valueMask u = d.wordSlice r u r.valueMask.toNat ∧
      d.wordWindow r r.valueMask u = unionOf (r.fields.map fun f => d.wordWindow r f.mask u)) ∧
    r.valueMask.toNat = unionOf (r.fields.map fun f => f.mask.toNat) ∧
    IsLeast {b | (unionOf (r.fields.map fun f => f.mask.toNat)).testBit b} r.valueOffset := by
  have hd := sound_of_ofText haccepted
  have hr := (hd.pages page hpage).regs r hreg
  refine ⟨?_, ?_, ?_, toNat_valueMask r, isLeast_valueOffset hr⟩
  · exact unionOf_placedWindow hd hr fun b => Register.lt_of_contains_valueMask hr hd.dataWidth_pos
  · intro u v hu hv hne
    exact placedWindow_disjoint hd hr r.valueMask hu hv hne
  · intro u _
    exact ⟨wordWindow_lt hd hr r.valueMask u, wordWindow_eq_wordSlice hd hr r.valueMask u,
      wordWindow_valueMask hd hr u⟩

/-- The words of 60 bits cut the mask at bits 60 and 120, not where it is stored in words of 64: its
bits 100 to 127 fall into two of them, and so do its bits 3 and 61. -/
theorem windows_tile_tuner :
    (ofText Tuner.text).result = .ok Tuner.device ∧
    (List.range 3).map (Tuner.device.wordWindow Tuner.long Tuner.long.valueMask)
      = [0xff, 0xfffff0000000002, 9] ∧
    unionOf ((List.range 3).map (Tuner.device.placedWindow Tuner.long Tuner.long.valueMask))
      = Tuner.long.valueMask.toNat ∧
    Tuner.device.placedWindow Tuner.long Tuner.long.valueMask 0
      &&& Tuner.device.placedWindow Tuner.long Tuner.long.valueMask 1 = 0 ∧
    IsLeast {b | (unionOf (Tuner.long.fields.map fun f => f.mask.toNat)).testBit b} 0 := by
  obtain ⟨hunion, hdisjoint, -, -, hleast⟩ :=
    windows_tile Tuner.accepted Tuner.page_mem Tuner.long_mem
  exact ⟨Tuner.accepted, by decide +kernel, hunion, hdisjoint 0 1 (by decide) (by decide) (by decide),
    hleast⟩

end RegisterMap.Device
