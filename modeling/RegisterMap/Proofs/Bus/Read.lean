import RegisterMap.Proofs.Bus.Write

/-!
# Reading a register — the value that its words hold

Reading a register takes one word after another and puts each to its place in the value. Words that
are written as the words of a value are read as that value, as far as the words of the register and
the 128 bits of a value reach.

## § What is here

* `testBit_wordPart` — what the word at an address adds to the value, bit by bit;
* `readRegister_run` — the value of a register whose addresses all hold a word;
* `readRegister_of_words` — the value that is read where the words of a value stand.
-/

namespace RegisterMap.Device

variable {d : Device} {r : Register}

/-- The word at an address is moved to its place in the value, and cut there to the data width and
to the bits of a value. -/
theorem testBit_wordPart (hd : d.Sound) {a u : Nat} (hu : r.significance? a = some u)
    (word b : Nat) :
    (d.wordPart r a word).testBit b ↔ b < BitSpec.valueBits ∧ d.wordShift r u ≤ b ∧
      b < d.wordShift r u + d.dataWidth ∧ word.testBit (b - d.wordShift r u) := by
  have hwidth := hd.dataWidth_le
  rw [wordPart, hu]
  simp only
  rw [testBit_shiftLeft, Nat.testBit_and, dataMask, testBit_lowOnes]
  simp only [Bool.and_eq_true, decide_eq_true_eq]
  constructor
  · rintro ⟨hb, hlow, hbit, hhigh⟩
    exact ⟨hb, hlow, by omega, hbit⟩
  · rintro ⟨hb, hlow, hhigh, hbit⟩
    exact ⟨hb, hlow, hbit, by omega⟩

/-- A register is read where each of its addresses holds a word. Its value has the bits of all these
words, and no word is changed. -/
theorem readRegister_run (d : Device) (r : Register) (word : Nat → Nat) {b : Bus}
    (hword : ∀ a ∈ r.addresses, b.word? a = some (word a)) :
    d.readRegister r b = (.ok (unionOf (r.addresses.map fun a => d.wordPart r a (word a))),
      b.recorded (r.addresses.map Access.read)) := by
  have hrun : Transfer.each (d.readPart r) r.addresses b
      = (.ok (r.addresses.map fun a => d.wordPart r a (word a)),
        b.recorded (r.addresses.map Access.read)) := Transfer.each_reading _ word hword
  simp only [readRegister, hrun]
  rfl

/-- Where the words of a value stand, the value is read, cut to the words of the register and to the
bits of a value. -/
theorem readRegister_of_words (hd : d.Sound) (hr : r.Sound d.dataWidth) {value : Nat} {b : Bus}
    (hwords : ∀ a ∈ r.addresses, b.word? a = some (d.wordAt r value a)) :
    (d.readRegister r b).1
      = .ok (value % capacity (min BitSpec.valueBits (d.dataWidth * r.wordCount))) := by
  rw [readRegister_run d r (d.wordAt r value) hwords]
  apply congrArg Except.ok
  apply eq_of_testBit_iff
  intro i
  rw [testBit_unionOf, testBit_mod_capacity, Bool.and_eq_true, decide_eq_true_eq]
  constructor
  · rintro ⟨n, hn, hbit⟩
    obtain ⟨a, ha, rfl⟩ := List.mem_map.1 hn
    obtain ⟨u, hlt, hu⟩ := Register.exists_significance ha
    obtain ⟨hsize, hlow, hhigh, hbit⟩ := (testBit_wordPart hd hu _ i).1 hbit
    obtain ⟨-, -, hbit⟩ := (testBit_wordAt hd hu _).1 hbit
    rw [Nat.add_sub_of_le hlow] at hbit
    have hend := wordShift_add_le (d := d) hlt
    exact ⟨by omega, hbit⟩
  · rintro ⟨hi, hbit⟩
    obtain ⟨u, hlt, hlow, hhigh⟩ := exists_word_of_lt (r := r) (b := i) hd.dataWidth_pos (by omega)
    obtain ⟨a, -, ha, hu⟩ := Register.wordAddress_spec hr hlt
    refine ⟨_, List.mem_map_of_mem ha, (testBit_wordPart hd hu _ i).2 ⟨by omega, hlow, hhigh, ?_⟩⟩
    refine (testBit_wordAt hd hu _).2 ⟨by omega, by omega, ?_⟩
    rwa [Nat.add_sub_of_le hlow]

end RegisterMap.Device
