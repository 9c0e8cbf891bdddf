import RegisterMap.Proofs.Bus.Fields

/-!
# Restored words — writing back what was read

All words of a register together are one number, its *content*. A value has the lowest 128 bits of
it, so writing back the value that was read restores these bits and clears the others. Which bits of
a word are kept depends on where the word starts in the content.

## § What is here

* `contentPart`, `content` — all words of a register as one number of any size;
* `testBit_content`, `content_eq` — the content, bit by bit and word by word;
* `readRegister_content` — the value that is read, as the lowest bits of the content;
* `testBit_restored`, `write_back` — what is left of each word after the value is written back.
-/

namespace RegisterMap

namespace Device

variable {d : Device} {r : Register} {b : Bus}

/-! ## § Content -/

/-- **contentPart** — what the word at an address adds to the content of a register. -/
def contentPart (d : Device) (r : Register) (addr word : Nat) : Nat :=
  (word &&& d.dataMask) <<< d.wordShift r ((r.significance? addr).getD 0)

/-- **content** — the words that a bus holds of a register, each at its place in one number. -/
def content (d : Device) (r : Register) (b : Bus) : Nat :=
  unionOf (r.addresses.map fun a => d.contentPart r a ((b.word? a).getD 0))

/-- The word at an address is moved to its place, and cut to the data width. -/
theorem testBit_contentPart (hd : d.Sound) {a u : Nat} (hu : r.significance? a = some u)
    (word i : Nat) :
    (d.contentPart r a word).testBit i ↔ d.wordShift r u ≤ i ∧ i < d.wordShift r u + d.dataWidth ∧
      word.testBit (i - d.wordShift r u) := by
  have hwidth := hd.dataWidth_le
  rw [contentPart, hu, Option.getD_some, Nat.testBit_shiftLeft, Nat.testBit_and, dataMask,
    testBit_lowOnes]
  simp only [Bool.and_eq_true, decide_eq_true_eq]
  constructor
  · rintro ⟨hlow, hbit, hhigh⟩
    exact ⟨hlow, by omega, hbit⟩
  · rintro ⟨hlow, hhigh, hbit⟩
    exact ⟨hlow, hbit, by omega⟩

/-- A bit of the content is a bit of the word that it falls into. -/
theorem testBit_content (hd : d.Sound) {a u : Nat} (ha : a ∈ r.addresses)
    (hu : r.significance? a = some u) {j : Nat} (hj : j < d.dataWidth) :
    (d.content r b).testBit (d.wordShift r u + j) ↔ ((b.word? a).getD 0).testBit j := by
  rw [content, testBit_unionOf]
  constructor
  · rintro ⟨n, hn, hbit⟩
    obtain ⟨c, hc, rfl⟩ := List.mem_map.1 hn
    obtain ⟨v, hv, hword⟩ := Register.exists_significance hc
    obtain ⟨w, hw, hsame⟩ := Register.exists_significance ha
    obtain rfl : u = w := Option.some.inj (hu.symm.trans hsame)
    obtain ⟨hlow, hhigh, hbit⟩ := (testBit_contentPart hd hword _ _).1 hbit
    obtain rfl : u = v :=
      eq_of_wordShift (d := d) hw hv (Nat.le_add_right _ j) (by omega) hlow hhigh
    obtain rfl := Register.eq_of_significance ha hc hu hword
    rwa [Nat.add_sub_cancel_left] at hbit
  · intro hbit
    refine ⟨_, List.mem_map_of_mem ha, (testBit_contentPart hd hu _ _).2 ?_⟩
    rw [Nat.add_sub_cancel_left]
    exact ⟨Nat.le_add_right _ j, by omega, hbit⟩

/-- No bit of the content lies beyond the words of the register. -/
theorem content_lt (hd : d.Sound) (r : Register) (b : Bus) :
    d.content r b < capacity (d.dataWidth * r.wordCount) := by
  apply lt_capacity_of_testBit
  intro i hi
  rw [Bool.eq_false_iff, ne_eq, content, testBit_unionOf]
  rintro ⟨n, hn, hbit⟩
  obtain ⟨c, hc, rfl⟩ := List.mem_map.1 hn
  obtain ⟨v, hv, hword⟩ := Register.exists_significance hc
  obtain ⟨-, hhigh, -⟩ := (testBit_contentPart hd hword _ _).1 hbit
  have hend := wordShift_add_le (d := d) hv
  omega

/-- A number inside the words of a register is its content when each word has the bits that the
number has at its place. -/
theorem content_eq (hd : d.Sound) (hr : r.Sound d.dataWidth) {n : Nat}
    (hn : n < capacity (d.dataWidth * r.wordCount))
    (h : ∀ a u, a ∈ r.addresses → r.significance? a = some u → ∀ j, j < d.dataWidth →
      (((b.word? a).getD 0).testBit j ↔ n.testBit (d.wordShift r u + j))) :
    d.content r b = n := by
  apply eq_of_testBit_iff
  intro i
  by_cases hi : i < d.dataWidth * r.wordCount
  · obtain ⟨u, hu, hlow, hhigh⟩ := exists_word_of_lt (r := r) hd.dataWidth_pos hi
    obtain ⟨a, -, ha, hword⟩ := Register.wordAddress_spec hr hu
    obtain ⟨j, rfl⟩ := Nat.exists_eq_add_of_le hlow
    rw [testBit_content hd ha hword (by omega)]
    exact h a u ha hword j (by omega)
  · have hbeyond : d.dataWidth * r.wordCount ≤ i := by omega
    rw [testBit_of_lt_capacity (content_lt hd r b) hbeyond, testBit_of_lt_capacity hn hbeyond]

/-! ## § Reading and writing back -/

/-- A register whose addresses all hold a word is read as the lowest bits of its content. -/
theorem readRegister_content (hd : d.Sound) (hpresent : ∀ a ∈ r.addresses, b.word? a ≠ none) :
    d.readRegister r b = (.ok (d.content r b % capacity BitSpec.valueBits),
      b.recorded (r.addresses.map Access.read)) := by
  rw [readRegister_run d r _ fun a ha => Bus.word?_of_ne_none (hpresent a ha)]
  refine Prod.ext (congrArg Except.ok (eq_of_testBit_iff fun i => ?_)) rfl
  rw [testBit_unionOf, testBit_mod_capacity, content, Bool.and_eq_true, decide_eq_true_eq,
    testBit_unionOf]
  simp only [List.mem_map, exists_exists_and_eq_and]
  constructor
  · rintro ⟨a, ha, hbit⟩
    obtain ⟨u, -, hu⟩ := Register.exists_significance ha
    obtain ⟨hi, hplace⟩ := (testBit_wordPart hd hu _ i).1 hbit
    exact ⟨hi, a, ha, (testBit_contentPart hd hu _ i).2 hplace⟩
  · rintro ⟨hi, a, ha, hbit⟩
    obtain ⟨u, -, hu⟩ := Register.exists_significance ha
    exact ⟨a, ha, (testBit_wordPart hd hu _ i).2 ⟨hi, (testBit_contentPart hd hu _ i).1 hbit⟩⟩

/-- The word of that value at an address has the bits of the old word that are no data beyond the
value. -/
theorem testBit_restored (hd : d.Sound) {a u : Nat} (ha : a ∈ r.addresses)
    (hu : r.significance? a = some u) (j : Nat) :
    (d.wordAt r (d.content r b % capacity BitSpec.valueBits) a).testBit j ↔ j < d.dataWidth ∧
      d.wordShift r u + j < BitSpec.valueBits ∧ ((b.word? a).getD 0).testBit j := by
  rw [testBit_wordAt hd hu, testBit_mod_capacity, Bool.and_eq_true, decide_eq_true_eq]
  constructor
  · rintro ⟨hj, -, hsize, hbit⟩
    exact ⟨hj, hsize, (testBit_content hd ha hu hj).1 hbit⟩
  · rintro ⟨hj, hsize, hbit⟩
    exact ⟨hj, by omega, hsize, (testBit_content hd ha hu hj).2 hbit⟩

/-- In a register of at most 128 bits each word has its old data bits. -/
theorem restored_of_short (hd : d.Sound) {a : Nat} (ha : a ∈ r.addresses)
    (hshort : d.dataWidth * r.wordCount ≤ BitSpec.valueBits) :
    d.wordAt r (d.content r b % capacity BitSpec.valueBits) a
      = (b.word? a).getD 0 &&& d.dataMask := by
  have hwidth := hd.dataWidth_le
  obtain ⟨u, hu, hword⟩ := Register.exists_significance ha
  have hend := wordShift_add_le (d := d) hu
  apply eq_of_testBit_iff
  intro j
  rw [testBit_restored hd ha hword, Nat.testBit_and, dataMask, testBit_lowOnes, Bool.and_eq_true,
    decide_eq_true_eq]
  constructor
  · rintro ⟨hj, -, hbit⟩
    exact ⟨hbit, by omega⟩
  · rintro ⟨hbit, hj⟩
    exact ⟨by omega, by omega, hbit⟩

/-- **Writing back.** A register of an accepted description is read from a bus that holds a word at
each of its addresses, and the value is written back while none of them is locked. Both succeed.
The word `u` starts at bit `dataWidth * (wordCount - 1 - u)` of the content, and afterwards it has
exactly those of its old data bits that stand below bit 128 there. No other word is changed. So the
words of a register of at most 128 bits are what they were, up to the data mask, and in a longer one
exactly the bits from 128 on are cleared. -/
theorem write_back {text : String} (haccepted : (ofText text).result = .ok d) {page : Page}
    (hpage : page ∈ d.pages) (hreg : r ∈ page.regs)
    (hpresent : ∀ a ∈ r.addresses, b.word? a ≠ none)
    (hfree : ∀ a ∈ r.addresses, b.isLocked a = false) :
    ∃ value middle after, d.readRegister r b = (.ok value, middle) ∧
      d.writeRegister r value middle = (.ok (), after) ∧
      (∀ u, u < r.wordCount → ∃ a old new, r.wordAddress u = .ok a ∧ b.word? a = some old ∧
        after.word? a = some new ∧ ∀ j, new.testBit j ↔
          j < d.dataWidth ∧ d.dataWidth * (r.wordCount - 1 - u) + j < 128 ∧ old.testBit j) ∧
      (∀ x, x ∉ r.addresses → after.word? x = b.word? x) ∧
      (d.dataWidth * r.wordCount ≤ 128 →
        ∀ a ∈ r.addresses, after.word? a = (b.word? a).map (· &&& d.dataMask)) ∧
      d.content r after = d.content r b % capacity 128 := by
  have hd := sound_of_ofText haccepted
  have hr := (hd.pages page hpage).regs r hreg
  have hread := readRegister_content hd hpresent
  -- Reading locks nothing, so the addresses are still open.
  have hopen : ∀ a ∈ r.addresses,
      (b.recorded (r.addresses.map Access.read)).isLocked a = false := hfree
  obtain ⟨after, hwrite, hwritten⟩ :=
    writeRegister_run d r (d.content r b % capacity BitSpec.valueBits) hopen
  have hnew : ∀ a ∈ r.addresses,
      after.word? a = some (d.wordAt r (d.content r b % capacity BitSpec.valueBits) a) := by
    intro a ha
    rw [hwritten.words, if_pos ha]
  refine ⟨_, _, after, hread, hwrite, fun u hu => ?_, fun x hx => ?_, fun hshort a ha => ?_, ?_⟩
  · obtain ⟨a, haddress, ha, hword⟩ := Register.wordAddress_spec hr hu
    exact ⟨a, _, _, haddress, Bus.word?_of_ne_none (hpresent a ha), hnew a ha,
      testBit_restored hd ha hword⟩
  · rw [hwritten.words, if_neg hx]
    rfl
  · rw [hnew a ha, Bus.word?_of_ne_none (hpresent a ha), restored_of_short hd ha hshort]
    rfl
  · apply content_eq hd hr (Nat.lt_of_le_of_lt (Nat.mod_le _ _) (content_lt hd r b))
    intro a u ha hword j hj
    rw [hnew a ha, Option.getD_some, testBit_restored hd ha hword, testBit_mod_capacity,
      Bool.and_eq_true, decide_eq_true_eq, testBit_content hd ha hword hj]
    exact ⟨fun h => h.2, fun h => ⟨hj, h⟩⟩

end Device

/-- **filled** — a bus with ones in all words of a long register. -/
def Tuner.filled : Bus := { words := [(0x10, 2 ^ 64 - 1), (0x11, 2 ^ 64 - 1), (0x12, 2 ^ 64 - 1)] }

/-- Of three words of 60 bits the most significant one starts at bit 120 and keeps eight bits; the
others keep their data bits. -/
theorem Device.write_back_tuner :
    ∃ value middle after, Tuner.device.readRegister Tuner.long Tuner.filled = (.ok value, middle) ∧
      Tuner.device.writeRegister Tuner.long value middle = (.ok (), after) ∧
      Tuner.device.content Tuner.long after = 2 ^ 128 - 1 ∧
      ∃ new, after.word? 0x10 = some new ∧ new.testBit 7 = true ∧ new.testBit 8 = false := by
  obtain ⟨value, middle, after, hread, hwrite, hwords, -, -, hcontent⟩ :=
    write_back (b := Tuner.filled) Tuner.accepted Tuner.page_mem Tuner.long_mem (by decide)
      (by decide)
  obtain ⟨a, old, new, haddress, hold, hnew, hbits⟩ := hwords 0 (by decide)
  obtain rfl : 0x10 = a := Except.ok.inj haddress
  obtain rfl : 2 ^ 64 - 1 = old := Option.some.inj hold
  have hones : Tuner.device.content Tuner.long Tuner.filled % capacity 128 = 2 ^ 128 - 1 := by
    decide +kernel
  refine ⟨value, middle, after, hread, hwrite, hcontent.trans hones, new, hnew, ?_, ?_⟩
  · exact (hbits 7).2 (by decide)
  · exact Bool.eq_false_iff.2 fun h => absurd ((hbits 8).1 h).2.1 (by decide)

end RegisterMap
