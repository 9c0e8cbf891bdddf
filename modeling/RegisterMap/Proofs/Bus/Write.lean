import RegisterMap.Proofs.Bus.Access
import RegisterMap.Proofs.Device.ValueMask
import RegisterMap.Proofs.Device.Words

/-!
# Writing a register — which words a bus holds afterwards

Writing a register is one access after another. When no address is locked all of them succeed; each
address of the register then holds its word of the value, and every other address what it held
before.

## § What is here

* `Bus.Written` — what a bus is after words have been written to it;
* `each_write` — one write after another, by induction on the addresses;
* `writeRegister_run`, `writeRegister_spec` — the bus after a register is written;
* `testBit_wordAt`, `wordAt_eq` — the word of a value at an address, as a slice of the value.
-/

namespace RegisterMap

/-- **Written** — the bus `after` came of `b` when words were written to the addresses, in their
order and nothing else. -/
structure Bus.Written (word : Nat → Nat) (as : List Nat) (b after : Bus) : Prop where
  words : ∀ key, after.word? key = if key ∈ as then some (word key) else b.word? key
  locks : ∀ key, after.isLocked key = b.isLocked key
  trace : after.trace = b.trace ++ as.map fun a => .write a (word a)

namespace Transfer

/-- Writes to addresses that are not locked succeed, one after another. -/
theorem each_write (word : Nat → Nat) (as : List Nat) (b : Bus)
    (hfree : ∀ a ∈ as, b.isLocked a = false) :
    ∃ after, each (fun a => Bus.write a (word a)) as b = (.ok (as.map fun _ => ()), after) ∧
      Bus.Written word as b after := by
  induction as generalizing b with
  | nil => exact ⟨b, rfl, fun key => by simp, fun _ => rfl, by simp⟩
  | cons a as ih =>
    have hopen : b.isLocked a = false := hfree a List.mem_cons_self
    have hfirst : Bus.write a (word a) b = (.ok (), (Bus.write a (word a) b).2) := by
      refine Prod.ext ?_ rfl
      rw [Bus.write_fst, hopen]
      rfl
    -- A write locks nothing, so the others find their addresses as they were.
    obtain ⟨after, hrest, hwritten⟩ := ih (Bus.write a (word a) b).2 (by
      intro x hx
      rw [Bus.isLocked_write]
      exact hfree x (List.mem_cons_of_mem _ hx))
    refine ⟨after, each_cons hfirst hrest, ?_, ?_, ?_⟩
    · intro key
      rw [hwritten.words, Bus.word?_write, hopen]
      by_cases hkey : key = a
      · subst hkey
        simp
      · simp [hkey]
    · intro key
      rw [hwritten.locks, Bus.isLocked_write]
    · rw [hwritten.trace, Bus.trace_write, List.append_assoc]
      rfl

end Transfer

namespace Device

variable {d : Device} {r : Register}

/-- Writing a register without a locked address succeeds, and it is one write of the word of the
value to each of its addresses. -/
theorem writeRegister_run (d : Device) (r : Register) (value : Nat) {b : Bus}
    (hfree : ∀ a ∈ r.addresses, b.isLocked a = false) :
    ∃ after, d.writeRegister r value b = (.ok (), after) ∧
      Bus.Written (d.wordAt r value) r.addresses b after := by
  obtain ⟨after, hrun, hwritten⟩ := Transfer.each_write (d.wordAt r value) r.addresses b hfree
  refine ⟨after, ?_, hwritten⟩
  simp only [writeRegister, hrun]
  rfl

/-- Afterwards each of its addresses holds the word of the value, and no other word is changed. -/
theorem writeRegister_spec (d : Device) (r : Register) (value : Nat) {b : Bus}
    (hfree : ∀ a ∈ r.addresses, b.isLocked a = false) :
    (d.writeRegister r value b).1 = .ok () ∧
    ∀ key, (d.writeRegister r value b).2.word? key
      = if key ∈ r.addresses then some (d.wordAt r value key) else b.word? key := by
  obtain ⟨after, hrun, hwritten⟩ := writeRegister_run d r value hfree
  rw [hrun]
  exact ⟨rfl, hwritten.words⟩

/-- The word of a value at an address, bit by bit. A word that starts beyond the 128 bits of a value
has none. -/
theorem testBit_wordAt (hd : d.Sound) {value a u : Nat} (hu : r.significance? a = some u)
    (i : Nat) :
    (d.wordAt r value a).testBit i ↔ i < d.dataWidth ∧ d.wordShift r u < BitSpec.valueBits ∧
      value.testBit (d.wordShift r u + i) := by
  have hwidth := hd.dataWidth_le
  rw [wordAt, hu]
  simp only
  rw [Nat.testBit_and, testBit_mod_capacity, testBit_shiftRight, dataMask, testBit_lowOnes]
  simp only [Bool.and_eq_true, decide_eq_true_eq]
  constructor
  · rintro ⟨⟨-, hstart, hbit⟩, hi⟩
    exact ⟨by omega, hstart, hbit⟩
  · rintro ⟨hi, hstart, hbit⟩
    exact ⟨⟨by omega, hstart, hbit⟩, by omega⟩

/-- No word that is written exceeds the data width. -/
theorem wordAt_lt (hd : d.Sound) (r : Register) (value a : Nat) :
    d.wordAt r value a < capacity d.dataWidth := by
  apply lt_capacity_of_testBit
  intro i hi
  cases hu : r.significance? a with
  | none =>
    rw [wordAt, hu]
    exact Nat.zero_testBit i
  | some u =>
    apply Bool.eq_false_iff.2
    intro hbit
    have hlow := ((testBit_wordAt hd hu i).1 hbit).1
    omega

/-- The word of a value of 128 bits at an address is a slice of the value. -/
theorem wordAt_eq (hd : d.Sound) {value a u : Nat} (hvalue : value < capacity BitSpec.valueBits)
    (hu : r.significance? a = some u) : d.wordAt r value a = d.wordSlice r u value := by
  apply eq_of_testBit_iff
  intro i
  rw [testBit_wordSlice, testBit_wordAt hd hu]
  constructor
  · rintro ⟨hi, -, hbit⟩
    exact ⟨hi, hbit⟩
  · rintro ⟨hi, hbit⟩
    refine ⟨hi, ?_, hbit⟩
    -- A word that starts beyond the value has no bit.
    apply Nat.lt_of_not_le
    intro hbeyond
    rw [testBit_of_lt_capacity hvalue (by omega)] at hbit
    cases hbit

end Device

end RegisterMap
