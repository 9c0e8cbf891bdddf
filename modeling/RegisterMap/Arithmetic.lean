/-!
# Arithmetic — operations on numbers of a fixed size

Positions are counted in 32 bits, addresses and words in 64, values in 128. An operation whose
result does not fit is a fault; none of them wraps around.
-/

namespace RegisterMap

/-- **ArithmeticFault** — the operation whose result does not fit. -/
inductive ArithmeticFault where
  | addition
  | subtraction
  | multiplication
  | rightShift
  deriving DecidableEq, Repr

/-- **message** — the text of a fault. -/
def ArithmeticFault.message : ArithmeticFault → String
  | .addition => "attempt to add with overflow"
  | .subtraction => "attempt to subtract with overflow"
  | .multiplication => "attempt to multiply with overflow"
  | .rightShift => "attempt to shift right with overflow"

/-- **capacity** — how many numbers have so many bits, and the weight of the bit above them. -/
def capacity (bits : Nat) : Nat := 1 <<< bits

/-- **checkedAdd** — a sum of numbers of so many bits. -/
def checkedAdd (bits a b : Nat) : Except ArithmeticFault Nat :=
  if a + b < capacity bits then .ok (a + b) else .error .addition

/-- **checkedSub** — a difference that is not negative. -/
def checkedSub (a b : Nat) : Except ArithmeticFault Nat :=
  if b ≤ a then .ok (a - b) else .error .subtraction

/-- **checkedMul** — a product of numbers of so many bits. -/
def checkedMul (bits a b : Nat) : Except ArithmeticFault Nat :=
  if a * b < capacity bits then .ok (a * b) else .error .multiplication

/-- **checkedShiftRight** — a number of so many bits, shifted by fewer places than it has. -/
def checkedShiftRight (bits a places : Nat) : Except ArithmeticFault Nat :=
  if places < bits then .ok (a >>> places) else .error .rightShift

/-- **shiftLeft** — a number shifted to the left; what leaves the given size is dropped. -/
def shiftLeft (bits a places : Nat) : Nat :=
  if places < bits then (a <<< places) % capacity bits else 0

/-- **shiftRight** — a number shifted to the right; nothing is left when all its bits are shifted
out. -/
def shiftRight (bits a places : Nat) : Nat :=
  if places < bits then a >>> places else 0

/-- **lowOnes** — ones in the lowest places, at most as many as the given size has. -/
def lowOnes (bits width : Nat) : Nat := capacity (min width bits) - 1

theorem checkedAdd_eq_ok {bits a b n : Nat} :
    checkedAdd bits a b = .ok n ↔ n = a + b ∧ a + b < capacity bits := by
  unfold checkedAdd
  split <;> simp_all [eq_comm]

theorem checkedSub_eq_ok {a b n : Nat} : checkedSub a b = .ok n ↔ n = a - b ∧ b ≤ a := by
  unfold checkedSub
  split <;> simp_all [eq_comm]

theorem checkedMul_eq_ok {bits a b n : Nat} :
    checkedMul bits a b = .ok n ↔ n = a * b ∧ a * b < capacity bits := by
  unfold checkedMul
  split <;> simp_all [eq_comm]

theorem checkedShiftRight_eq_ok {bits a places n : Nat} :
    checkedShiftRight bits a places = .ok n ↔ n = a >>> places ∧ places < bits := by
  unfold checkedShiftRight
  split <;> simp_all [eq_comm]

theorem checkedAdd_eq_error {bits a b : Nat} {fault : ArithmeticFault} :
    checkedAdd bits a b = .error fault ↔ fault = .addition ∧ capacity bits ≤ a + b := by
  unfold checkedAdd
  split <;> simp_all [eq_comm]

theorem checkedShiftRight_eq_error {bits a places : Nat} {fault : ArithmeticFault} :
    checkedShiftRight bits a places = .error fault ↔ fault = .rightShift ∧ bits ≤ places := by
  unfold checkedShiftRight
  split <;> simp_all [eq_comm]

/-- Bit by bit, a shift to the left moves bits up and drops those beyond the size. -/
theorem testBit_shiftLeft (bits a places i : Nat) :
    (shiftLeft bits a places).testBit i
      = (decide (i < bits) && (decide (places ≤ i) && a.testBit (i - places))) := by
  unfold shiftLeft
  split
  · rw [capacity, Nat.one_shiftLeft, Nat.testBit_mod_two_pow, Nat.testBit_shiftLeft]
  · by_cases h : i < bits
    · have : ¬ places ≤ i := by omega
      simp [this]
    · simp [h]

/-- Bit by bit, a shift to the right moves bits down while it is shorter than the number. -/
theorem testBit_shiftRight (bits a places i : Nat) :
    (shiftRight bits a places).testBit i = (decide (places < bits) && a.testBit (places + i)) := by
  unfold shiftRight
  split
  · rename_i h
    simp [h, Nat.testBit_shiftRight]
  · rename_i h
    simp [h]

/-- The remainder by a capacity keeps the low bits. -/
theorem testBit_mod_capacity (a bits i : Nat) :
    (a % capacity bits).testBit i = (decide (i < bits) && a.testBit i) := by
  rw [capacity, Nat.one_shiftLeft]
  exact Nat.testBit_mod_two_pow _ _ _

/-- A number of so many bits has no bit above them. -/
theorem testBit_of_lt_capacity {a bits i : Nat} (h : a < capacity bits) (hi : bits ≤ i) :
    a.testBit i = false := by
  rw [← Nat.mod_eq_of_lt h, testBit_mod_capacity]
  simp [Nat.not_lt.2 hi]

/-- A number without a bit above so many places has so many bits. -/
theorem lt_capacity_of_testBit {a bits : Nat} (h : ∀ i, bits ≤ i → a.testBit i = false) :
    a < capacity bits := by
  rw [capacity, Nat.one_shiftLeft]
  exact Nat.lt_pow_two_of_testBit _ h

theorem capacity_pos (bits : Nat) : 0 < capacity bits := by
  rw [capacity, Nat.one_shiftLeft]
  exact Nat.two_pow_pos bits

theorem capacity_le_capacity {m n : Nat} (h : m ≤ n) : capacity m ≤ capacity n := by
  rw [capacity, capacity, Nat.one_shiftLeft, Nat.one_shiftLeft]
  exact Nat.pow_le_pow_right (by decide) h

/-- Bit by bit, ones are in the lowest places. -/
theorem testBit_lowOnes (bits width i : Nat) :
    (lowOnes bits width).testBit i = decide (i < min width bits) := by
  rw [lowOnes, capacity, Nat.one_shiftLeft]
  exact Nat.testBit_two_pow_sub_one _ _

end RegisterMap
