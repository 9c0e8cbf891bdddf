import Mathlib.Algebra.BigOperators.Ring.Finset
import Mathlib.Data.Nat.Digits.Lemmas
import Mathlib.Tactic.Ring
import RegisterMap.Proofs.Bits.Hex

/-!
# Masks as sets — what a row of words says, and what it does not

A mask may end with any number of words of zeros, and the order in which its bits were set is
forgotten. All that is left is its number: each way to make a mask adds positions to it or replaces
them, and each way to look at a mask asks something about its number alone.

## § What is here

* `toNat_eq_sum` — the number of a mask, word by word;
* `Edit`, `run`, `Inserted` — making a mask step by step, and what has been put into it;
* `testBit_apply`, `testBit_run` — one step, and by induction a whole run;
* `digits_toNat` — the words up to the last one that is not zero are the digits of the number;
* `isEmpty_iff`, `toValue?_eq_some_iff`, `same_iff` — looking at a mask;
* `set_of_positions` — a mask is the set of its positions.
-/

namespace RegisterMap.BitMask

/-! ## § The number of a mask -/

theorem capacity_add (a b : Nat) : capacity (a + b) = capacity a * capacity b := by
  rw [capacity, capacity, capacity, Nat.shiftLeft_add, Nat.shiftLeft_eq _ b, Nat.one_shiftLeft b]

/-- The number of a row of words is the sum of its words, each with the weight of its place. -/
theorem numberOf_eq_sum (ws : List (BitVec 64)) :
    numberOf ws = ∑ i ∈ Finset.range ws.length, (ws.getD i 0).toNat * capacity (64 * i) := by
  induction ws with
  | nil => rfl
  | cons w ws ih =>
    have hshift : ∀ i, ((w :: ws).getD (i + 1) 0).toNat * capacity (64 * (i + 1))
        = capacity 64 * ((ws.getD i 0).toNat * capacity (64 * i)) := by
      intro i
      rw [List.getD_cons_succ, Nat.mul_add, Nat.mul_one, capacity_add]
      ring
    have hone : capacity (64 * 0) = 1 := rfl
    rw [List.length_cons, Finset.sum_range_succ', Finset.sum_congr rfl fun i _ => hshift i,
      ← Finset.mul_sum, ← ih, numberOf, List.getD_cons_zero, hone, Nat.mul_one, Nat.add_comm]

/-- The number of a mask is the sum of its words, each with the weight of its place. -/
theorem toNat_eq_sum (m : BitMask) : m.toNat
    = ∑ i ∈ Finset.range m.words.size, (m.words.getD i 0).toNat * capacity (64 * i) := by
  rw [toNat, numberOf_eq_sum, Array.length_toList]
  apply Finset.sum_congr rfl
  intro i _
  simp

/-! ## § Making a mask -/

/-- **Edit** — one step in the making of a mask. -/
inductive Edit where
  /-- One more bit. -/
  | set (bit : Nat)
  /-- The bits of another mask, too. -/
  | union (other : BitMask)
  /-- The listed positions instead of all others. -/
  | ofBits (bits : List Nat)
  /-- The positions below a width instead of all others. -/
  | ones (width : Nat)

namespace Edit

/-- **apply** — the mask after a step. -/
def apply (m : BitMask) : Edit → BitMask
  | set bit => m.set bit
  | union other => m.union other
  | ofBits bits => .ofBits bits
  | ones width => .ones width

/-- **Adds** — the step puts a position into the mask. -/
def Adds : Edit → Nat → Prop
  | set bit, b => b = bit
  | union other, b => other.toNat.testBit b
  | ofBits bits, b => b ∈ bits
  | ones width, b => b < width

/-- **replaces** — the step forgets what was in the mask. -/
def replaces : Edit → Bool
  | set _ => false
  | union _ => false
  | ofBits _ => true
  | ones _ => true

end Edit

/-- **run** — the mask after some steps. -/
def run (m : BitMask) (es : List Edit) : BitMask := es.foldl Edit.apply m

/-- **Inserted** — a step puts a position into the mask, and no step after it replaces the mask. -/
def Inserted (es : List Edit) (b : Nat) : Prop :=
  ∃ before e after, es = before ++ e :: after ∧ e.Adds b ∧ ∀ x ∈ after, x.replaces = false

theorem inserted_cons {e : Edit} {es : List Edit} {b : Nat} : Inserted (e :: es) b ↔
    (e.Adds b ∧ ∀ x ∈ es, x.replaces = false) ∨ Inserted es b := by
  constructor
  · rintro ⟨before, x, after, h, hadds, hafter⟩
    cases before with
    | nil =>
      obtain ⟨rfl, rfl⟩ := List.cons.inj h
      exact .inl ⟨hadds, hafter⟩
    | cons y before =>
      obtain ⟨rfl, rfl⟩ := List.cons.inj h
      exact .inr ⟨before, x, after, rfl, hadds, hafter⟩
  · rintro (⟨hadds, hafter⟩ | ⟨before, x, after, rfl, hadds, hafter⟩)
    · exact ⟨[], e, es, rfl, hadds, hafter⟩
    · exact ⟨e :: before, x, after, rfl, hadds, hafter⟩

/-- After a step a mask has the positions that the step adds, and those before it unless the step
replaces them. -/
theorem testBit_apply (m : BitMask) (e : Edit) (b : Nat) : (e.apply m).toNat.testBit b ↔
    e.Adds b ∨ (e.replaces = false ∧ m.toNat.testBit b) := by
  rw [← contains_eq_testBit, ← contains_eq_testBit]
  cases e with
  | set bit => simp [Edit.apply, Edit.Adds, Edit.replaces, contains_set, or_comm]
  | union other =>
    simp [Edit.apply, Edit.Adds, Edit.replaces, contains_union, ← contains_eq_testBit, or_comm]
  | ofBits bits => simp [Edit.apply, Edit.Adds, Edit.replaces, contains_ofBits]
  | ones width => simp [Edit.apply, Edit.Adds, Edit.replaces, contains_ones]

/-- After any steps a mask has the positions that were put into it since it was last replaced. -/
theorem testBit_run (m : BitMask) (es : List Edit) (b : Nat) : (run m es).toNat.testBit b ↔
    Inserted es b ∨ ((∀ e ∈ es, e.replaces = false) ∧ m.toNat.testBit b) := by
  induction es generalizing m with
  | nil =>
    have hnone : ¬ Inserted [] b := by
      rintro ⟨before, e, after, h, -⟩
      simp at h
    simp [run, hnone]
  | cons e es ih =>
    show (run (e.apply m) es).toNat.testBit b ↔ _
    rw [ih, testBit_apply, inserted_cons, List.forall_mem_cons]
    tauto

/-! ## § Looking at a mask -/

/-- The number of a row of words has them as digits. -/
theorem numberOf_eq_ofDigits (ws : List (BitVec 64)) :
    numberOf ws = Nat.ofDigits (capacity 64) (ws.map BitVec.toNat) := by
  induction ws with
  | nil => rfl
  | cons w ws ih => rw [numberOf, ih, List.map_cons, Nat.ofDigits_cons]

/-- The last of the significant words is not zero. -/
theorem significant_getLast? (m : BitMask) : ∀ w ∈ m.significant.getLast?, w ≠ 0 := by
  intro w hw
  have hfirst := List.head?_dropWhile_not (· == 0) m.words.toList.reverse
  rw [significant, List.getLast?_reverse] at hw
  rw [Option.mem_def.1 hw] at hfirst
  simpa using hfirst

/-- The significant words are the digits of the number of the mask. -/
theorem digits_toNat (m : BitMask) :
    Nat.digits (capacity 64) m.toNat = m.significant.map BitVec.toNat := by
  have hnumber : m.toNat = Nat.ofDigits (capacity 64) (m.significant.map BitVec.toNat) := by
    rw [← numberOf_eq_ofDigits, significant, numberOf_dropWhile, List.reverse_reverse, toNat]
  rw [hnumber]
  apply Nat.digits_ofDigits _ (by decide)
  · intro d hd
    obtain ⟨w, -, rfl⟩ := List.mem_map.1 hd
    exact w.isLt
  · intro hne
    have hwords : m.significant ≠ [] := mt List.map_eq_nil_iff.2 hne
    have hlast := significant_getLast? m _ (List.getLast?_eq_some_getLast hwords)
    rw [List.getLast_map]
    exact fun hzero => hlast (BitVec.eq_of_toNat_eq hzero)

/-- A mask is empty when its number is zero. -/
theorem isEmpty_iff (m : BitMask) : m.isEmpty = true ↔ m.toNat = 0 := by
  rw [isEmpty, List.isEmpty_iff, ← List.map_eq_nil_iff (f := BitVec.toNat), ← digits_toNat,
    Nat.digits_eq_nil_iff_eq_zero]

/-- A mask is a value when its number has 128 bits, and then it is this number. -/
theorem toValue?_eq_some_iff (m : BitMask) {value : Nat} :
    m.toValue? = some value ↔ value = m.toNat ∧ m.toNat < capacity 128 := by
  have hlength : m.significant.length ≤ 2 ↔ m.toNat < capacity 128 := by
    have hweight : capacity 128 = capacity 64 ^ 2 := by decide
    rw [hweight, ← Nat.digits_length_le_iff (by decide), digits_toNat, List.length_map]
  rw [toValue?, low128_eq_mod]
  split
  · rename_i h
    have hlt := hlength.1 h
    rw [Nat.mod_eq_of_lt hlt, Option.some.injEq, eq_comm]
    exact (and_iff_left hlt).symm
  · rename_i h
    simp [mt hlength.2 h]

/-- Masks hold the same bits when they have the same number. -/
theorem same_iff (m n : BitMask) : m.same n = true ↔ m.toNat = n.toNat := by
  have hinj : Function.Injective (BitVec.toNat : BitVec 64 → Nat) :=
    fun _ _ => BitVec.eq_of_toNat_eq
  rw [same, beq_iff_eq, ← (List.map_injective_iff.2 hinj).eq_iff, ← digits_toNat, ← digits_toNat,
    Nat.digits_inj_iff]

/-- A mask holds the bits of a value when this value is its number. -/
theorem sameAsValue_iff (m : BitMask) {value : Nat} (h : value < capacity 128) :
    m.sameAsValue value = true ↔ m.toNat = value := by
  rw [sameAsValue, beq_iff_eq, toValue?_eq_some_iff]
  constructor
  · exact fun hvalue => hvalue.1.symm
  · rintro rfl
    exact ⟨rfl, h⟩

/-- The text of a mask has no zero in front, unless it is the text of zero. -/
theorem head?_hex (m : BitMask) (h : m.toNat ≠ 0) : m.hex.toList.head? ≠ some '0' := by
  rw [hex_eq, Text.hex, String.toList_ofList]
  exact Text.head?_toDigits (by decide) h

/-! ## § Sets of positions -/

/-- **A mask is the set of its positions.** Its number is the sum of its words by their places,
whatever zeros stand at the end of them. However a mask is made, this number has the bits that were
put in since it was last replaced; and whatever is asked of a mask is asked of this number. -/
theorem set_of_positions :
    (∀ m : BitMask, m.toNat
      = ∑ i ∈ Finset.range m.words.size, (m.words.getD i 0).toNat * capacity (64 * i)) ∧
    (∀ es b, (run empty es).toNat.testBit b = true ↔ Inserted es b) ∧
    (∀ m es b, (run m es).toNat.testBit b = true ↔
      Inserted es b ∨ ((∀ e ∈ es, e.replaces = false) ∧ m.toNat.testBit b = true)) ∧
    ∀ m : BitMask, (∀ b, m.contains b = m.toNat.testBit b) ∧
      (m.isEmpty = true ↔ m.toNat = 0) ∧
      (∀ shift width, shift + min width 64 ≤ capacity 32 →
        m.window shift width = (m.toNat >>> shift) % capacity (min width 64)) ∧
      m.low128 = m.toNat % capacity 128 ∧
      (∀ value, m.toValue? = some value ↔ value = m.toNat ∧ m.toNat < capacity 128) ∧
      (∀ n : BitMask, m.same n = true ↔ m.toNat = n.toNat) ∧
      (∀ value, value < capacity 128 → (m.sameAsValue value = true ↔ m.toNat = value)) ∧
      m.hex.toList = Nat.toDigits 16 m.toNat ∧
      (m.toNat ≠ 0 → m.hex.toList.head? ≠ some '0') := by
  refine ⟨toNat_eq_sum, fun es b => ?_, testBit_run, fun m => ?_⟩
  · have hzero : empty.toNat = 0 := rfl
    rw [testBit_run, hzero, Nat.zero_testBit]
    simp
  · refine ⟨contains_eq_testBit m, isEmpty_iff m, fun shift width => window_eq_mod m,
      low128_eq_mod m, fun value => toValue?_eq_some_iff m, same_iff m,
      fun value => sameAsValue_iff m, ?_, head?_hex m⟩
    rw [hex_eq, Text.hex, String.toList_ofList]

/-- **padded** — bits 1 and 70, and words of zeros behind them. -/
def padded : BitMask := ⟨#[2, 64, 0, 0]⟩

/-- The mask with zeros behind its words looks like the one without them. The last eight of its bits
are taken up to the last position there is. -/
theorem set_of_positions_padded :
    padded.toNat = capacity 70 + 2 ∧
    (64 + min 8 64 ≤ capacity 32 ∧ padded.window 64 8 = 64) ∧
    (capacity 32 - 8 + min 8 64 ≤ capacity 32 ∧ padded.window (capacity 32 - 8) 8 = 0) ∧
    (capacity 70 + 2 < capacity 128 ∧ padded.sameAsValue (capacity 70 + 2) = true) ∧
    padded.same (run empty [.ones 9, .ofBits [70], .set 1]) = true ∧
    padded.hex.toList.head? ≠ some '0' := by
  obtain ⟨-, hmade, -, hlook⟩ := set_of_positions
  obtain ⟨-, -, hwindow, -, -, hsame, hvalue, -, hhead⟩ := hlook padded
  have hnumber : padded.toNat = capacity 70 + 2 := by decide
  have hrun : (run empty [.ones 9, .ofBits [70], .set 1]).toNat = capacity 70 + 2 := by decide
  refine ⟨hnumber, ⟨by decide, ?_⟩, ⟨by decide, ?_⟩, ⟨by decide, ?_⟩, ?_, hhead ?_⟩
  · rw [hwindow _ _ (by decide), hnumber]
    decide
  · rw [hwindow _ _ (by decide), hnumber]
    decide
  · exact (hvalue _ (by decide)).2 hnumber
  · exact (hsame _).2 (hnumber.trans hrun.symm)
  · rw [hnumber]
    decide

end RegisterMap.BitMask
