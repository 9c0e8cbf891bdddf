import RegisterMap.Arithmetic
import RegisterMap.Text.Numeral

/-!
# Bit masks — sets of bit positions

A register may span nine words of 64 bits, so a mask is a row of 64-bit words, the least
significant one first. Words of zeros at the end of the row carry no bit.

## § The number of a mask

`toNat` reads the words as one number. Bit `b` of that number says whether `b` is in the set, and
every other operation is the arithmetic one on this number.
-/

namespace RegisterMap

/-- **BitMask** — a set of bit positions, in words of 64 bits. -/
structure BitMask where
  words : Array (BitVec 64) := #[]
  deriving DecidableEq, Repr

namespace BitMask

/-! ## § Building -/

/-- **empty** — the mask without a bit. -/
def empty : BitMask := {}

/-- **widen** — the mask with at least so many words. -/
def widen (m : BitMask) (count : Nat) : BitMask :=
  ⟨m.words ++ Array.replicate (count - m.words.size) 0⟩

/-- **set** — the mask with one more bit. -/
def set (m : BitMask) (bit : Nat) : BitMask :=
  ⟨(m.widen (bit / 64 + 1)).words.modify (bit / 64) (· ||| (1#64 <<< (bit % 64)))⟩

/-- **ofBits** — the mask of the listed positions. -/
def ofBits (bits : List Nat) : BitMask := bits.foldl set empty

/-- **ofRange** — the mask of `count` positions from `first` on. -/
def ofRange (first : Nat) : Nat → BitMask
  | 0 => empty
  | count + 1 => (ofRange first count).set (first + count)

/-- **ones** — the mask of the positions below `width`. -/
def ones (width : Nat) : BitMask := ofRange 0 width

/-- **union** — the bits of either mask. -/
def union (m n : BitMask) : BitMask :=
  ⟨(m.widen n.words.size).words.mapIdx fun i w => w ||| n.words.getD i 0⟩

/-! ## § Looking -/

/-- **contains** — whether a position is in the set. -/
def contains (m : BitMask) (bit : Nat) : Bool := (m.words.getD (bit / 64) 0).getLsbD (bit % 64)

/-- **significant** — the words up to the last one that is not zero. -/
def significant (m : BitMask) : List (BitVec 64) :=
  (m.words.toList.reverse.dropWhile (· == 0)).reverse

/-- **isEmpty** — no bit is set. -/
def isEmpty (m : BitMask) : Bool := m.significant.isEmpty

/-- **window** — `width` bits, at most 64, from bit `shift` on. No position exceeds 32 bits. -/
def window (m : BitMask) (shift width : Nat) : Nat :=
  (List.range (min width 64)).foldl
    (fun acc i => if m.contains (min (shift + i) (capacity 32 - 1)) then acc ||| 1 <<< i else acc) 0

/-- **low128** — the lowest 128 bits. -/
def low128 (m : BitMask) : Nat := (m.words.getD 0 0).toNat ||| ((m.words.getD 1 0).toNat <<< 64)

/-- **toValue?** — the mask as a value of 128 bits, unless it reaches beyond them. -/
def toValue? (m : BitMask) : Option Nat :=
  if m.significant.length ≤ 2 then some m.low128 else none

/-- **same** — both masks hold the same bits. -/
def same (m n : BitMask) : Bool := m.significant == n.significant

/-- **sameAsValue** — the mask holds the bits of a value. -/
def sameAsValue (m : BitMask) (value : Nat) : Bool := m.toValue? == some value

/-- **hex** — the mask in base sixteen: its first word as it is, all others with sixteen digits. -/
def hex (m : BitMask) : String :=
  match m.significant.reverse with
  | [] => "0"
  | top :: rest =>
    rest.foldl (fun s w => s ++ Text.padLeft '0' 16 (Text.hex w.toNat)) (Text.hex top.toNat)

/-! ## § The number of a mask -/

/-- **numberOf** — the number that a row of words stands for. -/
def numberOf : List (BitVec 64) → Nat
  | [] => 0
  | w :: ws => w.toNat + capacity 64 * numberOf ws

/-- **toNat** — the number whose bits are the bits of the mask. -/
def toNat (m : BitMask) : Nat := numberOf m.words.toList

/-- Bit `64 * i + j` of a row of words is bit `j` of its word `i`. -/
theorem testBit_numberOf (ws : List (BitVec 64)) (b : Nat) :
    (numberOf ws).testBit b = (ws.getD (b / 64) 0).getLsbD (b % 64) := by
  induction ws generalizing b with
  | nil => simp [numberOf]
  | cons w ws ih =>
    have hw : w.toNat < 2 ^ 64 := w.isLt
    rw [numberOf, capacity, Nat.one_shiftLeft, Nat.add_comm, Nat.testBit_two_pow_mul_add _ hw]
    by_cases h : b < 64
    · have h0 : b / 64 = 0 := by omega
      have h1 : b % 64 = b := by omega
      simp [h, h0, h1, BitVec.getLsbD]
    · obtain ⟨c, rfl⟩ : ∃ c, b = c + 64 := ⟨b - 64, by omega⟩
      have h0 : (c + 64) / 64 = c / 64 + 1 := by omega
      have h1 : (c + 64) % 64 = c % 64 := by omega
      rw [if_neg h, h0, h1, Nat.add_sub_cancel, ih]
      simp

/-- Membership is a bit of the number. -/
theorem contains_eq_testBit (m : BitMask) (b : Nat) : m.contains b = m.toNat.testBit b := by
  rw [toNat, testBit_numberOf, contains]
  simp

theorem contains_widen (m : BitMask) (count b : Nat) :
    (m.widen count).contains b = m.contains b := by
  simp only [contains, widen, Array.getD_eq_getD_getElem?, Array.getElem?_append]
  split
  · rfl
  · rename_i h
    rw [Array.getElem?_replicate]
    split <;> simp [Array.getElem?_eq_none (Nat.le_of_not_lt h)]

/-- Setting a bit puts it into the set and changes no other bit. -/
theorem contains_set (m : BitMask) (bit b : Nat) :
    (m.set bit).contains b = (m.contains b || decide (b = bit)) := by
  rw [← contains_widen m (bit / 64 + 1) b]
  have hsize : bit / 64 < (m.widen (bit / 64 + 1)).words.size := by
    simp [widen]
    omega
  simp only [contains, set, Array.getD_eq_getD_getElem?, Array.getElem?_modify]
  by_cases hi : bit / 64 = b / 64
  · rw [← hi, if_pos rfl, Array.getElem?_eq_getElem hsize]
    by_cases hb : b = bit
    · subst hb
      simp [BitVec.getLsbD_shiftLeft]
      right
      omega
    · have : b % 64 ≠ bit % 64 := by omega
      simp [BitVec.getLsbD_shiftLeft, hb]
      omega
  · have hb : b ≠ bit := by rintro rfl; exact hi rfl
    simp [hi, hb]

@[simp] theorem contains_empty (b : Nat) : empty.contains b = false := by
  simp [contains, empty]

theorem contains_foldl_set (bits : List Nat) (m : BitMask) (b : Nat) :
    (bits.foldl set m).contains b = (m.contains b || decide (b ∈ bits)) := by
  induction bits generalizing m with
  | nil => simp
  | cons x xs ih => simp [ih, contains_set, Bool.or_assoc]

/-- A mask holds the positions that it is built of. -/
theorem contains_ofBits (bits : List Nat) (b : Nat) :
    (ofBits bits).contains b = decide (b ∈ bits) := by
  simp [ofBits, contains_foldl_set]

theorem contains_ofRange (first count b : Nat) :
    (ofRange first count).contains b = decide (first ≤ b ∧ b < first + count) := by
  induction count with
  | zero => simp [ofRange]
  | succ n ih =>
    rw [ofRange, contains_set, ih, ← Bool.decide_or, decide_eq_decide]
    omega

theorem contains_ones (width b : Nat) : (ones width).contains b = decide (b < width) := by
  simp [ones, contains_ofRange]

theorem contains_union (m n : BitMask) (b : Nat) :
    (m.union n).contains b = (m.contains b || n.contains b) := by
  rw [← contains_widen m n.words.size b]
  simp only [contains, union, Array.getD_eq_getD_getElem?, Array.getElem?_mapIdx]
  cases h : (m.widen n.words.size).words[b / 64]? with
  | some w => simp
  | none =>
    have hs : n.words.size ≤ b / 64 := by
      have := Array.getElem?_eq_none_iff.1 h
      simp [widen] at this
      omega
    simp [Array.getElem?_eq_none hs]

/-- The lowest 128 bits are the bits of the set below 128. -/
theorem testBit_low128 (m : BitMask) (b : Nat) :
    m.low128.testBit b = (decide (b < 128) && m.contains b) := by
  rw [low128, Nat.testBit_or, Nat.testBit_shiftLeft, BitVec.testBit_toNat, BitVec.testBit_toNat,
    contains]
  by_cases hlow : b < 64
  · have hword : b / 64 = 0 := by omega
    have hplace : b % 64 = b := by omega
    have hall : b < 128 := by omega
    have hhigh : ¬ b ≥ 64 := by omega
    simp [hword, hplace, hall, hhigh]
  · have hhigh : b ≥ 64 := by omega
    rw [BitVec.getLsbD_of_ge _ _ hhigh]
    by_cases hall : b < 128
    · have hword : b / 64 = 1 := by omega
      have hplace : b % 64 = b - 64 := by omega
      simp [hword, hplace, hhigh, hall]
    · rw [BitVec.getLsbD_of_ge _ (b - 64) (by omega)]
      simp [hall]

theorem low128_eq_mod (m : BitMask) : m.low128 = m.toNat % capacity 128 := by
  apply Nat.eq_of_testBit_eq
  intro i
  rw [testBit_low128, testBit_mod_capacity, contains_eq_testBit]

theorem testBit_foldl_bits (p : Nat → Bool) (is : List Nat) (acc b : Nat) :
    (is.foldl (fun acc i => if p i then acc ||| 1 <<< i else acc) acc).testBit b
      = (acc.testBit b || (decide (b ∈ is) && p b)) := by
  induction is generalizing acc with
  | nil => simp
  | cons i is ih =>
    rw [List.foldl_cons, ih]
    by_cases hb : b = i
    · subst hb
      cases p b <;> simp [Nat.testBit_shiftLeft]
    · have hone : (1 <<< i).testBit b = false := by
        rw [Nat.one_shiftLeft, Nat.testBit_two_pow]
        simpa using fun h => hb h.symm
      cases hp : p i <;> simp [hb, Nat.testBit_or, hone]

/-- Bit `i` of a window is the position `i` places above its start. -/
theorem testBit_window (m : BitMask) (shift width i : Nat) :
    (m.window shift width).testBit i
      = (decide (i < min width 64) && m.contains (min (shift + i) (capacity 32 - 1))) := by
  rw [window, testBit_foldl_bits]
  simp

/-- A window that does not reach beyond the last position takes bits out of the number. -/
theorem window_eq_mod (m : BitMask) {shift width : Nat}
    (h : shift + min width 64 ≤ capacity 32) :
    m.window shift width = (m.toNat >>> shift) % capacity (min width 64) := by
  apply Nat.eq_of_testBit_eq
  intro i
  rw [testBit_window, testBit_mod_capacity, Nat.testBit_shiftRight, contains_eq_testBit]
  by_cases hi : i < min width 64
  · have hplace : min (shift + i) (capacity 32 - 1) = shift + i := Nat.min_eq_left (by omega)
    rw [hplace]
  · simp [hi]

end BitMask

end RegisterMap
