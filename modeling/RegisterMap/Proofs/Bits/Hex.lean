import RegisterMap.Bits.Mask
import RegisterMap.Proofs.Text.Numeral

/-!
# Masks in base sixteen — word by word, and as one number

A mask is written from its most significant word on. That word has no leading zeros, and each word
behind it has sixteen digits. The text is the one of the number of the mask, however long it is.

## § What is here

* `Text.toDigits_padded` — a number of so many digits, written behind another number;
* `numberOf_reverse`, `numberOf_dropWhile` — the number of a mask from its most significant word on;
* `BitMask.hex_eq` — the text of a mask is the text of its number.
-/

namespace RegisterMap

/-! ## § Digits -/

namespace Text

variable {n : Nat}

/-- One more digit behind a number that is not zero. -/
theorem toDigits_append (hn : 0 < n) {d : Nat} (hd : d < 16) :
    Nat.toDigits 16 (16 * n + d) = Nat.toDigits 16 n ++ [d.digitChar] := by
  rw [← Nat.toDigits_append_toDigits (by decide) hn hd, Nat.toDigits_of_lt_base hd]

/-- A digit has four bits. -/
theorem capacity_digit (bits : Nat) : capacity (bits + 4) = 16 * capacity bits := by
  rw [capacity, capacity, Nat.shiftLeft_add, Nat.shiftLeft_eq _ 4, Nat.mul_comm]

/-- Behind a number that is not zero, a number below so many digits is written with all of them. -/
theorem toDigits_padded (hn : 0 < n) (count : Nat) {w : Nat} (hw : w < capacity (4 * count + 4)) :
    Nat.toDigits 16 (capacity (4 * count + 4) * n + w) = Nat.toDigits 16 n
      ++ (List.replicate (count + 1 - (Nat.toDigits 16 w).length) '0' ++ Nat.toDigits 16 w) := by
  -- The last digit is split off, so the induction is on the number of digits.
  induction count generalizing w with
  | zero =>
    have hdigit : w < 16 := hw
    show Nat.toDigits 16 (16 * n + w) = _
    rw [toDigits_append hn hdigit, Nat.toDigits_of_lt_base hdigit]
    rfl
  | succ count ih =>
    have hweight : capacity (4 * (count + 1) + 4) = 16 * capacity (4 * count + 4) :=
      capacity_digit (4 * count + 4)
    rw [hweight] at hw ⊢
    have hrest : w / 16 < capacity (4 * count + 4) := Nat.div_lt_of_lt_mul hw
    have hsplit : 16 * capacity (4 * count + 4) * n + w
        = 16 * (capacity (4 * count + 4) * n + w / 16) + w % 16 := by
      rw [Nat.mul_add, Nat.add_assoc _ (16 * (w / 16)), Nat.div_add_mod, Nat.mul_assoc]
    have hpos : 0 < capacity (4 * count + 4) * n + w / 16 :=
      Nat.add_pos_left (Nat.mul_pos (capacity_pos _) hn) _
    rw [hsplit, toDigits_append hpos (Nat.mod_lt w (by decide)), ih hrest]
    by_cases hdigit : w < 16
    · -- The number has one digit, so only zeros come before it.
      rw [Nat.div_eq_of_lt hdigit, Nat.mod_eq_of_lt hdigit, Nat.toDigits_of_lt_base hdigit,
        Nat.toDigits_of_lt_base (by decide : 0 < 16)]
      have hzero : Nat.digitChar 0 = '0' := rfl
      simp [hzero, ← List.replicate_succ']
    · rw [Nat.toDigits_of_base_le (by decide : 1 < 16) (Nat.le_of_not_lt hdigit)]
      simp

end Text

/-! ## § Words -/

namespace BitMask

/-- The number of a row of words, from the most significant one on. -/
theorem numberOf_reverse (ws : List (BitVec 64)) :
    numberOf ws.reverse = ws.foldl (fun n w => w.toNat + capacity 64 * n) 0 := by
  have hfold : ∀ us : List (BitVec 64),
      numberOf us = us.foldr (fun w n => w.toNat + capacity 64 * n) 0 := by
    intro us
    induction us with
    | nil => rfl
    | cons u us ih => rw [numberOf, ih, List.foldr_cons]
  rw [hfold, List.foldr_reverse]

/-- Words of zeros before all others do not matter. -/
theorem numberOf_dropWhile (ws : List (BitVec 64)) :
    numberOf (ws.dropWhile (· == 0)).reverse = numberOf ws.reverse := by
  rw [numberOf_reverse, numberOf_reverse]
  induction ws with
  | nil => rfl
  | cons w ws ih =>
    rw [List.dropWhile_cons]
    split
    · rename_i hw
      rw [ih, List.foldl_cons, eq_of_beq hw]
      rfl
    · rfl

/-- Words behind a number that is not zero are written with sixteen digits each. -/
theorem foldl_hex {n : Nat} (hn : 0 < n) (ws : List (BitVec 64)) :
    ws.foldl (fun s w => s ++ Text.padLeft '0' 16 (Text.hex w.toNat)) (Text.hex n)
      = Text.hex (ws.foldl (fun n w => w.toNat + capacity 64 * n) n) := by
  induction ws generalizing n with
  | nil => rfl
  | cons w ws ih =>
    have hword : Text.hex n ++ Text.padLeft '0' 16 (Text.hex w.toNat)
        = Text.hex (w.toNat + capacity 64 * n) := by
      have hlt : w.toNat < capacity (4 * 15 + 4) := w.isLt
      rw [Nat.add_comm, Text.hex, Text.hex, Text.hex, Text.toDigits_padded hn 15 hlt, Text.padLeft,
        String.length_ofList, String.ofList_append, String.ofList_append]
    have hpos : 0 < w.toNat + capacity 64 * n :=
      Nat.add_pos_right _ (Nat.mul_pos (capacity_pos 64) hn)
    rw [List.foldl_cons, List.foldl_cons, hword, ih hpos]

/-- The text of a mask is the text of its number. -/
theorem hex_eq (m : BitMask) : m.hex = Text.hex m.toNat := by
  have hnumber : m.toNat = numberOf (m.words.toList.reverse.dropWhile (· == 0)).reverse := by
    rw [numberOf_dropWhile, List.reverse_reverse, toNat]
  have hfirst := List.head?_dropWhile_not (· == 0) m.words.toList.reverse
  rw [hnumber, numberOf_reverse, hex, significant, List.reverse_reverse]
  cases hws : m.words.toList.reverse.dropWhile (· == 0) with
  | nil => rfl
  | cons top rest =>
    -- The first word that is left is not zero, so more digits can come behind it.
    have hpos : 0 < top.toNat := by
      rw [hws] at hfirst
      have hne : top ≠ 0 := by simpa using hfirst
      exact Nat.pos_of_ne_zero fun h => hne (BitVec.eq_of_toNat_eq h)
    rw [List.foldl_cons, Nat.mul_zero, Nat.add_zero]
    exact foldl_hex hpos rest

end BitMask

end RegisterMap
