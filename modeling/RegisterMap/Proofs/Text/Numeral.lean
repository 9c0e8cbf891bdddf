import RegisterMap.Text.Numeral

/-!
# Numerals — what is written is read again

Digits are written most significant first and read with an accumulator, so reading goes by the last
digit. A literal of a header says its base by how it starts; numbers in base ten start with a zero
only when they are zero, so none of them is taken for one in base eight.

## § What is here

* `readDigits_toDigits` — the digits of a number spell it;
* `readLiteral` — the number of a literal, by the rules for its base;
* `readLiteral_decimal`, `readLiteral_hex` — both kinds of literals are read as they are meant.
-/

namespace RegisterMap.Text

/-! ## § Digits -/

theorem digitValue_digitChar : ∀ d < 16, digitValue d.digitChar = some d := by decide

theorem digitIn_digitChar {base d : Nat} (hbase : base ≤ 16) (hd : d < base) :
    digitIn base d.digitChar = some d := by
  rw [digitIn, digitValue_digitChar d (Nat.lt_of_lt_of_le hd hbase)]
  simpa using hd

/-- The last digit is read after all others. -/
theorem readDigits_concat (base acc : Nat) (cs : List Char) (c : Char) :
    readDigits base acc (cs ++ [c])
      = (readDigits base acc cs).bind fun n => (digitIn base c).map (n * base + ·) := by
  induction cs generalizing acc with
  | nil =>
    simp only [List.nil_append, readDigits, Option.bind_some]
    cases digitIn base c with
    | none => rfl
    | some d => rfl
  | cons x xs ih =>
    simp only [List.cons_append, readDigits]
    cases digitIn base x with
    | none => rfl
    | some d => exact ih (acc * base + d)

/-- The digits of a number spell it. -/
theorem readDigits_toDigits {base : Nat} (hone : 1 < base) (hbase : base ≤ 16) (n : Nat) :
    readDigits base 0 (Nat.toDigits base n) = some n := by
  induction n using Nat.strongRecOn with
  | ind n ih =>
    by_cases hn : n < base
    · rw [Nat.toDigits_of_lt_base hn, readDigits, digitIn_digitChar hbase hn]
      simp [readDigits]
    · have hle : base ≤ n := Nat.le_of_not_lt hn
      have hless : n / base < n := Nat.div_lt_self (by omega) hone
      have hlast : n % base < base := Nat.mod_lt n (by omega)
      rw [Nat.toDigits_of_base_le hone hle, readDigits_concat, ih _ hless,
        digitIn_digitChar hbase hlast, Option.bind_some, Option.map_some, Nat.mul_comm,
        Nat.div_add_mod]

/-- Only zero is written with a zero first. -/
theorem head?_toDigits {base n : Nat} (hone : 1 < base) (hn : n ≠ 0) :
    (Nat.toDigits base n).head? ≠ some '0' := by
  induction n using Nat.strongRecOn with
  | ind n ih =>
    by_cases hlt : n < base
    · rw [Nat.toDigits_of_lt_base hlt]
      simpa using hn
    · have hle : base ≤ n := Nat.le_of_not_lt hlt
      have hpos : n / base ≠ 0 := Nat.div_ne_zero_iff.2 ⟨by omega, hle⟩
      have hless : n / base < n := Nat.div_lt_self (by omega) hone
      rw [Nat.toDigits_of_base_le hone hle, List.head?_append]
      cases hhead : (Nat.toDigits base (n / base)).head? with
      | none => exact absurd (List.head?_eq_none_iff.1 hhead) Nat.toDigits_ne_nil
      | some c =>
        rw [Option.some_or, ← hhead]
        exact ih _ hless hpos

/-! ## § Literals -/

/-- **readLiteral** — the number that a literal spells: after `0x` in base sixteen, after another
zero in base eight, and otherwise in base ten. -/
def readLiteral : List Char → Option Nat
  | [] => none
  | '0' :: 'x' :: d :: ds => readDigits 16 0 (d :: ds)
  | '0' :: 'X' :: d :: ds => readDigits 16 0 (d :: ds)
  | '0' :: ds => readDigits 8 0 ds
  | d :: ds => readDigits 10 0 (d :: ds)

theorem readLiteral_decimal (n : Nat) : readLiteral (decimal n).toList = some n := by
  rw [decimal]
  by_cases hn : n = 0
  · subst hn
    rfl
  · have hhead : (Nat.toDigits 10 n).head? ≠ some '0' := head?_toDigits (by decide) hn
    have hread : readDigits 10 0 (Nat.toDigits 10 n) = some n :=
      readDigits_toDigits (by decide) (by decide) n
    cases hcs : Nat.toDigits 10 n with
    | nil => exact absurd hcs Nat.toDigits_ne_nil
    | cons c cs =>
      rw [hcs] at hhead hread
      have hc : c ≠ '0' := fun h => hhead (by rw [h]; rfl)
      rw [String.toList_ofList]
      -- Only the last of the five forms has no zero first.
      unfold readLiteral
      split <;> simp_all

theorem readLiteral_hex (n : Nat) : readLiteral ("0x" ++ hex n).toList = some n := by
  have hread : readDigits 16 0 (Nat.toDigits 16 n) = some n :=
    readDigits_toDigits (by decide) (by decide) n
  rw [hex, String.toList_append]
  cases hcs : Nat.toDigits 16 n with
  | nil => exact absurd hcs Nat.toDigits_ne_nil
  | cons c cs =>
    rw [hcs] at hread
    show readLiteral ('0' :: 'x' :: (String.ofList (c :: cs)).toList) = some n
    rw [String.toList_ofList]
    exact hread

end RegisterMap.Text
