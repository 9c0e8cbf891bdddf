import Mathlib.Data.List.TakeWhile
import Mathlib.Data.Nat.Digits.Defs
import RegisterMap.Proofs.Text.LetterCase
import RegisterMap.Proofs.Text.Numeral
import RegisterMap.Text.Integer

/-!
# Integer texts — which texts are read, and as which numbers

A text spells a number when nothing but digits of one base is left of it, after the mark of this
base and perhaps a plus sign. Here the number is the sum of its digits, each with the weight of its
place; reading finds it from left to right.

## § What is here

* `Denotes`, `Spells` — digits and the number they stand for, texts and the number they spell;
* `digitIn_eq_some_iff`, `readDigits_eq_some_iff`, `readNumeral_eq_some_iff` — reading, digit by
  digit;
* `readInteger_eq_some_iff` — exactly the texts that spell a number are read, as this number;
* `Spells.not_mem_colon`, `spells_toDigits` — no number has a colon, all numbers spell themselves.
-/

namespace RegisterMap.Text

/-! ## § Spelling -/

/-- **Denotes** — digits of a base, the most significant one first, and the number that they stand
for. -/
def Denotes (base : Nat) (cs : List Char) (n : Nat) : Prop :=
  ∃ ds : List Nat, ds ≠ [] ∧ (∀ d ∈ ds, d < base) ∧ cs = ds.map Nat.digitChar ∧
    n = Nat.ofDigits base ds.reverse

/-- **marks** — what stands before the digits of a base. -/
def Integer.marks : List (List Char × Nat) :=
  [([], 10), (['0', 'x'], 16), (['0', 'o'], 8), (['0', 'b'], 2)]

/-- **Spells** — a text is a number of 64 bits, written in one of the bases, with a plus sign or
without one. Blanks around it, underscores and the case of its letters do not count. -/
def Spells (cs : List Char) (n : Nat) : Prop :=
  n < capacity 64 ∧ ∃ m ∈ Integer.marks, ∃ plus, (plus = [] ∨ plus = ['+']) ∧
    ∃ digits, Integer.plain cs = m.1 ++ (plus ++ digits) ∧ Denotes m.2 digits n

/-! ## § Digits -/

/-- The digits of the bases up to sixteen are the decimal ones and the first small letters. -/
theorem toNat_digitChar : ∀ d < 16, d.digitChar.toNat = if d < 10 then 48 + d else 87 + d := by
  decide

/-- A character is a digit when its small form is. -/
theorem digitIn_eq_some_iff {base : Nat} (hbase : base ≤ 16) {c : Char} {d : Nat} :
    digitIn base c = some d ↔ d < base ∧ c.toLower = d.digitChar := by
  have hvalue : ∀ e < 16, digitValue c = some e ↔ c.toLower = e.digitChar := by
    intro e he
    rw [← Char.toNat_inj, toNat_toLower, toNat_digitChar e he]
    have h0 : '0'.toNat = 48 := rfl
    have ha : 'a'.toNat = 97 := rfl
    have hA : 'A'.toNat = 65 := rfl
    have hdigit : '0' ≤ c ∧ c ≤ '9' ↔ 48 ≤ c.toNat ∧ c.toNat ≤ 57 := Iff.rfl
    have hsmall : 'a' ≤ c ∧ c ≤ 'z' ↔ 97 ≤ c.toNat ∧ c.toNat ≤ 122 := Iff.rfl
    have hcapital : 'A' ≤ c ∧ c ≤ 'Z' ↔ 65 ≤ c.toNat ∧ c.toNat ≤ 90 := Iff.rfl
    simp only [digitValue, hdigit, hsmall, hcapital, h0, ha, hA]
    split
    · rw [if_neg (by omega), Option.some.injEq]
      split <;> omega
    · split
      · rw [if_neg (by omega), Option.some.injEq]
        split <;> omega
      · split
        · rw [Option.some.injEq]
          split <;> omega
        · simp only [reduceCtorEq, false_iff]
          split <;> omega
  rw [digitIn, Option.filter_eq_some_iff, decide_eq_true_eq, and_comm]
  constructor
  · rintro ⟨hd, hc⟩
    exact ⟨hd, (hvalue d (by omega)).1 hc⟩
  · rintro ⟨hd, hc⟩
    exact ⟨hd, (hvalue d (by omega)).2 hc⟩

/-- Digits are read from left to right, each one after what stands before it. -/
theorem readDigits_eq_some_iff {base : Nat} (hbase : base ≤ 16) {acc n : Nat} {cs : List Char} :
    readDigits base acc cs = some n ↔ ∃ ds : List Nat, (∀ d ∈ ds, d < base) ∧
      cs.map Char.toLower = ds.map Nat.digitChar ∧ n = ds.foldl (fun m d => d + base * m) acc := by
  induction cs generalizing acc with
  | nil =>
    rw [readDigits]
    constructor
    · intro h
      exact ⟨[], by simp, rfl, (Option.some.inj h).symm⟩
    · rintro ⟨ds, -, hds, rfl⟩
      obtain rfl : ds = [] := List.map_eq_nil_iff.1 hds.symm
      rfl
  | cons c cs ih =>
    rw [readDigits]
    constructor
    · intro h
      cases hd : digitIn base c with
      | none =>
        rw [hd] at h
        cases h
      | some d =>
        rw [hd] at h
        obtain ⟨hlt, hc⟩ := (digitIn_eq_some_iff hbase).1 hd
        obtain ⟨ds, hds, hcs, hn⟩ := ih.1 h
        refine ⟨d :: ds, List.forall_mem_cons.2 ⟨hlt, hds⟩, ?_, ?_⟩
        · rw [List.map_cons, List.map_cons, hc, hcs]
        · rw [hn, List.foldl_cons, Nat.mul_comm base, Nat.add_comm d]
    · rintro ⟨ds, hds, hcs, hn⟩
      cases ds with
      | nil => cases hcs
      | cons d ds =>
        obtain ⟨hlt, hrest⟩ := List.forall_mem_cons.1 hds
        obtain ⟨hc, htail⟩ := List.cons.inj hcs
        rw [(digitIn_eq_some_iff hbase).2 ⟨hlt, hc⟩]
        apply ih.2
        refine ⟨ds, hrest, htail, ?_⟩
        rw [hn, List.foldl_cons, Nat.mul_comm base, Nat.add_comm d]

/-- One or more digits are read as the number that they denote. -/
theorem readDigits_eq_some_iff_denotes {base n : Nat} (hbase : base ≤ 16) {cs : List Char}
    (hsmall : cs.map Char.toLower = cs) (hne : cs ≠ []) :
    readDigits base 0 cs = some n ↔ Denotes base cs n := by
  have hsum : ∀ ds : List Nat,
      ds.foldl (fun m d => d + base * m) 0 = Nat.ofDigits base ds.reverse := by
    intro ds
    rw [Nat.ofDigits_eq_foldr, List.foldr_reverse]
    rfl
  rw [readDigits_eq_some_iff hbase, hsmall]
  constructor
  · rintro ⟨ds, hds, rfl, rfl⟩
    exact ⟨ds, fun h => hne (by rw [h]; rfl), hds, rfl, hsum ds⟩
  · rintro ⟨ds, -, hds, rfl, rfl⟩
    exact ⟨ds, hds, rfl, (hsum ds).symm⟩

/-- Digits do not start with a plus sign. -/
theorem Denotes.dropPlus_eq {base n : Nat} (hbase : base ≤ 16) {cs : List Char}
    (h : Denotes base cs n) : dropPlus cs = cs := by
  obtain ⟨ds, hne, hds, rfl, -⟩ := h
  cases ds with
  | nil => exact absurd rfl hne
  | cons d ds =>
    have hlt : d < base := hds d List.mem_cons_self
    have hplus : d.digitChar ≠ '+' := by
      intro e
      have hchar := toNat_digitChar d (by omega)
      have hsign : '+'.toNat = 43 := rfl
      rw [e, hsign] at hchar
      split at hchar <;> omega
    rw [List.map_cons]
    unfold dropPlus
    split
    · rename_i heq
      exact absurd (List.cons.inj heq).1 hplus
    · rfl

/-- A numeral is a plus sign or none, and digits after it. -/
theorem readNumeral_eq_some_iff {base limit n : Nat} (hbase : base ≤ 16) {cs : List Char}
    (hsmall : cs.map Char.toLower = cs) :
    readNumeral base limit cs = some n ↔ n < limit ∧ ∃ plus, (plus = [] ∨ plus = ['+']) ∧
      ∃ digits, cs = plus ++ digits ∧ Denotes base digits n := by
  have hread : readNumeral base limit cs = some n ↔
      n < limit ∧ dropPlus cs ≠ [] ∧ readDigits base 0 (dropPlus cs) = some n := by
    unfold readNumeral
    split
    · rename_i hnil
      simp [hnil]
    · rename_i d ds hcs
      rw [Option.filter_eq_some_iff, decide_eq_true_eq, hcs, and_comm]
      simp
  have hdrop : (dropPlus cs).map Char.toLower = dropPlus cs := by
    unfold dropPlus
    split
    · exact (List.cons.inj hsmall).2
    · exact hsmall
  rw [hread]
  constructor
  · rintro ⟨hlt, hne, hdigits⟩
    have hdenotes := (readDigits_eq_some_iff_denotes hbase hdrop hne).1 hdigits
    by_cases hplus : ∃ rest, cs = '+' :: rest
    · obtain ⟨rest, rfl⟩ := hplus
      exact ⟨hlt, ['+'], .inr rfl, rest, rfl, hdenotes⟩
    · have hsame : dropPlus cs = cs := by
        unfold dropPlus
        split
        · exact absurd ⟨_, rfl⟩ hplus
        · rfl
      rw [hsame] at hdenotes
      exact ⟨hlt, [], .inl rfl, cs, rfl, hdenotes⟩
  · rintro ⟨hlt, plus, hplus, digits, rfl, hdenotes⟩
    have hsame : dropPlus (plus ++ digits) = digits := by
      rcases hplus with rfl | rfl
      · exact hdenotes.dropPlus_eq hbase
      · rfl
    have hne : digits ≠ [] := by
      obtain ⟨ds, hds, -, rfl, -⟩ := hdenotes
      exact fun h => hds (List.map_eq_nil_iff.1 h)
    rw [hsame] at hdrop ⊢
    exact ⟨hlt, hne, (readDigits_eq_some_iff_denotes hbase hdrop hne).2 hdenotes⟩

/-! ## § Blanks -/

theorem mem_dropWhile_isBlank {cs : List Char} {c : Char} (hc : c ∈ cs)
    (hblank : isBlank c = false) :
    c ∈ cs.dropWhile isBlank := by
  rw [← List.takeWhile_append_dropWhile (p := isBlank) (l := cs)] at hc
  rcases List.mem_append.1 hc with hfirst | hrest
  · rw [List.mem_takeWhile_imp hfirst] at hblank
    cases hblank
  · exact hrest

/-- Trimming keeps all characters that are not blank. -/
theorem mem_trim {cs : List Char} {c : Char} (hc : c ∈ cs) (hblank : isBlank c = false) :
    c ∈ trim cs := by
  rw [trim, List.mem_reverse]
  exact mem_dropWhile_isBlank (List.mem_reverse.2 (mem_dropWhile_isBlank hc hblank)) hblank

theorem dropWhile_isBlank_eq_self {cs : List Char} (h : ∀ c ∈ cs, isBlank c = false) :
    cs.dropWhile isBlank = cs := by
  cases cs with
  | nil => rfl
  | cons c cs =>
    rw [List.dropWhile_cons_of_neg]
    rw [h c List.mem_cons_self]
    exact Bool.false_ne_true

/-- A text without blanks is left as it is. -/
theorem trim_eq_self {cs : List Char} (h : ∀ c ∈ cs, isBlank c = false) : trim cs = cs := by
  rw [trim, dropWhile_isBlank_eq_self h,
    dropWhile_isBlank_eq_self fun c hc => h c (List.mem_reverse.1 hc), List.reverse_reverse]

/-! ## § Integers -/

theorem map_toLower_plain (cs : List Char) :
    (Integer.plain cs).map Char.toLower = Integer.plain cs := by
  rw [Integer.plain, List.map_map]
  congr 1
  funext c
  exact toLower_toLower c

/-- Every plain text starts with the mark by which it is read. -/
theorem exists_mark (cs : List Char) : ∃ m ∈ Integer.marks, ∃ rest, cs = m.1 ++ rest ∧
    Integer.readPlain cs = readNumeral m.2 (capacity 64) rest := by
  unfold Integer.readPlain
  split
  · exact ⟨(['0', 'x'], 16), by simp [Integer.marks], _, rfl, rfl⟩
  · exact ⟨(['0', 'o'], 8), by simp [Integer.marks], _, rfl, rfl⟩
  · exact ⟨(['0', 'b'], 2), by simp [Integer.marks], _, rfl, rfl⟩
  · exact ⟨([], 10), by simp [Integer.marks], cs, rfl, rfl⟩

theorem base_le_of_mem_marks : ∀ m ∈ Integer.marks, m.2 ≤ 16 := by decide

/-- The characters of a number are digits of its base. -/
theorem Denotes.exists_digit {base n : Nat} {cs : List Char} (h : Denotes base cs n) {c : Char}
    (hc : c ∈ cs) : ∃ d < base, c = d.digitChar := by
  obtain ⟨ds, -, hds, rfl, -⟩ := h
  obtain ⟨d, hd, rfl⟩ := List.mem_map.1 hc
  exact ⟨d, hds d hd, rfl⟩

/-- Decimal digits are not taken for the mark of another base. -/
theorem readPlain_of_denotes {n : Nat} {plus digits : List Char} (hplus : plus = [] ∨ plus = ['+'])
    (h : Denotes 10 digits n) : Integer.readPlain (plus ++ digits)
      = readNumeral 10 (capacity 64) (plus ++ digits) := by
  have hchars : ∀ c ∈ plus ++ digits, c.toNat ≤ 57 := by
    intro c hc
    rcases List.mem_append.1 hc with hmem | hmem
    · rcases hplus with rfl | rfl
      · cases hmem
      · rw [List.mem_singleton.1 hmem]
        decide
    · obtain ⟨d, hd, rfl⟩ := h.exists_digit hmem
      rw [toNat_digitChar d (by omega), if_pos hd]
      omega
  unfold Integer.readPlain
  split
  · rename_i heq
    exact absurd (hchars 'x' (by rw [heq]; simp)) (by decide)
  · rename_i heq
    exact absurd (hchars 'o' (by rw [heq]; simp)) (by decide)
  · rename_i heq
    exact absurd (hchars 'b' (by rw [heq]; simp)) (by decide)
  · rfl

/-- Exactly the texts that spell a number are read, as the number that they spell. -/
theorem readInteger_eq_some_iff {cs : List Char} {n : Nat} :
    readInteger cs = some n ↔ Spells cs n := by
  have hsmall := map_toLower_plain cs
  unfold readInteger Spells
  generalize Integer.plain cs = p at hsmall
  constructor
  · intro h
    obtain ⟨m, hm, rest, rfl, hread⟩ := exists_mark p
    rw [List.map_append] at hsmall
    have hrest : rest.map Char.toLower = rest :=
      (List.append_inj hsmall (List.length_map _)).2
    rw [hread, readNumeral_eq_some_iff (base_le_of_mem_marks m hm) hrest] at h
    obtain ⟨hlt, plus, hplus, digits, rfl, hdenotes⟩ := h
    exact ⟨hlt, m, hm, plus, hplus, digits, rfl, hdenotes⟩
  · rintro ⟨hlt, m, hm, plus, hplus, digits, rfl, hdenotes⟩
    rw [List.map_append] at hsmall
    have hrest : (plus ++ digits).map Char.toLower = plus ++ digits :=
      (List.append_inj hsmall (List.length_map _)).2
    have hread : Integer.readPlain (m.1 ++ (plus ++ digits))
        = readNumeral m.2 (capacity 64) (plus ++ digits) := by
      simp only [Integer.marks, List.mem_cons, List.not_mem_nil, or_false] at hm
      rcases hm with rfl | rfl | rfl | rfl
      · show Integer.readPlain (plus ++ digits) = _
        exact readPlain_of_denotes hplus hdenotes
      · rfl
      · rfl
      · rfl
    rw [hread, readNumeral_eq_some_iff (base_le_of_mem_marks m hm) hrest]
    exact ⟨hlt, plus, hplus, digits, rfl, hdenotes⟩

/-- A text spells one number only. -/
theorem Spells.unique {cs : List Char} {m n : Nat} (hm : Spells cs m) (hn : Spells cs n) : m = n :=
  Option.some.inj ((readInteger_eq_some_iff.2 hm).symm.trans (readInteger_eq_some_iff.2 hn))

/-- No number is spelled with a colon. -/
theorem Spells.not_mem_colon {cs : List Char} {n : Nat} (h : Spells cs n) : ':' ∉ cs := by
  intro hmem
  obtain ⟨-, m, hm, plus, hplus, digits, hplain, hdenotes⟩ := h
  have hcolon : ':' ∈ Integer.plain cs := by
    rw [Integer.plain, List.mem_map]
    exact ⟨':', List.mem_filter.2 ⟨mem_trim hmem (by decide), by decide⟩, by decide⟩
  rw [hplain, List.mem_append, List.mem_append] at hcolon
  have hmark : ∀ x ∈ Integer.marks, ':' ∉ x.1 := by decide
  rcases hcolon with hfirst | hsign | hdigit
  · exact hmark m hm hfirst
  · rcases hplus with rfl | rfl
    · cases hsign
    · exact absurd (List.mem_singleton.1 hsign) (by decide)
  · obtain ⟨d, hd, hchar⟩ := hdenotes.exists_digit hdigit
    have hlt : d < 16 := Nat.lt_of_lt_of_le hd (base_le_of_mem_marks m hm)
    have hcode := toNat_digitChar d hlt
    have hcolon : ':'.toNat = 58 := rfl
    rw [← hchar, hcolon] at hcode
    split at hcode <;> omega

/-- A decimal number is written with decimal digits. -/
theorem toNat_of_mem_toDigits {n : Nat} {c : Char} (hc : c ∈ Nat.toDigits 10 n) :
    48 ≤ c.toNat ∧ c.toNat ≤ 57 :=
  Char.isDigit_iff_toNat.1 (Nat.isDigit_of_mem_toDigits (by decide) (by decide) hc)

/-- Between the control characters and the next block of Unicode only the space is blank. -/
theorem isBlank_eq_false {c : Char} (h : 33 ≤ c.toNat ∧ c.toNat ≤ 126) : isBlank c = false := by
  simp only [isBlank, Bool.or_eq_false_iff, Bool.and_eq_false_iff, decide_eq_false_iff_not,
    beq_eq_false_iff_ne]
  omega

/-- There is no blank in the digits of a number. -/
theorem isBlank_of_mem_toDigits {n : Nat} {c : Char} (hc : c ∈ Nat.toDigits 10 n) :
    isBlank c = false := by
  have hcode := toNat_of_mem_toDigits hc
  exact isBlank_eq_false ⟨by omega, by omega⟩

/-- The digits of a number are neither blanks nor underscores nor capital letters. -/
theorem plain_toDigits (n : Nat) : Integer.plain (Nat.toDigits 10 n) = Nat.toDigits 10 n := by
  have hdigit : ∀ c ∈ Nat.toDigits 10 n, 48 ≤ c.toNat ∧ c.toNat ≤ 57 := fun _ =>
    toNat_of_mem_toDigits
  have htrim : trim (Nat.toDigits 10 n) = Nat.toDigits 10 n :=
    trim_eq_self fun _ => isBlank_of_mem_toDigits
  have hfilter : (Nat.toDigits 10 n).filter (· ≠ '_') = Nat.toDigits 10 n := by
    apply List.filter_eq_self.2
    intro c hc
    have hcode := hdigit c hc
    apply decide_eq_true
    rintro rfl
    exact absurd hcode (by decide)
  rw [Integer.plain, htrim, hfilter]
  calc (Nat.toDigits 10 n).map Char.toLower = (Nat.toDigits 10 n).map id := by
        apply List.map_congr_left
        intro c hc
        have hcode := hdigit c hc
        apply Char.toNat_inj.1
        rw [toNat_toLower, if_neg (by omega)]
        rfl
    _ = Nat.toDigits 10 n := List.map_id _

/-- The digits of a number stand for it. -/
theorem denotes_toDigits (n : Nat) : Denotes 10 (Nat.toDigits 10 n) n := by
  have hsmall := map_toLower_plain (Nat.toDigits 10 n)
  rw [plain_toDigits] at hsmall
  apply (readDigits_eq_some_iff_denotes (by decide) hsmall Nat.toDigits_ne_nil).1
  exact readDigits_toDigits (by decide) (by decide) n

/-- A number of 64 bits is spelled by its decimal digits. -/
theorem spells_toDigits {n : Nat} (hn : n < capacity 64) : Spells (Nat.toDigits 10 n) n :=
  ⟨hn, ([], 10), by simp [Integer.marks], [], .inl rfl, Nat.toDigits 10 n, plain_toDigits n,
    denotes_toDigits n⟩

/-- A number below the limit is read from its decimal digits. -/
theorem readNumeral_toDigits {limit n : Nat} (hn : n < limit) :
    readNumeral 10 limit (Nat.toDigits 10 n) = some n := by
  have hsmall := map_toLower_plain (Nat.toDigits 10 n)
  rw [plain_toDigits] at hsmall
  exact (readNumeral_eq_some_iff (by decide) hsmall).2
    ⟨hn, [], .inl rfl, Nat.toDigits 10 n, rfl, denotes_toDigits n⟩

end RegisterMap.Text
