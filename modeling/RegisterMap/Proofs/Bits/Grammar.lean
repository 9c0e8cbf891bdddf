import RegisterMap.Device.Build.Field
import RegisterMap.Proofs.Bits.WrittenForm
import RegisterMap.Proofs.Text.Trim

/-!
# The grammar of bits — which texts specify some, and which ones

A position is a decimal number with blanks around it and perhaps a plus sign in front. One position,
two of them from high to low, or a list of different ones specify bits. No position has a separator
in it, so no text has two of these forms, and where separators are mixed some part of the text is no
position.

## § What is here

* `Item`, `Listed`, `Written` — the grammar: positions, lists of them, and the forms of a text;
* `Text.readNumeral_decimal_iff`, `readPosition_eq_ok` — what is read as a position;
* `listed_iff` — lists, by induction on the parts between the commas;
* `ofChars_eq_ok` — exactly the texts of the grammar are read;
* `accepts_grammar` — and every other text is a fault of the description.
-/

namespace RegisterMap

/-! ## § Decimal numbers -/

namespace Text

/-- A character whose small form is no letter is its own small form. -/
theorem toLower_eq_self {c : Char} (h : c.toLower.toNat ≤ 57) : c.toLower = c := by
  apply Char.toNat_inj.1
  rw [toNat_toLower] at h ⊢
  split
  · rename_i hcapital
    rw [if_pos hcapital] at h
    omega
  · rfl

theorem toNat_digitChar_le {d : Nat} (hd : d < 10) : 48 ≤ d.digitChar.toNat ∧
    d.digitChar.toNat ≤ 57 := by
  rw [toNat_digitChar d (by omega), if_pos hd]
  omega

/-- Decimal digits have one case only. -/
theorem map_toLower_of_digits {cs : List Char} {ds : List Nat} (hds : ∀ d ∈ ds, d < 10)
    (hcs : cs.map Char.toLower = ds.map Nat.digitChar) : cs.map Char.toLower = cs := by
  calc cs.map Char.toLower = cs.map id := by
        apply List.map_congr_left
        intro c hc
        have hmem : c.toLower ∈ ds.map Nat.digitChar := hcs ▸ List.mem_map_of_mem hc
        obtain ⟨d, hd, hchar⟩ := List.mem_map.1 hmem
        exact toLower_eq_self (hchar ▸ (toNat_digitChar_le (hds d hd)).2)
    _ = cs := List.map_id _

/-- A decimal numeral is a plus sign or none, and decimal digits after it. -/
theorem readNumeral_decimal_iff {limit n : Nat} {cs : List Char} :
    readNumeral 10 limit cs = some n ↔ n < limit ∧ ∃ plus, (plus = [] ∨ plus = ['+']) ∧
      ∃ digits, cs = plus ++ digits ∧ Denotes 10 digits n := by
  constructor
  · intro h
    -- All that is read are digits, so no capital letter is among them.
    have hdigits : (dropPlus cs).map Char.toLower = dropPlus cs := by
      unfold readNumeral at h
      split at h
      · cases h
      · rename_i d ds hdrop
        obtain ⟨hread, -⟩ := Option.filter_eq_some_iff.1 h
        obtain ⟨es, hes, hchars, -⟩ := (readDigits_eq_some_iff (by decide)).1 hread
        rw [hdrop]
        exact map_toLower_of_digits hes hchars
    have hsmall : cs.map Char.toLower = cs := by
      unfold dropPlus at hdigits
      split at hdigits
      · rw [List.map_cons, hdigits]
        rfl
      · exact hdigits
    exact (readNumeral_eq_some_iff (by decide) hsmall).1 h
  · intro h
    have hsmall : cs.map Char.toLower = cs := by
      obtain ⟨-, plus, hplus, digits, rfl, ds, -, hds, rfl, -⟩ := h
      have hfixed : ∀ d < 10, d.digitChar.toLower = d.digitChar := by decide
      have hdigits : (ds.map Nat.digitChar).map Char.toLower = ds.map Nat.digitChar := by
        rw [List.map_map]
        exact List.map_congr_left fun d hd => hfixed d (hds d hd)
      rw [List.map_append, hdigits]
      rcases hplus with rfl | rfl
      · rfl
      · rfl
    exact (readNumeral_eq_some_iff (by decide) hsmall).2 h

end Text

namespace BitSpec

open Outcome

/-! ## § The grammar -/

/-- **Item** — a position: blanks, a plus sign or none, digits, and blanks. It has 32 bits. -/
def Item (cs : List Char) (p : Nat) : Prop :=
  p ≤ 4294967295 ∧ ∃ plus, (plus = [] ∨ plus = ['+']) ∧
    ∃ digits, Text.Trims cs (plus ++ digits) ∧ Text.Denotes 10 digits p

/-- **Listed** — positions with a comma between neighbours. -/
inductive Listed : List Char → List Nat → Prop
  | last {cs : List Char} {p : Nat} (item : Item cs p) : Listed cs [p]
  | next {cs rest : List Char} {p : Nat} {ps : List Nat} (item : Item cs p)
    (others : Listed rest ps) : Listed (cs ++ ',' :: rest) (p :: ps)

/-- **Written** — a text, without the blanks around it, and the bits that it specifies. -/
inductive Written : List Char → BitSpec → Prop
  | list {text : List Char} {ps : List Nat} (items : Listed text ps) (two : 2 ≤ ps.length)
    (different : ps.Nodup) : Written text (.list ps)
  | single {text : List Char} {p : Nat} (item : Item text p) : Written text (.range p p)
  | colon {high low : List Char} {hi lo : Nat} (first : Item high hi) (second : Item low lo)
    (order : lo ≤ hi) : Written (high ++ ':' :: low) (.range hi lo)
  | hyphen {high low : List Char} {hi lo : Nat} (first : Item high hi) (second : Item low lo)
    (order : lo ≤ hi) : Written (high ++ '-' :: low) (.range hi lo)

/-! ## § Positions -/

/-- What is read as a position is one. -/
theorem readPosition_eq_ok {text cs : List Char} {p : Nat} :
    readPosition text cs = .ok p ↔ Item cs p := by
  have hcap : capacity 32 = 4294967295 + 1 := by decide
  have hread : readPosition text cs = .ok p ↔
      Text.readNumeral 10 (capacity 32) (Text.trim cs) = some p := by
    rw [readPosition]
    cases Text.readNumeral 10 (capacity 32) (Text.trim cs) <;> simp
  simp only [hread, Text.readNumeral_decimal_iff, Item, Text.trims_iff, hcap, Nat.lt_succ_iff]

/-- A position consists of blanks, a plus sign and digits. -/
theorem Item.char {cs : List Char} {p : Nat} (h : Item cs p) {c : Char} (hc : c ∈ cs) :
    Text.isBlank c = true ∨ c = '+' ∨ (48 ≤ c.toNat ∧ c.toNat ≤ 57) := by
  obtain ⟨-, plus, hplus, digits, ⟨⟨before, after, rfl, hbefore, hafter⟩, -⟩, hdigits⟩ := h
  simp only [List.mem_append] at hc
  rcases hc with hblank | (hsign | hdigit) | hblank
  · exact .inl (hbefore c hblank)
  · rcases hplus with rfl | rfl
    · cases hsign
    · exact .inr (.inl (List.mem_singleton.1 hsign))
  · obtain ⟨d, hd, rfl⟩ := hdigits.exists_digit hdigit
    exact .inr (.inr (Text.toNat_digitChar_le hd))
  · exact .inl (hafter c hblank)

/-- No position has a separator in it. -/
theorem Item.not_mem {cs : List Char} {p : Nat} (h : Item cs p) :
    ',' ∉ cs ∧ ':' ∉ cs ∧ '-' ∉ cs := by
  refine ⟨fun hc => ?_, fun hc => ?_, fun hc => ?_⟩
  · exact absurd (h.char hc) (by decide)
  · exact absurd (h.char hc) (by decide)
  · exact absurd (h.char hc) (by decide)

/-! ## § Lists -/

/-- Positions with commas between them are read from the parts between the commas. -/
theorem listed_iff {text cs : List Char} {ps : List Nat} :
    (Text.splitOn ',' cs).mapM (readPosition text) = .ok ps ↔ Listed cs ps := by
  rw [mapM_eq_ok]
  simp only [readPosition_eq_ok]
  constructor
  · intro h
    generalize hparts : Text.splitOn ',' cs = parts at h
    induction h generalizing cs with
    | nil => exact absurd hparts (Text.splitOn_ne_nil ',' cs)
    | @cons part p parts ps item rest ih =>
      cases rest with
      | nil =>
        obtain ⟨-, rfl⟩ := Text.splitOn_eq_singleton_iff.1 hparts
        exact .last item
      | cons second others =>
        obtain ⟨behind, rfl, -, hbehind⟩ := Text.splitOn_eq_cons_iff.1 hparts
        exact .next item (ih hbehind)
  · intro h
    induction h with
    | last item =>
      rw [Text.splitOn_eq_singleton item.not_mem.1]
      exact .cons item .nil
    | next item others ih =>
      rw [Text.splitOn_append item.not_mem.1]
      exact .cons item ih

/-- A list of two positions or more has a comma. -/
theorem Listed.comma {text : List Char} {ps : List Nat} (h : Listed text ps)
    (two : 2 ≤ ps.length) : ',' ∈ text := by
  cases h with
  | last item => exact absurd two (by simp)
  | next item others => simp

/-- Two positions or more are accepted when they are different. -/
theorem ofPositions_eq_ok (text : List Char) {ps : List Nat} (two : 2 ≤ ps.length)
    {s : BitSpec} : ofPositions text ps = .ok s ↔ ps.Nodup ∧ s = .list ps := by
  constructor
  · intro h
    have hdifferent : ps.Nodup := by
      unfold ofPositions at h
      split at h
      · cases h
      · exact absurd two (by simp)
      · rename_i hnone
        exact (nodup_of_repeated?_eq_none hnone).1
    rw [ofPositions_of_nodup text two hdifferent] at h
    exact ⟨hdifferent, (Except.ok.inj h).symm⟩
  · rintro ⟨hdifferent, rfl⟩
    exact ofPositions_of_nodup text two hdifferent

/-! ## § Ranges -/

/-- One part is a position, two parts are a range from high to low, and more are nothing. -/
theorem ofRangeParts_eq_ok {text : List Char} {parts : List (List Char)} {s : BitSpec} :
    ofRangeParts text parts = .ok s ↔
      (∃ cs p, parts = [cs] ∧ Item cs p ∧ s = .range p p) ∨
      ∃ high low hi lo, parts = [high, low] ∧ Item high hi ∧ Item low lo ∧ lo ≤ hi ∧
        s = .range hi lo := by
  constructor
  · intro h
    unfold ofRangeParts at h
    split at h
    · obtain ⟨p, hp, hs⟩ := bind_eq_ok.1 h
      exact .inl ⟨_, p, rfl, readPosition_eq_ok.1 hp, (Except.ok.inj hs).symm⟩
    · obtain ⟨hi, hhi, hrest⟩ := bind_eq_ok.1 h
      obtain ⟨lo, hlo, hs⟩ := bind_eq_ok.1 hrest
      split at hs
      · cases hs
      · rename_i hle
        exact .inr ⟨_, _, hi, lo, rfl, readPosition_eq_ok.1 hhi, readPosition_eq_ok.1 hlo,
          Nat.le_of_not_lt hle, (Except.ok.inj hs).symm⟩
    · cases h
  · rintro (⟨cs, p, rfl, hp, rfl⟩ | ⟨high, low, hi, lo, rfl, hhi, hlo, hle, rfl⟩)
    · exact bind_eq_ok.2 ⟨p, readPosition_eq_ok.2 hp, rfl⟩
    · exact bind_eq_ok.2 ⟨hi, readPosition_eq_ok.2 hhi,
        bind_eq_ok.2 ⟨lo, readPosition_eq_ok.2 hlo, if_neg (Nat.not_lt.2 hle)⟩⟩

/-- A text without a colon falls into its parts between hyphens. -/
theorem rangeParts_of_not_mem {text : List Char} (h : ':' ∉ text) :
    rangeParts text = Text.splitOn '-' text := by
  rw [rangeParts, Text.splitOn_eq_singleton h]

/-- A text with a colon falls into its parts between colons. -/
theorem rangeParts_of_mem {text : List Char} (h : ':' ∈ text) :
    rangeParts text = Text.splitOn ':' text := by
  have htwo := Text.two_le_length_splitOn h
  unfold rangeParts
  split
  · rename_i hsingle
    rw [hsingle] at htwo
    exact absurd htwo (by simp)
  · rfl

/-- Without commas, a text specifies one position, or a range with a colon or a hyphen. -/
theorem ofRangeParts_rangeParts_eq_ok {text : List Char} {s : BitSpec} :
    ofRangeParts text (rangeParts text) = .ok s ↔
      (∃ p, Item text p ∧ s = .range p p) ∨
      ∃ high low hi lo, (text = high ++ ':' :: low ∨ text = high ++ '-' :: low) ∧ Item high hi ∧
        Item low lo ∧ lo ≤ hi ∧ s = .range hi lo := by
  rw [ofRangeParts_eq_ok]
  by_cases hcolon : ':' ∈ text
  · rw [rangeParts_of_mem hcolon]
    constructor
    · rintro (⟨cs, p, hparts, -, -⟩ | ⟨high, low, hi, lo, hparts, hrange⟩)
      · exact absurd hcolon (Text.splitOn_eq_singleton_iff.1 hparts).1
      · exact .inr ⟨high, low, hi, lo, .inl (Text.splitOn_eq_pair_iff.1 hparts).1, hrange⟩
    · rintro (⟨p, hp, -⟩ | ⟨high, low, hi, lo, rfl | rfl, hhi, hlo, hrange⟩)
      · exact absurd hcolon hp.not_mem.2.1
      · have hparts := Text.splitOn_eq_pair_iff.2 ⟨rfl, hhi.not_mem.2.1, hlo.not_mem.2.1⟩
        exact .inr ⟨high, low, hi, lo, hparts, hhi, hlo, hrange⟩
      · -- Two positions with a hyphen between them leave no place for a colon.
        rcases List.mem_append.1 hcolon with hmem | hmem
        · exact absurd hmem hhi.not_mem.2.1
        · rcases List.mem_cons.1 hmem with hsame | hmem
          · exact absurd hsame (by decide)
          · exact absurd hmem hlo.not_mem.2.1
  · rw [rangeParts_of_not_mem hcolon]
    constructor
    · rintro (⟨cs, p, hparts, hp, hs⟩ | ⟨high, low, hi, lo, hparts, hrange⟩)
      · obtain ⟨-, rfl⟩ := Text.splitOn_eq_singleton_iff.1 hparts
        exact .inl ⟨p, hp, hs⟩
      · exact .inr ⟨high, low, hi, lo, .inr (Text.splitOn_eq_pair_iff.1 hparts).1, hrange⟩
    · rintro (⟨p, hp, hs⟩ | ⟨high, low, hi, lo, rfl | rfl, hhi, hlo, hrange⟩)
      · exact .inl ⟨text, p, Text.splitOn_eq_singleton hp.not_mem.2.2, hp, hs⟩
      · exact absurd (by simp) hcolon
      · have hparts := Text.splitOn_eq_pair_iff.2 ⟨rfl, hhi.not_mem.2.2, hlo.not_mem.2.2⟩
        exact .inr ⟨high, low, hi, lo, hparts, hhi, hlo, hrange⟩

/-! ## § Texts -/

/-- A text without blanks around it specifies what it is written for. -/
theorem ofChars_eq_ok {text : List Char} {s : BitSpec} :
    ofChars text = .ok s ↔ Written text s := by
  rw [ofChars]
  by_cases hcomma : ',' ∈ text
  · rw [if_pos hcomma, bind_eq_ok]
    simp only [listed_iff]
    have htwo : ∀ {ps}, Listed text ps → 2 ≤ ps.length := by
      intro ps h
      have hread : (Text.splitOn ',' text).mapM (readPosition text) = .ok ps := listed_iff.2 h
      rw [← (mapM_eq_ok.1 hread).length_eq]
      exact Text.two_le_length_splitOn hcomma
    constructor
    · rintro ⟨ps, hps, h⟩
      obtain ⟨hdifferent, rfl⟩ := (ofPositions_eq_ok text (htwo hps)).1 h
      exact .list hps (htwo hps) hdifferent
    · intro h
      cases h with
      | list items two different =>
        exact ⟨_, items, (ofPositions_eq_ok text two).2 ⟨different, rfl⟩⟩
      | single item => exact absurd hcomma item.not_mem.1
      | colon first second order =>
        have hmem := hcomma
        simp [first.not_mem.1, second.not_mem.1] at hmem
      | hyphen first second order =>
        have hmem := hcomma
        simp [first.not_mem.1, second.not_mem.1] at hmem
  · rw [if_neg hcomma, ofRangeParts_rangeParts_eq_ok]
    constructor
    · rintro (⟨p, hp, rfl⟩ | ⟨high, low, hi, lo, rfl | rfl, hhi, hlo, hle, rfl⟩)
      · exact .single hp
      · exact .colon hhi hlo hle
      · exact .hyphen hhi hlo hle
    · intro h
      cases h with
      | list items two different => exact absurd (items.comma two) hcomma
      | single item => exact .inl ⟨_, item, rfl⟩
      | colon first second order => exact .inr ⟨_, _, _, _, .inl rfl, first, second, order, rfl⟩
      | hyphen first second order => exact .inr ⟨_, _, _, _, .inr rfl, first, second, order, rfl⟩

/-- **The grammar of bits.** A text is accepted exactly when it is written by the grammar, after the
blanks around it are taken away, and gives the bits that the grammar says. No position has a
separator in it. Every other text is a fault, and so is each field of a description that has it. -/
theorem accepts_grammar (text : String) :
    (∀ s, parse text = .ok s ↔ ∃ body, Text.Trims text.toList body ∧ Written body s) ∧
    (∀ cs p, Item cs p → ',' ∉ cs ∧ ':' ∉ cs ∧ '-' ∉ cs) ∧
    ((¬ ∃ s body, Text.Trims text.toList body ∧ Written body s) →
      ∃ fault, parse text = .error fault ∧ ∀ register last name desc opts,
        Field.bitsOf register last ⟨name, desc, .text text, opts⟩
          = .error (.schema (.badBits register name fault))) := by
  have haccept : ∀ s, parse text = .ok s ↔
      ∃ body, Text.Trims text.toList body ∧ Written body s := by
    intro s
    simp only [Text.trims_iff, exists_eq_left']
    exact ofChars_eq_ok
  refine ⟨haccept, fun cs p h => h.not_mem, fun hother => ?_⟩
  cases hparse : parse text with
  | ok s =>
    obtain ⟨body, hbody⟩ := (haccept s).1 hparse
    exact absurd ⟨s, body, hbody⟩ hother
  | error fault =>
    refine ⟨fault, rfl, fun register last name desc opts => ?_⟩
    exact bind_eq_error.2 (.inl (mapError_eq_error.2 ⟨fault, hparse, rfl⟩))

/-- A range with blanks and a sign is written by the grammar. A range with both separators is not:
the part behind the colon is no position. -/
theorem accepts_grammar_mixed :
    (∃ body, Text.Trims " 7 - +4\n".toList body ∧ Written body (.range 7 4)) ∧
    (¬ ∃ s body, Text.Trims "7:4-1".toList body ∧ Written body s) ∧
    ∃ fault, parse "7:4-1" = .error fault ∧ ∀ register last name desc opts,
      Field.bitsOf register last ⟨name, desc, .text "7:4-1", opts⟩
        = .error (.schema (.badBits register name fault)) := by
  have hread : parse " 7 - +4\n" = .ok (.range 7 4) := by decide +kernel
  have hfault : parse "7:4-1" = .error (.badPosition "4-1" "7:4-1") := by decide +kernel
  obtain ⟨haccept, -, hother⟩ := accepts_grammar "7:4-1"
  have hnone : ¬ ∃ s body, Text.Trims "7:4-1".toList body ∧ Written body s := by
    rintro ⟨s, hbody⟩
    rw [(haccept s).2 hbody] at hfault
    cases hfault
  exact ⟨((accepts_grammar " 7 - +4\n").1 _).1 hread, hnone, hother hnone⟩

end BitSpec

end RegisterMap
