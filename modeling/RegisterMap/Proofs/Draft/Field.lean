import RegisterMap.Proofs.Bits.WrittenForm
import RegisterMap.Proofs.Device.Build
import RegisterMap.Proofs.Draft.Scalar

/-!
# Fields of a draft — when they are accepted

A field is built from its draft exactly when the draft is valid. The field that a register without
fields gets is always valid: its text is made of the last bit of the register.

## § What is here

* `BitMask.le_window_ones_iff` — the greatest value of a field that is compared with a label;
* `Field.exists_optionOf_iff` — the labels of a field;
* `Field.exists_ofDraft_iff` — exactly the valid fields are built;
* `Register.valid_wholeField` — the field of all bits.
-/

namespace RegisterMap

open Outcome

/-! ## § Greatest values -/

/-- The lowest 64 of so many ones. -/
theorem BitMask.window_ones (width : Nat) : (ones width).window 0 64 = lowOnes 64 width := by
  apply Nat.eq_of_testBit_eq
  intro i
  rw [testBit_window, testBit_lowOnes, contains_ones, ← Bool.decide_and, decide_eq_decide,
    Nat.min_self, Nat.zero_add]
  have hcap : 64 < capacity 32 - 1 := by decide
  omega

/-- A number is not above these ones when it has 64 bits and is not above all ones. -/
theorem BitMask.le_window_ones_iff {width n : Nat} :
    n ≤ (ones width).window 0 64 ↔ n < capacity 64 ∧ n ≤ capacity width - 1 := by
  rw [window_ones, lowOnes]
  have hpos := capacity_pos width
  have hpos64 := capacity_pos 64
  rcases Nat.le_total width 64 with hle | hle
  · have hcap := capacity_le_capacity hle
    rw [Nat.min_eq_left hle]
    omega
  · have hcap := capacity_le_capacity hle
    rw [Nat.min_eq_right hle]
    omega

/-! ## § Fields -/

namespace Field

variable {register : String} {last : Nat} {d : Draft.Field}

/-- A label is accepted for a number that the field can hold. -/
theorem exists_optionOf_iff (what : String) (shown : Nat) {width : Nat}
    {e : Yaml.Value × Yaml.Value} :
    (∃ o, optionOf what shown (.ones width) e = .ok o) ↔
      (∃ n, e.1.IsKey n ∧ n ≤ capacity width - 1) ∧ e.2.IsLabel := by
  constructor
  · rintro ⟨o, h⟩
    obtain ⟨hnumber, hle, hlabel⟩ := optionOf_eq_ok.1 h
    obtain ⟨hcap, hmost⟩ := BitMask.le_window_ones_iff.1 hle
    have hkey := (naturalOf_eq_ok_of_lt hcap).1 hnumber
    exact ⟨⟨o.1, hkey, hmost⟩, (exists_labelOf_iff what).1 ⟨o.2, hlabel⟩⟩
  · rintro ⟨⟨n, hkey, hmost⟩, hlabel⟩
    obtain ⟨label, hlabel⟩ := (exists_labelOf_iff what).2 hlabel
    have hle := BitMask.le_window_ones_iff.2 ⟨hkey.lt, hmost⟩
    exact ⟨(n, label), optionOf_eq_ok.2 ⟨(naturalOf_eq_ok_of_lt hkey.lt).2 hkey, hle, hlabel⟩⟩

/-- Of a register whose bits can be counted, exactly the valid fields are built. -/
theorem exists_ofDraft_iff (register : String) (hlast : last + 1 < capacity 32) :
    (∃ f, ofDraft register last d = .ok f) ↔ d.Valid (last + 1) := by
  constructor
  · rintro ⟨f, h⟩
    obtain ⟨hname, bits, hbits, width, -, most, hmost, entries, hentries, -⟩ := ofDraft_eq_ok.1 h
    obtain ⟨hparse, hhi⟩ := bitsOf_eq_ok.1 hbits
    refine ⟨hname, bits, hparse, hhi, ?_⟩
    obtain ⟨w, hw, rfl⟩ := BitSpec.maxValue_eq_ok.1 hmost
    rw [BitSpec.eq_size_of_width hw] at hentries
    intro e he
    exact (exists_optionOf_iff _ _).1 (exists_mapM_iff.1 ⟨entries, hentries⟩ e he)
  · rintro ⟨hname, bits, hparse, hhi, hopts⟩
    have hproper := BitSpec.proper_of_parse hparse
    have hsize := BitSpec.size_le hproper
    have hwidth := BitSpec.width_of_size_lt hproper (by omega)
    obtain ⟨entries, hentries⟩ := exists_mapM_iff.2 fun e he =>
      (exists_optionOf_iff (register ++ "::" ++ d.name ++ " opts") bits.size).2 (hopts e he)
    exact ⟨_, ofDraft_eq_ok.2 ⟨hname, bits, bitsOf_eq_ok.2 ⟨hparse, hhi⟩, bits.size, hwidth,
      .ones bits.size, BitSpec.maxValue_eq_ok.2 ⟨bits.size, hwidth, rfl⟩, entries, hentries, rfl⟩⟩

end Field

/-! ## § The field of all bits -/

/-- The text of the last bit, a colon and a zero specifies all bits. -/
theorem BitSpec.parse_whole {last : Nat} (hlast : last < capacity 32) :
    parse (Text.decimal last ++ ":0") = .ok (range last 0) := by
  have hzero : Text.decimal last ++ ":0" = Text.decimal last ++ ":" ++ Text.decimal 0 := by
    rw [String.append_assoc]
    rfl
  rw [hzero]
  exact parse_pair (Nat.zero_le last) hlast

/-- A register without fields gets a valid one. -/
theorem Register.valid_wholeField {last : Nat} (hlast : last < capacity 32) (register : String) :
    (wholeField register last).Valid (last + 1) where
  name := isIdentifier_iff.1 (show isIdentifier "VALUE" = true by decide)
  place := by
    refine ⟨.range last 0, ?_, Nat.le_refl last, fun e he => by cases he⟩
    show BitSpec.parse (String.ofList (Text.decimal last ++ ":0").toList) = _
    rw [String.ofList_toList]
    exact BitSpec.parse_whole hlast

end RegisterMap
