import RegisterMap.Device.Build.Name
import RegisterMap.Proofs.Outcome
import RegisterMap.Proofs.Text.LetterCase

/-!
# Names of a description — what the check of a name accepts

Names are checked character by character. Here stands what the check means, by the letters and
digits themselves, and where these stand among the characters.

## § What is here

* `IsName` — letters, digits and underscores, no digit first;
* `isIdentifier_iff`, `checkIdentifier_eq_ok` — these are the names that are accepted;
* `NamePart.exists_ofText_iff` — the parts before a field name, in any case of letters;
* `isUpper_iff`, `isLower_iff`, `lt_of_isPart` — the characters of a name by their numbers.
-/

namespace RegisterMap

/-! ## § Letters -/

/-- The capital letters are next to each other. -/
theorem isUpper_iff (c : Char) : c.isUpper = true ↔ 65 ≤ c.toNat ∧ c.toNat ≤ 90 := by
  show decide ('A'.val ≤ c.val ∧ c.val ≤ 'Z'.val) = true ↔ _
  rw [decide_eq_true_iff]
  exact Iff.rfl

/-- So are the small ones. -/
theorem isLower_iff (c : Char) : c.isLower = true ↔ 97 ≤ c.toNat ∧ c.toNat ≤ 122 := by
  show (decide ('a'.val ≤ c.val) && decide (c.val ≤ 'z'.val)) = true ↔ _
  rw [Bool.and_eq_true, decide_eq_true_iff, decide_eq_true_iff]
  exact Iff.rfl

theorem lt_of_isPart {c : Char} (h : Identifier.isPart c = true) : c.toNat < 128 := by
  simp only [Identifier.isPart, Char.isAlphanum, Bool.or_eq_true, beq_iff_eq] at h
  rcases h with (halpha | hdigit) | rfl
  · rcases (Bool.or_eq_true _ _).mp halpha with hupper | hlower
    · have hlast := ((isUpper_iff c).1 hupper).2
      omega
    · have hlast := ((isLower_iff c).1 hlower).2
      omega
  · have hlast : c.toNat ≤ 57 := (Char.isDigit_iff_toNat.1 hdigit).2
    omega
  · decide

/-! ## § Names -/

/-- **IsLetter** — a letter from `A` to `Z` or from `a` to `z`. -/
def IsLetter (c : Char) : Prop := ('A' ≤ c ∧ c ≤ 'Z') ∨ ('a' ≤ c ∧ c ≤ 'z')

/-- **IsName** — a text of the form `[A-Za-z_][A-Za-z0-9_]*`. -/
def IsName (s : String) : Prop :=
  ∃ c cs, s.toList = c :: cs ∧ (IsLetter c ∨ c = '_') ∧
    ∀ x ∈ cs, IsLetter x ∨ ('0' ≤ x ∧ x ≤ '9') ∨ x = '_'

namespace Identifier

theorem isAlpha_iff (c : Char) : c.isAlpha = true ↔ IsLetter c := by
  show (c.isUpper || c.isLower) = true ↔ _
  rw [Bool.or_eq_true, isUpper_iff, isLower_iff]
  exact Iff.rfl

theorem isStart_iff (c : Char) : isStart c = true ↔ IsLetter c ∨ c = '_' := by
  rw [isStart, Bool.or_eq_true, isAlpha_iff, beq_iff_eq]

theorem isPart_iff (c : Char) :
    isPart c = true ↔ IsLetter c ∨ ('0' ≤ c ∧ c ≤ '9') ∨ c = '_' := by
  rw [isPart, Char.isAlphanum, Bool.or_eq_true, Bool.or_eq_true, isAlpha_iff,
    Char.isDigit_iff_toNat, beq_iff_eq, or_assoc]
  exact Iff.rfl

end Identifier

/-- An identifier is a name by its letters. -/
theorem isIdentifier_iff {s : String} : isIdentifier s = true ↔ IsName s := by
  unfold isIdentifier IsName
  cases hs : s.toList with
  | nil => simp
  | cons c cs =>
    show (Identifier.isStart c && cs.all Identifier.isPart) = true ↔ _
    rw [Bool.and_eq_true, List.all_eq_true, Identifier.isStart_iff]
    constructor
    · rintro ⟨hc, hcs⟩
      exact ⟨c, cs, rfl, hc, fun x hx => (Identifier.isPart_iff x).1 (hcs x hx)⟩
    · rintro ⟨c', cs', heq, hc, hcs⟩
      obtain ⟨rfl, rfl⟩ := List.cons.inj heq
      exact ⟨hc, fun x hx => (Identifier.isPart_iff x).2 (hcs x hx)⟩

theorem checkIdentifier_eq_ok {what name : String} {u : Unit} :
    checkIdentifier what name = .ok u ↔ IsName name := by
  rw [checkIdentifier, ← isIdentifier_iff]
  split
  · rename_i h
    simp [h]
  · rename_i h
    simp [h]

/-! ## § Parts before a name -/

/-- **texts** — how the parts that may stand before the name of a field are written. -/
def NamePart.texts : List String := ["page", "regname", "regaddr"]

/-- A part before a name is accepted in any case of letters. -/
theorem NamePart.exists_ofText_iff {s : String} : (∃ part, ofText s = .ok part) ↔
    ∃ t ∈ texts, Text.equalsIgnoringAsciiCase s t = true := by
  have hlower : ∀ t ∈ texts, (Text.lower s = t ↔ Text.equalsIgnoringAsciiCase s t = true) := by
    have hascii : ∀ t ∈ texts, (∀ c ∈ t.toList, c.toNat < 128 ∧ c ≠ 'k') ∧
        t.toList.map Char.toLower = t.toList := by simp [texts]
    exact fun t ht => Text.lower_eq_iff (hascii t ht).1 (hascii t ht).2
  have hread : (∃ part, ofText s = .ok part) ↔ ∃ t ∈ texts, Text.lower s = t := by
    unfold ofText
    split
    · rename_i h
      simp [texts, h]
    · rename_i h
      simp [texts, h]
    · rename_i h
      simp [texts, h]
    · rename_i hpage hname haddr
      simp only [reduceCtorEq, exists_false, texts, List.mem_cons, List.not_mem_nil, or_false,
        exists_eq_or_imp, exists_eq_left, false_iff]
      exact fun h => h.elim hpage fun h => h.elim hname haddr
  rw [hread]
  constructor
  · rintro ⟨t, ht, h⟩
    exact ⟨t, ht, (hlower t ht).1 h⟩
  · rintro ⟨t, ht, h⟩
    exact ⟨t, ht, (hlower t ht).2 h⟩

/-! ## § Characters of a name -/

theorem isPart_of_isIdentifier {s : String} (h : isIdentifier s = true) :
    ∀ c ∈ s.toList, Identifier.isPart c = true := by
  unfold isIdentifier at h
  split at h
  · cases h
  · rename_i c cs hcs
    rw [hcs]
    obtain ⟨hstart, hrest⟩ := (Bool.and_eq_true _ _).mp h
    intro x hx
    rcases List.mem_cons.1 hx with rfl | hx
    · simp only [Identifier.isStart, Identifier.isPart, Char.isAlphanum, Bool.or_eq_true]
        at hstart ⊢
      rcases hstart with halpha | hline
      · exact .inl (.inl halpha)
      · exact .inr hline
    · exact List.all_eq_true.1 hrest x hx

end RegisterMap
