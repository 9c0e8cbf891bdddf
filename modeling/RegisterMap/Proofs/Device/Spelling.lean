import RegisterMap.Device.Build.Name
import RegisterMap.Proofs.Device.Name
import RegisterMap.Proofs.Text.LetterCase
import RegisterMap.Text.Split

/-!
# Spelling — how names are put together

A name is a text of letters, digits and underscores that is not empty and does not begin with a
digit. Of these three, what follows a name only matters to the first. Letter case matters to none,
and digits and joined texts are always made of characters of a name.

## § What is here

* `IsTail`, `Opens`, `isName_iff` — what makes a name;
* `isName_append` — a name and what follows it;
* `IsName.upper`, `isName_lower` — names in capitals and in small letters;
* `isTail_digits`, `isTail_join` — numbers and joined texts.
-/

namespace RegisterMap

/-! ## § Names by their characters -/

/-- **IsTail** — every character may stand inside a name. -/
def IsTail (s : String) : Prop := ∀ c ∈ s.toList, Identifier.isPart c = true

instance (s : String) : Decidable (IsTail s) :=
  decidable_of_iff (s.toList.all Identifier.isPart = true) List.all_eq_true

theorem isTail_append {s t : String} : IsTail (s ++ t) ↔ IsTail s ∧ IsTail t := by
  unfold IsTail
  rw [String.toList_append]
  exact List.forall_mem_append

/-- **Opens** — the text does not begin with a digit. -/
def Opens (s : String) : Prop := ∀ c, s.toList.head? = some c → c.isDigit = false

namespace Identifier

theorem isDigit_iff (c : Char) : c.isDigit = true ↔ 48 ≤ c.toNat ∧ c.toNat ≤ 57 :=
  Char.isDigit_iff_toNat

/-- The characters of a name by their numbers. -/
theorem isPart_iff_toNat (c : Char) : isPart c = true ↔
    (65 ≤ c.toNat ∧ c.toNat ≤ 90) ∨ (97 ≤ c.toNat ∧ c.toNat ≤ 122) ∨
      (48 ≤ c.toNat ∧ c.toNat ≤ 57) ∨ c.toNat = 95 := by
  have hline : c = '_' ↔ c.toNat = 95 := Char.toNat_inj.symm
  rw [isPart_iff, hline, IsLetter, or_assoc]
  exact Iff.rfl

/-- A name starts with any of its characters, digits apart. -/
theorem isStart_iff_isPart (c : Char) :
    isStart c = true ↔ isPart c = true ∧ c.isDigit = false := by
  have hline : c = '_' ↔ c.toNat = 95 := Char.toNat_inj.symm
  rw [isPart_iff_toNat, Bool.eq_false_iff, Ne, isDigit_iff, isStart_iff, hline]
  show ((65 ≤ c.toNat ∧ c.toNat ≤ 90) ∨ (97 ≤ c.toNat ∧ c.toNat ≤ 122)) ∨ c.toNat = 95 ↔ _
  omega

theorem isPart_toUpper (c : Char) : isPart c.toUpper = true ↔ isPart c = true := by
  rw [isPart_iff_toNat, isPart_iff_toNat, Text.toNat_toUpper]
  split <;> omega

theorem isPart_toLower (c : Char) : isPart c.toLower = true ↔ isPart c = true := by
  rw [isPart_iff_toNat, isPart_iff_toNat, Text.toNat_toLower]
  split <;> omega

theorem isDigit_toUpper (c : Char) : c.toUpper.isDigit = c.isDigit := by
  rw [Bool.eq_iff_iff, isDigit_iff, isDigit_iff, Text.toNat_toUpper]
  split <;> omega

theorem isDigit_toLower (c : Char) : c.toLower.isDigit = c.isDigit := by
  rw [Bool.eq_iff_iff, isDigit_iff, isDigit_iff, Text.toNat_toLower]
  split <;> omega

end Identifier

theorem isName_iff {s : String} : IsName s ↔ s ≠ "" ∧ IsTail s ∧ Opens s := by
  have hempty : s = "" ↔ s.toList = [] := String.toList_eq_nil_iff.symm
  rw [← isIdentifier_iff, isIdentifier, Ne, hempty, IsTail, Opens]
  cases s.toList with
  | nil => simp
  | cons c cs =>
    show (Identifier.isStart c && cs.all Identifier.isPart) = true ↔ _
    rw [Bool.and_eq_true, Identifier.isStart_iff_isPart, List.all_eq_true, List.forall_mem_cons]
    simp
    tauto

theorem IsName.tail {s : String} (h : IsName s) : IsTail s := (isName_iff.1 h).2.1

theorem opens_append {s : String} (hs : s ≠ "") (t : String) : Opens (s ++ t) ↔ Opens s := by
  have hne : s.toList ≠ [] := mt String.toList_eq_nil_iff.1 hs
  unfold Opens
  rw [String.toList_append, List.head?_append_of_ne_nil _ hne]

/-- What follows a name keeps it a name. -/
theorem isName_append {s : String} (hs : s ≠ "") (t : String) :
    IsName (s ++ t) ↔ IsName s ∧ IsTail t := by
  have hne : s ++ t ≠ "" := fun h => hs (String.append_eq_empty_iff.1 h).1
  rw [isName_iff, isName_iff, isTail_append, opens_append hs]
  tauto

theorem IsName.ne_empty {s : String} (h : IsName s) : s ≠ "" := (isName_iff.1 h).1

theorem IsName.append {s t : String} (hs : IsName s) (ht : IsTail t) : IsName (s ++ t) :=
  (isName_append hs.ne_empty t).2 ⟨hs, ht⟩

/-! ## § Letter case -/

theorem toList_upper {s : String} (h : IsTail s) :
    (Text.upper s).toList = s.toList.map Char.toUpper := by
  rw [Text.upper, String.toList_ofList, Text.upperChars_ascii fun c hc => lt_of_isPart (h c hc)]

theorem toList_lower {s : String} (h : IsTail s) :
    (Text.lower s).toList = s.toList.map Char.toLower := by
  rw [Text.lower, String.toList_ofList, Text.lowerChars_ascii fun c hc => lt_of_isPart (h c hc)]

theorem IsTail.upper {s : String} (h : IsTail s) : IsTail (Text.upper s) := by
  rw [IsTail, toList_upper h, List.forall_mem_map]
  exact fun c hc => (Identifier.isPart_toUpper c).2 (h c hc)

theorem IsTail.lower {s : String} (h : IsTail s) : IsTail (Text.lower s) := by
  rw [IsTail, toList_lower h, List.forall_mem_map]
  exact fun c hc => (Identifier.isPart_toLower c).2 (h c hc)

/-- Letter case does not decide whether a text begins with a digit. -/
theorem opens_upper {s : String} (h : IsTail s) : Opens (Text.upper s) ↔ Opens s := by
  rw [Opens, Opens, toList_upper h, List.head?_map]
  cases s.toList.head? with
  | none => simp
  | some c => simp [Identifier.isDigit_toUpper]

theorem opens_lower {s : String} (h : IsTail s) : Opens (Text.lower s) ↔ Opens s := by
  rw [Opens, Opens, toList_lower h, List.head?_map]
  cases s.toList.head? with
  | none => simp
  | some c => simp [Identifier.isDigit_toLower]

theorem IsName.upper {s : String} (h : IsName s) : IsName (Text.upper s) := by
  obtain ⟨hne, htail, hopens⟩ := isName_iff.1 h
  refine isName_iff.2 ⟨fun he => hne ?_, htail.upper, (opens_upper htail).2 hopens⟩
  have hlist := congrArg String.toList he
  rw [toList_upper htail] at hlist
  exact String.toList_eq_nil_iff.1 (List.map_eq_nil_iff.1 hlist)

/-- A text in small letters is a name when it is one as it stands. -/
theorem isName_lower {s : String} (h : IsTail s) : IsName (Text.lower s) ↔ IsName s := by
  have hempty : Text.lower s = "" ↔ s = "" := by
    rw [← String.toList_eq_nil_iff, toList_lower h, List.map_eq_nil_iff, String.toList_eq_nil_iff]
  rw [isName_iff, isName_iff, opens_lower h, Ne, hempty]
  exact ⟨fun hs => ⟨hs.1, h, hs.2.2⟩, fun hs => ⟨hs.1, h.lower, hs.2.2⟩⟩

/-! ## § Numbers and joined texts -/

theorem isTail_digits {base : Nat} (hone : 1 < base) (hbase : base ≤ 16) (n : Nat) :
    IsTail (String.ofList (Nat.toDigits base n)) := by
  have hdigit : ∀ d < 16, Identifier.isPart d.digitChar = true := by decide
  rw [IsTail, String.toList_ofList]
  induction n using Nat.strongRecOn with
  | ind n ih =>
    by_cases hn : n < base
    · rw [Nat.toDigits_of_lt_base hn, List.forall_mem_singleton]
      exact hdigit n (by omega)
    · rw [Nat.toDigits_of_base_le hone (Nat.le_of_not_lt hn), List.forall_mem_append,
        List.forall_mem_singleton]
      have hless : n / base < n := Nat.div_lt_self (by omega) hone
      have hlast : n % base < base := Nat.mod_lt n (by omega)
      exact ⟨ih (n / base) hless, hdigit (n % base) (by omega)⟩

theorem isTail_join {ts : List String} (h : ∀ t ∈ ts, IsTail t) : IsTail (Text.join "_" ts) := by
  induction ts with
  | nil => exact fun c hc => absurd hc List.not_mem_nil
  | cons t ts ih =>
    obtain ⟨ht, hts⟩ := List.forall_mem_cons.1 h
    cases ts with
    | nil => exact ht
    | cons u us => exact isTail_append.2 ⟨isTail_append.2 ⟨ht, by decide⟩, ih hts⟩

end RegisterMap
