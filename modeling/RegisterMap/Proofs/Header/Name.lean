import RegisterMap.Header
import RegisterMap.Proofs.Device.Sound

/-!
# Names apart — which names of a header cannot be the same

Macros, enumerators and parameters of a register get their names by different endings, and most of
them are told apart by their last character: a parameter ends in no capital letter, and a word of a
longer register ends in a digit.

## § What is here

* `lastChar` — the last character of a name;
* `lastChar_offsetName`, `lastChar_maskName`, `lastChar_writeName`, `lastChar_word` — the endings;
* `param_ne` — a parameter has no name that ends in a capital letter.
-/

namespace RegisterMap

/-! ## § Last characters -/

/-- **lastChar** — the last character of a name. -/
def lastChar (s : String) : Option Char := s.toList.getLast?

theorem lastChar_append (s : String) {t : String} (ht : t.toList ≠ []) :
    lastChar (s ++ t) = lastChar t := by
  rw [lastChar, lastChar, String.toList_append, List.getLast?_append,
    List.getLast?_eq_some_getLast ht]
  rfl

theorem ne_of_lastChar {s t : String} (h : lastChar s ≠ lastChar t) : s ≠ t :=
  fun e => h (congrArg lastChar e)

/-- A decimal number ends in a digit. -/
theorem lastChar_decimal (n : Nat) :
    ∃ c, lastChar (Text.decimal n) = some c ∧ c.isDigit = true := by
  have hne : Nat.toDigits 10 n ≠ [] := Nat.toDigits_ne_nil
  refine ⟨(Nat.toDigits 10 n).getLast hne, ?_, ?_⟩
  · rw [lastChar, Text.decimal, String.toList_ofList, List.getLast?_eq_some_getLast hne]
  · exact Nat.isDigit_of_mem_toDigits (by decide) (by decide) (List.getLast_mem hne)

/-! ## § Small letters -/

theorem isUpper_toLower (c : Char) : c.toLower.isUpper = false := by
  apply Bool.eq_false_iff.2
  intro h
  have hcode := (isUpper_iff _).1 h
  rw [Text.toNat_toLower] at hcode
  split at hcode <;> omega

/-- An identifier in small letters has no capital letter. -/
theorem isUpper_of_mem_lower {s : String} (h : isIdentifier s = true) {c : Char}
    (hc : c ∈ (Text.lower s).toList) : c.isUpper = false := by
  -- Beyond ASCII small letters go by a table, but an identifier does not get there.
  have hascii : ∀ x ∈ s.toList, x.toNat < 128 := fun x hx =>
    lt_of_isPart (isPart_of_isIdentifier h x hx)
  rw [Text.lower, String.toList_ofList, Text.lowerChars_ascii hascii] at hc
  obtain ⟨x, -, rfl⟩ := List.mem_map.1 hc
  exact isUpper_toLower x

namespace Header

/-! ## § The endings -/

theorem lastChar_offsetName (field : String) : lastChar (offsetName field) = some 'F' :=
  lastChar_append field (by decide)

theorem lastChar_maskName (field : String) : lastChar (maskName field) = some 'K' :=
  lastChar_append field (by decide)

/-- The bounds of a field are not among names with other endings. -/
theorem bounds_not_mem {field : String} {names : List String}
    (h : ∀ name ∈ names, lastChar name ≠ some 'F' ∧ lastChar name ≠ some 'K') :
    offsetName field ∉ names ∧ maskName field ∉ names :=
  ⟨fun hmem => (h _ hmem).1 (lastChar_offsetName field),
    fun hmem => (h _ hmem).2 (lastChar_maskName field)⟩

theorem lastChar_writeName (s : Scope) : lastChar s.writeName = some 'R' :=
  lastChar_append _ (by decide)

/-- The name of a word of a longer register ends in a digit. -/
theorem lastChar_word (base : String) (u : Nat) :
    ∃ c, lastChar (base ++ ("_BY" ++ Text.decimal u)) = some c ∧ c.isDigit = true := by
  obtain ⟨c, hc, hdigit⟩ := lastChar_decimal u
  have hne : (Text.decimal u).toList ≠ [] := by
    intro e
    rw [lastChar, e] at hc
    cases hc
  refine ⟨c, ?_, hdigit⟩
  rw [← String.append_assoc, lastChar_append _ hne, hc]

theorem word_ne {base t : String} {u : Nat} {c : Char} (ht : lastChar t = some c)
    (hc : c.isDigit = false) : base ++ ("_BY" ++ Text.decimal u) ≠ t := by
  obtain ⟨d, hd, hdigit⟩ := lastChar_word base u
  apply ne_of_lastChar
  intro e
  rw [hd, ht] at e
  cases e
  rw [hc] at hdigit
  cases hdigit

/-- A parameter has no name that ends in a capital letter. -/
theorem param_ne {f : Field} (h : isIdentifier f.name = true) {t : String} {c : Char}
    (ht : lastChar t = some c) (hc : c.isUpper = true) : Place.param f ≠ t := by
  intro e
  have hmem : c ∈ (Text.lower f.name).toList := by
    apply List.mem_of_getLast?
    show lastChar (Place.param f) = some c
    rw [e, ht]
  rw [isUpper_of_mem_lower h hmem] at hc
  cases hc

end Header

end RegisterMap
