import RegisterMap.Proofs.Header.Collision
import RegisterMap.Proofs.Header.Hygiene
import RegisterMap.Proofs.Header.Label

/-!
# Identifiers — which names of a header are names

A description checks the names of its pages, registers and fields. Labels, the names of value
tables and addresses come into the names of a header without a check: labels and tables by way of
replacements, addresses by their digits. So every macro and every parameter is named properly, and
whether enumerators and tags are can be read off the description.

## § What is here

* `Place.Leading`, `Place.isName_fieldName` — fields with an address in front of their names;
* `Scope.Nameable` — what labels, value tables and addresses have to be;
* `identifiers` — the names of a whole header.
-/

namespace RegisterMap

namespace Header

open Declaration

/-! ## § Registers and fields -/

namespace Place

variable {p : Place}

/-- **Leading** — an address that stands first in front of field names begins with a letter. -/
def Leading (p : Place) : Prop :=
  p.device.fieldPrefix.head? = some .address →
    Opens (Device.partText p.page p.reg .address)

theorem isTail_address (p : Place) : IsTail (Device.partText p.page p.reg .address) := by
  refine isTail_append.2 ⟨?_, isTail_digits (by decide) (by decide) p.reg.addrLo⟩
  rw [IsTail, String.toList_ofList]
  intro c hc
  rw [(List.mem_replicate.1 hc).2]
  decide

theorem address_ne_empty (p : Place) : Device.partText p.page p.reg .address ≠ "" := by
  intro h
  have hdigits : String.ofList (Nat.toDigits 16 p.reg.addrLo) = "" :=
    (String.append_eq_empty_iff.1 h).2
  rw [← String.toList_eq_nil_iff, String.toList_ofList] at hdigits
  exact Nat.toDigits_ne_nil hdigits

/-- The parts in front of a field name are names, an address with a leading digit apart. -/
theorem isName_partText (hpage : IsName p.page.name) (hreg : IsName p.reg.name) (part : NamePart) :
    IsName (Device.partText p.page p.reg part) ↔
      (part = .address → Opens (Device.partText p.page p.reg .address)) := by
  cases part with
  | page => exact iff_of_true hpage.upper fun h => by cases h
  | register => exact iff_of_true hreg.upper fun h => by cases h
  | address =>
    rw [isName_iff]
    exact ⟨fun h _ => h.2.2, fun h => ⟨p.address_ne_empty, p.isTail_address, h rfl⟩⟩

theorem isTail_partText (hpage : IsName p.page.name) (hreg : IsName p.reg.name)
    (part : NamePart) : IsTail (Device.partText p.page p.reg part) := by
  cases part with
  | page => exact hpage.upper.tail
  | register => exact hreg.upper.tail
  | address => exact p.isTail_address

theorem fieldName_ne_empty (hr : p.reg.Sound p.device.dataWidth) {f : Field}
    (hf : f ∈ p.reg.fields) : p.fieldName f ≠ "" := by
  intro h
  have hname := (isIdentifier_iff.1 (hr.fields f hf).identifier).ne_empty
  rw [fieldName_eq] at h
  cases hparts : p.parts with
  | nil => exact hname (by rw [hparts] at h; exact h)
  | cons t ts =>
    rw [hparts, List.cons_append, join_cons] at h
    exact absurd (String.append_eq_empty_iff.1 (String.append_eq_empty_iff.1 h).1).2 (by decide)

section Sound

variable (hpage : IsName p.page.name) (hr : p.reg.Sound p.device.dataWidth)

include hpage hr

theorem isTail_fieldName {f : Field} (hf : f ∈ p.reg.fields) : IsTail (p.fieldName f) := by
  have hreg := isIdentifier_iff.1 hr.identifier
  have hname := isIdentifier_iff.1 (hr.fields f hf).identifier
  rw [fieldName_eq]
  refine isTail_join (List.forall_mem_append.2 ⟨?_, List.forall_mem_singleton.2 hname.tail⟩)
  exact List.forall_mem_map.2 fun part _ => isTail_partText hpage hreg part

/-- The part that stands first decides about the name of a field. -/
theorem isName_fieldName {f : Field} (hf : f ∈ p.reg.fields) :
    IsName (p.fieldName f) ↔ p.Leading := by
  have hreg := isIdentifier_iff.1 hr.identifier
  have hname := isIdentifier_iff.1 (hr.fields f hf).identifier
  have htail := isTail_fieldName hpage hr hf
  rw [fieldName_eq, parts] at htail ⊢
  unfold Leading
  generalize p.device.fieldPrefix = before at htail ⊢
  cases before with
  | nil => exact iff_of_true hname fun h => by cases h
  | cons part rest =>
    rw [List.map_cons, List.cons_append, join_cons, String.append_assoc] at htail ⊢
    have hfirst : Device.partText p.page p.reg part ≠ "" := by
      cases part with
      | page => exact hpage.upper.ne_empty
      | register => exact hreg.upper.ne_empty
      | address => exact p.address_ne_empty
    rw [isName_append hfirst, isName_partText hpage hreg, List.head?_cons, Option.some.injEq]
    exact and_iff_left (isTail_append.1 htail).2

theorem isName_name : IsName p.name := by
  have hreg := isIdentifier_iff.1 hr.identifier
  rw [name, Device.registerName, canonicalName]
  split
  · exact (hpage.upper.append (by decide)).append hreg.tail
  · exact hreg

end Sound

end Place

/-! ## § What a header makes names of -/

namespace Scope

variable {s : Scope}

/-- **Nameable** — what a description has to keep to, so that all enumerators and tags are names. -/
structure Nameable (s : Scope) : Prop where
  /-- No field begins with the digit of an address. -/
  fields : ∀ p ∈ s.introduced, p.Leading
  /-- The labels of fields have replacements for all their other characters. -/
  labels : ∀ p ∈ s.introduced, ∀ f ∈ p.reg.fields, ∀ e ∈ f.options.entries,
    Label.Within Label.replaced (Text.upper e.2).toList
  /-- Value tables have hyphens as their only other characters. -/
  tables : ∀ t ∈ s.device.tables, Label.Within ['-'] t.name.toList
  /-- Those with labels do not begin with a digit, and their labels have replacements. -/
  entries : ∀ t ∈ s.device.tables, ∀ e ∈ t.entries,
    Opens t.name ∧ Label.Within Label.replaced e.1.toList

/-! ## § Value tables -/

theorem isTail_tableName (t : ValueTable) :
    IsTail (tableName t) ↔ Label.Within ['-'] t.name.toList := by
  rw [IsTail, tableName, String.toList_ofList, List.forall_mem_map, Label.Within]
  refine forall₂_congr fun c _ => ?_
  rw [List.mem_singleton]
  by_cases hc : c = '-'
  · rw [if_pos hc]
    exact iff_of_true rfl (.inr hc)
  · rw [if_neg hc]
    exact (or_iff_left hc).symm

theorem opens_tableName (t : ValueTable) : Opens (tableName t) ↔ Opens t.name := by
  rw [Opens, Opens, tableName, String.toList_ofList, List.head?_map]
  cases t.name.toList.head? with
  | none => simp
  | some c =>
    by_cases hc : c = '-'
    · simp [hc]
    · simp [hc]

/-- The label of a value table. -/
theorem isName_tableLabel {t : ValueTable} (ht : IsTail (tableName t)) (label : String) :
    IsName (Text.upper (tableName t) ++ "_" ++ Label.normalize label) ↔
      Opens t.name ∧ Label.Within Label.replaced label.toList := by
  have hne : Text.upper (tableName t) ++ "_" ≠ "" := fun h =>
    absurd (String.append_eq_empty_iff.1 h).2 (by decide)
  have htail : IsTail (Text.upper (tableName t) ++ "_") := isTail_append.2 ⟨ht.upper, by decide⟩
  have hopens : Opens (Text.upper (tableName t) ++ "_") ↔ Opens (tableName t) := by
    rw [← opens_upper ht]
    by_cases hempty : Text.upper (tableName t) = ""
    · -- A table without a name has labels that begin with the underscore.
      rw [hempty]
      exact iff_of_true (fun c hc => by cases hc; rfl) fun c hc => by cases hc
    · exact opens_append hempty "_"
  rw [isName_append hne, isName_iff, Label.isTail_normalize, hopens, opens_tableName]
  exact ⟨fun h => ⟨h.1.2.2, h.2⟩, fun h => ⟨⟨hne, htail, h.1⟩, h.2⟩⟩

theorem isName_tableTag (htitle : IsName s.title.text) (t : ValueTable) :
    IsName (s.tableTag (tableName t)) ↔ Label.Within ['-'] t.name.toList := by
  have hlower : IsName s.title.lower := (isName_lower htitle.tail).2 htitle
  rw [tableTag, String.append_assoc, String.append_assoc, isName_append hlower.ne_empty,
    and_iff_right hlower, isTail_append, isTail_append, isTail_tableName]
  exact ⟨fun h => h.2.1, fun h => ⟨by decide, h, by decide⟩⟩

/-! ## § Names of each kind -/

theorem place_sound (hd : s.device.Sound) {p : Place} (hp : p ∈ s.places) :
    IsName p.page.name ∧ p.reg.Sound p.device.dataWidth := by
  obtain ⟨rfl, hpage, -⟩ := mem_places.1 hp
  exact ⟨isIdentifier_iff.1 (hd.pages p.page hpage).identifier, reg_sound hd hp⟩

theorem mem_introduced {p : Place} (hp : p ∈ s.introduced) :
    p ∈ s.places ∧ p.reg.isValueOnly = false := by
  obtain ⟨hmem, hvalue⟩ := List.mem_filter.1 hp
  exact ⟨hmem, by simpa using hvalue⟩

theorem mem_fieldNames {n : String} :
    n ∈ s.fieldNames ↔ ∃ p ∈ s.introduced, ∃ f ∈ p.reg.fields, p.fieldName f = n := by
  rw [fieldNames_eq, List.mem_flatMap]
  simp only [List.mem_map]

theorem mem_fieldLabels {n : String} : n ∈ s.places.flatMap Place.labels ↔
    ∃ p ∈ s.introduced, ∃ f ∈ p.reg.fields, ∃ e ∈ f.options.entries,
      p.fieldName f ++ "_" ++ Label.normalize (Text.upper e.2) = n := by
  have hlabels : ∀ p : Place, n ∈ p.labels ↔ p.reg.isValueOnly = false ∧
      ∃ f ∈ p.reg.fields, ∃ e ∈ f.options.entries,
        p.fieldName f ++ "_" ++ Label.normalize (Text.upper e.2) = n := by
    intro p
    rw [Place.labels]
    split
    · rename_i hvalue
      simp [hvalue]
    · rename_i hvalue
      rw [List.mem_flatMap, and_iff_right (by simpa using hvalue)]
      simp only [List.mem_map]
  simp only [List.mem_flatMap, hlabels, introduced, List.mem_filter, and_assoc,
    Bool.not_eq_eq_eq_not, Bool.not_true]

theorem mem_labelledNames {n : String} (hn : n ∈ s.labelledNames) : n ∈ s.fieldNames := by
  obtain ⟨p, hp, hmem⟩ := List.mem_flatMap.1 hn
  refine List.mem_flatMap.2 ⟨p, hp, ?_⟩
  rw [Place.labelledNames] at hmem
  rw [Place.fieldNames]
  split at hmem
  · exact absurd hmem List.not_mem_nil
  · rename_i hvalue
    obtain ⟨f, hf, rfl⟩ := List.mem_map.1 hmem
    rw [if_neg hvalue]
    exact List.mem_map_of_mem (List.mem_of_mem_filter hf)

theorem isTail_fieldNames (hd : s.device.Sound) : ∀ n ∈ s.fieldNames, IsTail n := by
  intro n hn
  obtain ⟨p, hp, f, hf, rfl⟩ := mem_fieldNames.1 hn
  obtain ⟨hpage, hr⟩ := place_sound hd (mem_introduced hp).1
  exact Place.isTail_fieldName hpage hr hf

theorem isName_places (hd : s.device.Sound) {p : Place} (hp : p ∈ s.places) : IsName p.name := by
  obtain ⟨hpage, hr⟩ := place_sound hd hp
  exact Place.isName_name hpage hr

theorem isTail_wordSuffix (u : Nat) : IsTail (Place.wordSuffix u) :=
  isTail_append.2 ⟨by decide, isTail_digits (by decide) (by decide) u⟩

/-- Identifiers of addresses are names when the prefix of all registers is one, or empty. -/
theorem isName_addressNames (hd : s.device.Sound)
    (hfront : s.device.regPrefix = "" ∨ IsName s.device.regPrefix) :
    ∀ n ∈ s.addressNames, IsName n := by
  intro n hn
  obtain ⟨e, he, rfl⟩ := List.mem_map.1 hn
  have hflat : e.name ∈ s.places.flatMap Place.entryNames :=
    map_name_flat hd ▸ List.mem_map_of_mem he
  obtain ⟨p, hp, hentry⟩ := List.mem_flatMap.1 hflat
  have hname : IsName e.name := by
    rcases Place.mem_entryNames.1 hentry with ⟨-, heq⟩ | ⟨-, a, -, u, -, heq⟩
    · exact heq ▸ isName_places hd hp
    · exact heq ▸ (isName_places hd hp).append (isTail_wordSuffix u)
  rw [Device.registerIdent, Device.identPrefix]
  split
  · exact (String.empty_append (s := e.name)).symm ▸ hname
  · rename_i hsome
    have hupper := (hfront.resolve_left hsome).upper
    exact (hupper.append (by decide)).append hname.tail

/-- The macros of a header are named properly. -/
theorem isName_macroNames (hd : s.device.Sound) (htitle : IsName s.title.text) :
    ∀ n ∈ s.layout.filterMap macroName?, IsName n := by
  have hcalled : ∀ verb ∈ ["GET_", "SET_", "MAKE_"], ∀ n, IsTail n → IsName (s.called verb n) := by
    have hverbs : ∀ verb ∈ ["GET_", "SET_", "MAKE_"], isIdentifier verb = true := by decide
    intro verb hverb n hn
    have hname := isIdentifier_iff.1 (hverbs verb hverb)
    exact ((hname.append htitle.tail.upper).append (by decide)).append hn
  have hwords : ∀ n ∈ s.made, IsTail n := by
    intro n hn
    simp only [made, List.mem_append, List.mem_flatMap] at hn
    rcases hn with (hframe | ⟨p, hp, hword⟩) | ⟨p, hp, hlong⟩
    · revert n
      decide
    · rcases Place.mem_words.1 hword with ⟨-, -, rfl⟩ | ⟨-, u, -, rfl⟩
      · exact (isName_places hd hp).tail
      · exact isTail_append.2 ⟨(isName_places hd hp).tail, isTail_wordSuffix u⟩
    · obtain ⟨-, -, rfl⟩ := mem_longNames.1 hlong
      exact isTail_append.2 ⟨(isName_places hd hp).tail, by decide⟩
  intro n hn
  rcases List.mem_append.1 ((perm_macroNames s).mem_iff.1 hn) with hfields | hmade
  · split at hfields
    · rcases List.mem_append.1 hfields with hget | hset
      · obtain ⟨m, hm, rfl⟩ := List.mem_map.1 hget
        exact hcalled _ (by decide) m (isTail_fieldNames hd m hm)
      · obtain ⟨m, hm, rfl⟩ := List.mem_map.1 hset
        exact hcalled _ (by decide) m (isTail_fieldNames hd m hm)
    · exact absurd hfields List.not_mem_nil
  · obtain ⟨m, hm, rfl⟩ := List.mem_map.1 hmade
    exact hcalled _ (by decide) m (hwords m hm)

/-- So are their parameters, which are fixed or fields in small letters. -/
theorem isName_params (hd : s.device.Sound) :
    ∀ n ∈ s.layout.flatMap params, IsName n := by
  have hfixed : ∀ n ∈ ["a", "v", "x", "p", "f", "value"], IsName n := fun n hn =>
    isIdentifier_iff.1 (by revert n; decide)
  have hfields : ∀ p ∈ s.places, ∀ n ∈ p.params, IsName n := by
    intro p hp n hn
    obtain ⟨f, hf, rfl⟩ := List.mem_map.1 hn
    have hname := isIdentifier_iff.1 (((place_sound hd hp).2.fields f hf).identifier)
    exact (isName_lower hname.tail).2 hname
  intro n hn
  obtain ⟨d, hmem, hparam⟩ := List.mem_flatMap.1 hn
  rcases List.mem_append.1 hmem with hshared | hplaces
  · rcases List.mem_append.1 hshared with hframes | htables
    · have hparams : d.params ⊆ ["a", "v"] := by
        simp only [List.mem_cons, List.not_mem_nil, or_false] at hframes
        rcases hframes with rfl | rfl | rfl
        · exact List.nil_subset _
        · exact List.Subset.refl _
        · exact List.subset_append_left ["a"] ["v"]
      exact hfixed n (List.subset_append_left ["a", "v"] _ (hparams hparam))
    · obtain ⟨t, -, rfl⟩ := List.mem_map.1 htables
      exact absurd hparam List.not_mem_nil
  · obtain ⟨p, hp, hdeclared⟩ := List.mem_flatMap.1 hplaces
    rcases List.mem_append.1 hdeclared with hintro | hmake
    · rcases Place.introduction_cases hintro with hplain | ⟨-, f, -, rfl | rfl⟩
      · rw [params_of_plain hplain] at hparam
        exact absurd hparam List.not_mem_nil
      · exact hfixed n (List.mem_append_right ["a", "v"] (List.mem_append_left _ hparam))
      · exact hfixed n (List.mem_append_right ["a", "v", "x"] (List.mem_append_left _ hparam))
    · rcases Place.mem_construction.1 hmake with ⟨-, -, rfl⟩ | ⟨-, ⟨-, rfl⟩ | ⟨u, -, rfl⟩⟩
      · exact hfields p hp n hparam
      · exact hfields p hp n hparam
      · exact hfixed n (List.mem_append_right ["a", "v", "x", "p", "f"] hparam)

/-! ## § Enumerators and tags -/

/-- The bounds of all fields are names when no field begins with the digit of an address. -/
theorem isName_bounds_iff (hd : s.device.Sound) :
    (∀ n ∈ s.fieldNames.flatMap Place.bounds, IsName n) ↔ ∀ p ∈ s.introduced, p.Leading := by
  have hbounds : ∀ p ∈ s.introduced, ∀ f ∈ p.reg.fields,
      (∀ n ∈ Place.bounds (p.fieldName f), IsName n) ↔ p.Leading := by
    intro p hp f hf
    obtain ⟨hpage, hr⟩ := place_sound hd (mem_introduced hp).1
    have hne := Place.fieldName_ne_empty hr hf
    simp only [Place.bounds, offsetName, maskName, List.forall_mem_cons, isName_append hne,
      Place.isName_fieldName hpage hr hf]
    exact ⟨fun h => h.1.1, fun h => ⟨⟨h, by decide⟩, ⟨h, by decide⟩,
      fun n hn => absurd hn List.not_mem_nil⟩⟩
  rw [List.forall_mem_flatMap]
  refine ⟨fun h p hp => ?_, fun h n hn => ?_⟩
  · -- A register has some field, and one is enough.
    obtain ⟨f, hf⟩ := List.exists_mem_of_ne_nil _ (place_sound hd (mem_introduced hp).1).2.inhabited
    exact (hbounds p hp f hf).1 (h _ (mem_fieldNames.2 ⟨p, hp, f, hf, rfl⟩))
  · obtain ⟨p, hp, f, hf, rfl⟩ := mem_fieldNames.1 hn
    exact (hbounds p hp f hf).2 (h p hp)

/-- So are their labels, when these have replacements besides. -/
theorem isName_fieldLabels_iff (hd : s.device.Sound) (hleading : ∀ p ∈ s.introduced, p.Leading) :
    (∀ n ∈ s.places.flatMap Place.labels, IsName n) ↔
      ∀ p ∈ s.introduced, ∀ f ∈ p.reg.fields, ∀ e ∈ f.options.entries,
        Label.Within Label.replaced (Text.upper e.2).toList := by
  have hlabel : ∀ p ∈ s.introduced, ∀ f ∈ p.reg.fields, ∀ label,
      IsName (p.fieldName f ++ "_" ++ Label.normalize label) ↔
        Label.Within Label.replaced label.toList := by
    intro p hp f hf label
    obtain ⟨hpage, hr⟩ := place_sound hd (mem_introduced hp).1
    have hname := ((Place.isName_fieldName hpage hr hf).2 (hleading p hp)).append
      (show IsTail "_" by decide)
    rw [isName_append hname.ne_empty, Label.isTail_normalize, and_iff_right hname]
  refine ⟨fun h p hp f hf e he => ?_, fun h n hn => ?_⟩
  · exact (hlabel p hp f hf _).1 (h _ (mem_fieldLabels.2 ⟨p, hp, f, hf, e, he, rfl⟩))
  · obtain ⟨p, hp, f, hf, e, he, rfl⟩ := mem_fieldLabels.1 hn
    exact (hlabel p hp f hf _).2 (h p hp f hf e he)

/-- The labels of value tables. -/
theorem isName_tableLabels_iff
    (htables : ∀ t ∈ s.device.tables, Label.Within ['-'] t.name.toList) :
    (∀ n ∈ s.device.tables.flatMap fun t => t.entries.map fun e =>
        Text.upper (tableName t) ++ "_" ++ Label.normalize e.1, IsName n) ↔
      ∀ t ∈ s.device.tables, ∀ e ∈ t.entries,
        Opens t.name ∧ Label.Within Label.replaced e.1.toList := by
  simp only [List.forall_mem_flatMap, List.forall_mem_map]
  refine forall₂_congr fun t ht => forall₂_congr fun e _ => ?_
  exact isName_tableLabel ((isTail_tableName t).2 (htables t ht)) e.1

/-- The tags are names when those of value tables are, and the fields with labels. -/
theorem isName_tags_iff (hd : s.device.Sound) (htitle : IsName s.title.text)
    (hleading : ∀ p ∈ s.introduced, p.Leading) :
    (∀ n ∈ s.layout.filterMap tag?, IsName n) ↔
      ∀ t ∈ s.device.tables, Label.Within ['-'] t.name.toList := by
  have hlower : IsName s.title.lower := (isName_lower htitle.tail).2 htitle
  have haddresses : IsName (s.tableTag "regs") :=
    ((hlower.append (by decide)).append (by decide)).append (by decide)
  have hregs : ∀ p ∈ s.introduced, IsName (Text.lower p.name ++ "_fields_t") := by
    intro p hp
    have hname := isName_places hd (mem_introduced hp).1
    exact ((isName_lower hname.tail).2 hname).append (by decide)
  have hlabelled : ∀ n ∈ s.labelledNames, IsName (Text.lower n ++ "_options") := by
    intro n hn
    obtain ⟨p, hp, f, hf, rfl⟩ := mem_fieldNames.1 (mem_labelledNames hn)
    obtain ⟨hpage, hr⟩ := place_sound hd (mem_introduced hp).1
    have hname := (Place.isName_fieldName hpage hr hf).2 (hleading p hp)
    exact ((isName_lower hname.tail).2 hname).append (by decide)
  simp only [(perm_tags s).mem_iff, List.forall_mem_append, List.forall_mem_cons,
    List.forall_mem_map, haddresses, isName_tableTag htitle, true_and]
  exact ⟨fun h => h.1.1, fun h => ⟨⟨h, hregs⟩, hlabelled⟩⟩

/-- All enumerators and all tags are names exactly when the description keeps to what makes them
so. -/
theorem isName_declared_iff (hd : s.device.Sound)
    (hfront : s.device.regPrefix = "" ∨ IsName s.device.regPrefix)
    (htitle : IsName s.title.text) :
    ((∀ n ∈ s.layout.flatMap enumerators, IsName n) ∧ ∀ n ∈ s.layout.filterMap tag?, IsName n) ↔
      s.Nameable := by
  simp only [(perm_enumerators s).mem_iff, List.forall_mem_append, labels,
    eq_true (isName_addressNames hd hfront), true_and, isName_bounds_iff hd]
  refine ⟨?_, fun h => ?_⟩
  · rintro ⟨⟨⟨htableLabels, hfieldLabels⟩, hleading⟩, htags⟩
    have htables := (isName_tags_iff hd htitle hleading).1 htags
    exact
      { fields := hleading
        labels := (isName_fieldLabels_iff hd hleading).1 hfieldLabels
        tables := htables
        entries := (isName_tableLabels_iff htables).1 htableLabels }
  · exact ⟨⟨⟨(isName_tableLabels_iff h.tables).2 h.entries,
      (isName_fieldLabels_iff hd h.fields).2 h.labels⟩, h.fields⟩,
      (isName_tags_iff hd htitle h.fields).2 h.tables⟩

end Scope

/-! ## § A whole header -/

/-- **The names of a header.** In a header for an accepted description, with names for the header
and in front of its registers, every macro, every parameter and every identifier of an address is a
name. All enumerators and tags are names exactly when labels have replacements for their other
characters, value tables are called like names with hyphens, and no field or table begins with a
digit. -/
theorem identifiers {text header : String} {d : Device} {title : HeaderName}
    (haccepted : (Device.ofText text).result = .ok d)
    (hfront : d.regPrefix = "" ∨ IsName d.regPrefix) (htitle : IsName title.text)
    (hgenerated : (generate d title).result = .ok header) :
    let s : Scope := ⟨d, title⟩
    ∃ ds, s.declarations = .ok ds ∧ header = Declaration.renderAll ds ∧
      (∀ n ∈ ds.filterMap macroName?, IsName n) ∧ (∀ n ∈ ds.flatMap params, IsName n) ∧
      (∀ n ∈ s.addressEnum.enumerators, IsName n) ∧
      (((∀ n ∈ ds.flatMap enumerators, IsName n) ∧ ∀ n ∈ ds.filterMap tag?, IsName n) ↔
        s.Nameable) := by
  intro s
  obtain ⟨hall, htext⟩ := generate_eq_ok.1 hgenerated
  have hlayout : s.declarations = .ok s.layout := Scope.declarations_eq_ok.2 ⟨hall, rfl⟩
  have hsound : s.device.Sound := Device.sound_of_ofText haccepted
  have haddresses : s.addressEnum.enumerators = s.addressNames := by
    simp [enumerators, Scope.addressEnum, entries, Scope.addressNames]
  exact ⟨s.layout, hlayout, htext, Scope.isName_macroNames hsound htitle,
    Scope.isName_params hsound, haddresses ▸ Scope.isName_addressNames hsound hfront,
    Scope.isName_declared_iff hsound hfront htitle⟩

namespace Percent

/-- **text** — a device with a label `50%`, a value table `fan.curve`, and a field behind an address
that begins with a digit. -/
def text : String :=
  "name: Percent\naddr_width: 8\ndata_width: 8\nfield_prefix: [regaddr]\npages:\n- name: Main\n"
    ++ "  regs:\n  - name: SPEED\n    addr: 0x10\n    fields:\n    - name: DUTY\n      bits: 0\n"
    ++ "      opts:\n        0: 50%\n        1: FULL\nx-fan.curve:\n  3: A/B\n"

/-- **page** — the only page. -/
def page : Page where
  name := "Main"
  regs := [{
    name := "SPEED"
    addrHi := 0x10
    addrLo := 0x10
    bigOrder := false
    fields := [⟨"DUTY", "DUTY", .range 0 0, BitMask.ofRange 0 1, .ones 1,
      ⟨[(0, "50%"), (1, "FULL")]⟩⟩]
    fieldIndex := .ofNames ["DUTY"] }]
  regIndex := .ofNames ["SPEED"]

/-- **device** — what the text describes. -/
def device : Device where
  name := "Percent"
  desc := "Percent"
  regPrefix := ""
  pagePrefix := false
  fieldPrefix := [.address]
  fieldMacros := false
  addrWidth := 8
  dataWidth := 8
  bus := {}
  pages := [page]
  tables := [⟨"fan.curve", [("A/B", 3)]⟩]
  flat := FlatEntry.ofPages false [page]
  pageIndex := .ofNames ["Main"]
  flatIndex := .ofNames ["SPEED"]

/-- **scope** — the device with a header. -/
def scope : Scope := ⟨device, ⟨"dev"⟩⟩

theorem accepted : (Device.ofText text).result = .ok device :=
  Device.ofText_of_chars
    (Text.ofList_parts (Text.ofList_parts rfl rfl) rfl)
    (by decide +kernel)

theorem isName_title : IsName "dev" := isIdentifier_iff.1 (by decide)

theorem generated :
    (generate device ⟨"dev"⟩).result = .ok (Declaration.renderAll scope.layout) :=
  generate_of_single (by decide)

end Percent

open Percent in
/-- In the header of that device all macros are names, but not all enumerators and tags. -/
theorem identifiers_percent :
    ∃ ds, scope.declarations = .ok ds ∧ (∀ n ∈ ds.filterMap macroName?, IsName n) ∧
      (∀ n ∈ ds.flatMap params, IsName n) ∧
      ¬ ((∀ n ∈ ds.flatMap enumerators, IsName n) ∧ ∀ n ∈ ds.filterMap tag?, IsName n) := by
  obtain ⟨ds, hds, -, hmacros, hparams, -, hrest⟩ :=
    identifiers accepted (.inl rfl) isName_title generated
  refine ⟨ds, hds, hmacros, hparams, fun hall => ?_⟩
  have htables := (hrest.1 hall).tables ⟨"fan.curve", [("A/B", 3)]⟩ List.mem_cons_self '.'
  exact absurd (htables (by decide)) (by decide)

open Percent in
/-- Accepted descriptions have headers with enumerators that are no names, here `10_DUTY_50%`. -/
theorem not_identifiers :
    ¬ ∀ (text header : String) (d : Device) (title : HeaderName),
      (Device.ofText text).result = .ok d → (d.regPrefix = "" ∨ IsName d.regPrefix) →
      IsName title.text → (generate d title).result = .ok header →
      ∃ ds, Scope.declarations ⟨d, title⟩ = .ok ds ∧ header = Declaration.renderAll ds ∧
        (∀ n ∈ ds.flatMap enumerators, IsName n) ∧ (∀ n ∈ ds.filterMap tag?, IsName n) ∧
        (∀ n ∈ ds.filterMap macroName?, IsName n) ∧ ∀ n ∈ ds.flatMap params, IsName n := by
  intro h
  obtain ⟨ds, hds, -, henumerators, -⟩ :=
    h text _ device ⟨"dev"⟩ accepted (.inl rfl) isName_title generated
  obtain ⟨-, rfl⟩ := Scope.declarations_eq_ok.1 hds
  have hlabel := isIdentifier_iff.2 (henumerators "10_DUTY_50%" (by decide))
  revert hlabel
  decide

end Header

end RegisterMap
