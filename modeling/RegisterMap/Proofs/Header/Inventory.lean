import Mathlib.Data.List.Perm.Basic
import RegisterMap.Proofs.Header.Address

/-!
# Inventory — the names that a header declares

Whoever compiles a header sees names of three kinds: enumerators, tags of enumerations, and macros.
This module lists the names of each kind, up to their order. Every name is made from few parts: the
names of words, fields and value tables, the labels of values, and the name of the header.

## § What is here

* `Declaration.enumerators`, `tag?`, `macroName?` — what a declaration declares;
* `Scope.fieldNames`, `Scope.labels`, `Scope.addressNames` — the parts of enumerators;
* `Scope.perm_enumerators`, `Scope.perm_tags`, `Scope.perm_macroNames` — all names of a kind.
-/

namespace RegisterMap.Header

namespace Declaration

/-- **enumerators** — the names that an enumeration gives numbers to. -/
def enumerators (d : Declaration) : List String := d.entries.map Prod.fst

/-- **tag?** — the name of an enumeration. -/
def tag? : Declaration → Option String
  | .enumeration tag _ => some tag
  | _ => none

/-- **macroName?** — the name of a macro. -/
def macroName? : Declaration → Option String
  | .define name _ _ => some name
  | _ => none

end Declaration

open Declaration

/-- **called** — the name of a macro: what it does, the header, and what it does it to. -/
def Scope.called (s : Scope) (verb name : String) : String := verb ++ s.title.upper ++ "_" ++ name

/-! ## § Names of a register -/

namespace Place

/-- **fieldNames** — the names of the fields that a register introduces. A lone value is none. -/
def fieldNames (p : Place) : List String :=
  if p.reg.isValueOnly then [] else p.reg.fields.map p.fieldName

/-- **labelledNames** — the names of those that have labels. -/
def labelledNames (p : Place) : List String :=
  if p.reg.isValueOnly then []
  else (p.reg.fields.filter fun f => !f.options.entries.isEmpty).map p.fieldName

/-- **labels** — their labels, each behind the name of its field. -/
def labels (p : Place) : List String :=
  if p.reg.isValueOnly then []
  else p.reg.fields.flatMap fun f =>
    f.options.entries.map fun e => p.fieldName f ++ "_" ++ Label.normalize (Text.upper e.2)

/-- **longNames** — the name of the macro for the whole value of a longer register. -/
def longNames (p : Place) : List String :=
  if p.reg.wordCount ≠ 1 ∧ 1 < p.reg.fields.length then [p.name ++ "_LONG"] else []

/-- **bounds** — the names of the lowest bit and the mask of a field. -/
def bounds (field : String) : List String := [offsetName field, maskName field]

variable {p : Place}

/-- The macros of a register declare no enumeration. -/
theorem no_enumeration {d : Declaration} (hd : d ∈ p.fieldMacros ∨ d ∈ p.construction) :
    d.enumerators = [] ∧ d.tag? = none := by
  rcases hd with hfield | hmake
  · rcases mem_fieldMacros.1 hfield with ⟨f, -, rfl⟩ | ⟨f, -, rfl⟩ | rfl
    · exact ⟨rfl, rfl⟩
    · exact ⟨rfl, rfl⟩
    · exact ⟨rfl, rfl⟩
  · rcases mem_construction.1 hmake with ⟨-, -, rfl⟩ | ⟨-, ⟨-, rfl⟩ | ⟨u, -, rfl⟩⟩
    · exact ⟨rfl, rfl⟩
    · exact ⟨rfl, rfl⟩
    · exact ⟨rfl, rfl⟩

theorem enumerators_optionEnums (p : Place) : p.optionEnums.flatMap enumerators
    = p.reg.fields.flatMap fun f => f.options.entries.map fun e =>
        p.fieldName f ++ "_" ++ Label.normalize (Text.upper e.2) := by
  rw [optionEnums]
  induction p.reg.fields with
  | nil => rfl
  | cons f fs ih =>
    have hlabels : (p.optionEnum f).enumerators = f.options.entries.map fun e =>
        p.fieldName f ++ "_" ++ Label.normalize (Text.upper e.2) := by
      simp [enumerators, optionEnum, entries]
    rw [List.filter_cons, List.flatMap_cons, ← ih]
    -- A field without labels is left out, and has none to declare.
    split
    · rw [List.map_cons, List.flatMap_cons, hlabels]
    · rename_i hnone
      have hempty : f.options.entries = [] := by simpa using hnone
      rw [hempty, List.map_nil, List.nil_append]

theorem enumerators_fieldEnum (p : Place) :
    p.fieldEnum.enumerators = (p.reg.fields.map p.fieldName).flatMap bounds := by
  show (p.reg.fields.flatMap p.fieldEntries).map Prod.fst = _
  rw [List.map_flatMap, List.flatMap_map]
  rfl

/-- The enumerators of a register are its labels, and the bounds of its fields. -/
theorem enumerators_declared (p : Place) :
    p.declared.flatMap enumerators = p.labels ++ p.fieldNames.flatMap bounds := by
  have hmake : p.construction.flatMap enumerators = [] :=
    List.flatMap_eq_nil_iff.2 fun d hd => (no_enumeration (.inr hd)).1
  have hmacros : (if p.device.fieldMacros then p.fieldMacros else []).flatMap enumerators = [] := by
    split
    · exact List.flatMap_eq_nil_iff.2 fun d hd => (no_enumeration (.inl hd)).1
    · rfl
  have hremark : p.remark.enumerators = [] := rfl
  have hblank : blank.enumerators = [] := rfl
  rw [declared, List.flatMap_append, hmake, List.append_nil, introduction, labels, fieldNames]
  split
  · rfl
  · simp only [List.flatMap_append, List.flatMap_singleton, hremark, hblank, hmacros,
      enumerators_optionEnums, enumerators_fieldEnum, List.nil_append, List.append_nil]

/-- The tags of a register are those of its fields with labels, and one for all its fields. -/
theorem tags_declared (p : Place) :
    p.declared.filterMap tag? = p.labelledNames.map (fun n => Text.lower n ++ "_options") ++
      if p.reg.isValueOnly then [] else [Text.lower p.name ++ "_fields_t"] := by
  have hmake : p.construction.filterMap tag? = [] :=
    List.filterMap_eq_nil_iff.2 fun d hd => (no_enumeration (.inr hd)).2
  have hmacros : (if p.device.fieldMacros then p.fieldMacros else []).filterMap tag? = [] := by
    split
    · exact List.filterMap_eq_nil_iff.2 fun d hd => (no_enumeration (.inl hd)).2
    · rfl
  have hlabels : p.optionEnums.filterMap tag? = ((p.reg.fields.filter fun f =>
      !f.options.entries.isEmpty).map p.fieldName).map fun n => Text.lower n ++ "_options" := by
    rw [optionEnums, List.map_map]
    exact filterMap_map_some (fun _ => by rfl) _
  have hremark : [p.remark].filterMap tag? = [] := rfl
  have hblank : [blank].filterMap tag? = [] := rfl
  have hfields : [p.fieldEnum].filterMap tag? = [Text.lower p.name ++ "_fields_t"] := rfl
  rw [declared, List.filterMap_append, hmake, List.append_nil, introduction, labelledNames]
  split
  · rfl
  · simp only [List.filterMap_append, hremark, hblank, hlabels, hfields, hmacros,
      List.nil_append, List.append_nil]

theorem macroNames_fieldMacros (p : Place) : p.fieldMacros.filterMap macroName? =
    (p.reg.fields.map p.fieldName).map (p.called "GET_") ++
      (p.reg.fields.map p.fieldName).map (p.called "SET_") := by
  have hgetters : (p.reg.fields.map p.getter).filterMap macroName?
      = (p.reg.fields.map p.fieldName).map (p.called "GET_") := by
    rw [List.map_map]
    exact filterMap_map_some (fun _ => by rfl) _
  have hsetters : (p.reg.fields.map p.setter).filterMap macroName?
      = (p.reg.fields.map p.fieldName).map (p.called "SET_") := by
    rw [List.map_map]
    exact filterMap_map_some (fun _ => by rfl) _
  rw [fieldMacros, List.filterMap_append, List.filterMap_append, hgetters, hsetters]
  exact List.append_nil _

/-- The macros that introduce a register get and set its fields. -/
theorem macroNames_introduction (p : Place) :
    p.introduction.filterMap macroName? = if p.device.fieldMacros then
      p.fieldNames.map (p.called "GET_") ++
        p.fieldNames.map (p.called "SET_") else [] := by
  have hlabels : p.optionEnums.filterMap macroName? = [] :=
    List.filterMap_eq_nil_iff.2 (List.forall_mem_map.2 fun _ _ => rfl)
  have hremark : [p.remark].filterMap macroName? = [] := rfl
  have hblank : [blank].filterMap macroName? = [] := rfl
  have hfields : [p.fieldEnum].filterMap macroName? = [] := rfl
  rw [introduction, fieldNames]
  split
  · simp only [List.map_nil, List.append_nil, ite_self]
    rfl
  · simp only [List.filterMap_append, hremark, hblank, hlabels, hfields, List.nil_append]
    split
    · exact p.macroNames_fieldMacros
    · rfl

/-- The macros that construct a register are called after its words, or are for its whole value. -/
theorem perm_macroNames_construction (p : Place) : (p.construction.filterMap macroName?).Perm
    ((p.words ++ p.longNames).map (p.called "MAKE_")) := by
  have hword : ∀ u, (p.wordMacro u).macroName?
      = some (p.called "MAKE_" (p.name ++ wordSuffix u)) := fun u =>
    congrArg some String.append_assoc
  have hlong : p.longMacro.macroName?
      = some (p.called "MAKE_" (p.name ++ "_LONG")) :=
    congrArg some String.append_assoc
  rw [construction, words, longNames, Register.isSingleValue]
  by_cases hone : p.reg.wordCount = 1
  · cases hvalue : p.reg.isValueOnly with
    | true => simp [hone]
    | false =>
      simp only [hone, beq_self_eq_true, Bool.and_false]
      exact .refl _
  · have hwords : ((List.range p.reg.wordCount).map p.wordMacro).filterMap macroName?
        = ((List.range p.reg.wordCount).map fun u => p.name ++ wordSuffix u).map
          (p.called "MAKE_") := by
      rw [List.map_map]
      exact filterMap_map_some hword _
    have hlongs : (if 1 < p.reg.fields.length then [p.longMacro] else []).filterMap macroName?
        = (if p.reg.wordCount ≠ 1 ∧ 1 < p.reg.fields.length then [p.name ++ "_LONG"] else []).map
          (p.called "MAKE_") := by
      by_cases hfields : 1 < p.reg.fields.length
      · rw [if_pos hfields, if_pos ⟨hone, hfields⟩, List.filterMap_cons_some hlong]
        rfl
      · rw [if_neg hfields, if_neg fun h => hfields h.2]
        rfl
    simp only [beq_eq_false_iff_ne.2 hone, Bool.false_and, if_neg hone]
    rw [if_neg (by simp), if_neg (by simp), wordMacros, List.filterMap_append, List.map_append,
      hwords, hlongs]
    exact List.perm_append_comm

end Place

/-! ## § Names of a header -/

namespace Scope

/-- **addressNames** — the identifiers of all addresses. -/
def addressNames (s : Scope) : List String :=
  s.device.flat.map fun e => s.device.registerIdent e.name

/-- **fieldNames** — the names of all fields that a header introduces. -/
def fieldNames (s : Scope) : List String := s.places.flatMap Place.fieldNames

/-- **labelledNames** — the names of those that have labels. -/
def labelledNames (s : Scope) : List String := s.places.flatMap Place.labelledNames

/-- **labels** — all labels, each behind the name of its value table or its field. -/
def labels (s : Scope) : List String :=
  (s.device.tables.flatMap fun t => t.entries.map fun e =>
    Text.upper (tableName t) ++ "_" ++ Label.normalize e.1) ++ s.places.flatMap Place.labels

/-- **tableTag** — the tag of the value table with a name. -/
def tableTag (s : Scope) (name : String) : String := s.title.lower ++ "_" ++ name ++ "_t"

/-- **introduced** — the registers that are no lone values. -/
def introduced (s : Scope) : List Place := s.places.filter fun p => !p.reg.isValueOnly

/-- **made** — what the macros of a header that make something are called, behind their common
beginning. -/
def made (s : Scope) : List String :=
  ["REG_WR", "REG_RD"] ++ s.places.flatMap Place.words ++ s.places.flatMap Place.longNames

variable (s : Scope)

/-- The enumerators are identifiers of addresses, labels, and bounds of fields. -/
theorem perm_enumerators : (s.layout.flatMap enumerators).Perm
    (s.addressNames ++ s.labels ++ s.fieldNames.flatMap Place.bounds) := by
  have haddresses : s.addressEnum.enumerators = s.addressNames := by
    simp [enumerators, addressEnum, entries, addressNames]
  have htables : (s.device.tables.map s.tableEnum).flatMap enumerators
      = s.device.tables.flatMap fun t => t.entries.map fun e =>
        Text.upper (tableName t) ++ "_" ++ Label.normalize e.1 := by
    simp [List.flatMap_map, enumerators, tableEnum, entries, Function.comp_def]
  have hshared : s.shared.flatMap enumerators = s.addressNames ++
      s.device.tables.flatMap fun t => t.entries.map fun e =>
        Text.upper (tableName t) ++ "_" ++ Label.normalize e.1 := by
    rw [shared, List.flatMap_append, htables, List.flatMap_cons, haddresses]
    exact congrArg (· ++ _) (List.append_nil _)
  have hregs := List.flatMap_append_perm s.places Place.labels
    fun p => p.fieldNames.flatMap Place.bounds
  rw [layout, List.flatMap_append, hshared, List.flatMap_assoc]
  simp only [Place.enumerators_declared]
  rw [labels, fieldNames, List.flatMap_assoc]
  simp only [List.append_assoc]
  exact (hregs.symm.append_left _).append_left _

/-- The tags are those of addresses and value tables, of registers, and of fields with labels. -/
theorem perm_tags : (s.layout.filterMap tag?).Perm
    (s.tableTag "regs" :: (s.device.tables.map tableName).map s.tableTag ++
      (s.introduced.map fun p => Text.lower p.name).map (· ++ "_fields_t") ++
      (s.labelledNames.map Text.lower).map (· ++ "_options")) := by
  have htables : (s.device.tables.map s.tableEnum).filterMap tag?
      = (s.device.tables.map tableName).map s.tableTag := by
    rw [List.map_map]
    exact filterMap_map_some (fun _ => by rfl) _
  have haddresses : s.title.lower ++ "_regs_t" = s.tableTag "regs" := by
    simp [tableTag, String.append_assoc]
  have hshared : s.shared.filterMap tag?
      = s.tableTag "regs" :: (s.device.tables.map tableName).map s.tableTag := by
    rw [shared, List.filterMap_append, htables, ← haddresses]
    rfl
  have hfields : (s.places.flatMap fun p =>
      if p.reg.isValueOnly then [] else [Text.lower p.name ++ "_fields_t"])
        = (s.introduced.map fun p => Text.lower p.name).map (· ++ "_fields_t") := by
    rw [introduced]
    induction s.places with
    | nil => rfl
    | cons p ps ih =>
      cases hvalue : p.reg.isValueOnly with
      | true => simp [hvalue, ih]
      | false => simp [hvalue, ih]
  have hlabelled : (s.places.flatMap fun p =>
      p.labelledNames.map fun n => Text.lower n ++ "_options")
        = (s.labelledNames.map Text.lower).map (· ++ "_options") := by
    rw [labelledNames, List.map_map, List.map_flatMap]
    rfl
  have hplaces : (s.places.flatMap fun p => p.declared.filterMap tag?).Perm
      (s.places.flatMap fun p =>
        (if p.reg.isValueOnly then [] else [Text.lower p.name ++ "_fields_t"]) ++
          p.labelledNames.map fun n => Text.lower n ++ "_options") := by
    refine List.Perm.flatMap_left _ fun p _ => ?_
    rw [Place.tags_declared]
    exact List.perm_append_comm
  have hregs := hplaces.trans (List.flatMap_append_perm _ _ _).symm
  rw [hfields, hlabelled] at hregs
  rw [layout, List.filterMap_append, hshared, List.filterMap_flatMap, List.append_assoc]
  exact hregs.append_left _

/-- The macros get and set fields and make frames and values. -/
theorem perm_macroNames : (s.layout.filterMap macroName?).Perm
    ((if s.device.fieldMacros then
        s.fieldNames.map (s.called "GET_") ++ s.fieldNames.map (s.called "SET_") else []) ++
      s.made.map (s.called "MAKE_")) := by
  have hshared : s.shared.filterMap macroName? = ["REG_WR", "REG_RD"].map (s.called "MAKE_") := by
    have htables : (s.device.tables.map s.tableEnum).filterMap macroName? = [] :=
      List.filterMap_eq_nil_iff.2 (List.forall_mem_map.2 fun _ _ => rfl)
    have hnames : [s.writeName, s.readName] = ["REG_WR", "REG_RD"].map (s.called "MAKE_") := by
      simp [writeName, readName, called, String.append_assoc]
    rw [shared, List.filterMap_append, htables, ← hnames]
    rfl
  have hregs : (s.places.flatMap fun p => p.declared.filterMap macroName?).Perm
      (s.places.flatMap fun p => (if s.device.fieldMacros then
        p.fieldNames.map (s.called "GET_") ++ p.fieldNames.map (s.called "SET_") else []) ++
        (p.words ++ p.longNames).map (s.called "MAKE_")) := by
    refine List.Perm.flatMap_left _ fun p hp => ?_
    obtain ⟨rfl, -⟩ := mem_places.1 hp
    rw [Place.declared, List.filterMap_append, Place.macroNames_introduction]
    exact p.perm_macroNames_construction.append_left _
  have hfields : (s.places.flatMap fun p => if s.device.fieldMacros then
        p.fieldNames.map (s.called "GET_") ++ p.fieldNames.map (s.called "SET_") else []).Perm
      (if s.device.fieldMacros then
        s.fieldNames.map (s.called "GET_") ++ s.fieldNames.map (s.called "SET_") else []) := by
    split
    · rw [fieldNames, List.map_flatMap, List.map_flatMap]
      exact (List.flatMap_append_perm _ _ _).symm
    · rw [List.flatMap_eq_nil_iff.2 fun _ _ => rfl]
  have hmade : (s.places.flatMap fun p => (p.words ++ p.longNames).map (s.called "MAKE_")).Perm
      ((s.places.flatMap Place.words ++ s.places.flatMap Place.longNames).map
        (s.called "MAKE_")) := by
    rw [← List.map_flatMap]
    exact ((List.flatMap_append_perm _ _ _).symm).map _
  have hplaces := hregs.trans ((List.flatMap_append_perm _ _ _).symm.trans (hfields.append hmade))
  rw [layout, List.filterMap_append, hshared, List.filterMap_flatMap, made, List.append_assoc,
    List.map_append]
  -- The macros for frames stand in front of all others.
  refine (hplaces.append_left _).trans ?_
  rw [← List.append_assoc, ← List.append_assoc]
  exact List.perm_append_comm.append_right _

end Scope

end RegisterMap.Header
