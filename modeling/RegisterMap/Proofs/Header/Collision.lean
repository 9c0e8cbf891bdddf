import RegisterMap.Proofs.Header.Prefix

/-!
# Collisions — when a header declares a name twice

The names of a header are parts joined by underscores, with fixed endings. Only the names of words
are known to be different, so other names can meet: a label `OFF` behind a field is the lowest bit
of that field, registers that differ in case have one tag, and a register can be called like a macro
for frames. For each kind of names it is said here which of them can meet, and that no others do.

## § What is here

* `Scope.EnumeratorsApart`, `Scope.TagsApart`, `Scope.MacrosApart` — what keeps names apart;
* `Scope.nodup_enumerators_iff`, `Scope.nodup_tags_iff`, `Scope.nodup_macroNames_iff` — nothing else
  does;
* `names_apart` — all three for a generated header;
* `names_meet` — the page and the register in front of fields do not keep all names apart.
-/

namespace RegisterMap.Header

open Declaration

/-! ## § Endings and beginnings -/

/-- Names with different endings of one length are different. -/
theorem append_ne {s t a b : String} (hlength : a.toList.length = b.toList.length)
    (hne : a ≠ b) : s ++ a ≠ t ++ b := by
  intro h
  have hlist := congrArg String.toList h
  rw [String.toList_append, String.toList_append] at hlist
  exact hne (String.ext (List.append_inj_right' hlist hlength))

theorem called_ne (s : Scope) {v w : String} {c d : Char} {cs ds : List Char}
    (hv : v.toList = c :: cs) (hw : w.toList = d :: ds) (hne : c ≠ d) (n m : String) :
    s.called v n ≠ s.called w m := by
  intro h
  have hlist := congrArg String.toList h
  simp only [Scope.called, String.toList_append, hv, hw, List.cons_append] at hlist
  exact hne (List.cons.inj hlist).1

theorem called_injective (s : Scope) (verb : String) : Function.Injective (s.called verb) :=
  fun _ _ h => (String.append_right_inj _).1 h

namespace Scope

variable {s : Scope} {text : String}

/-! ## § Enumerators -/

/-- The bounds of fields are different when the fields are. -/
theorem nodup_bounds_iff (names : List String) :
    (names.flatMap Place.bounds).Nodup ↔ names.Nodup := by
  have hoffset : Function.Injective offsetName := fun _ _ h => (String.append_left_inj _).1 h
  have hmask : Function.Injective maskName := fun _ _ h => (String.append_left_inj _).1 h
  have hperm : (names.flatMap Place.bounds).Perm (names.map offsetName ++ names.map maskName) := by
    rw [List.map_eq_flatMap, List.map_eq_flatMap]
    exact (List.flatMap_append_perm names (fun n => [offsetName n]) fun n => [maskName n]).symm
  have hapart : ∀ a ∈ names.map offsetName, ∀ b ∈ names.map maskName, a ≠ b := by
    intro a ha b hb
    obtain ⟨n, -, rfl⟩ := List.mem_map.1 ha
    obtain ⟨m, -, rfl⟩ := List.mem_map.1 hb
    exact append_ne (by decide) (by decide)
  rw [hperm.nodup_iff, List.nodup_append, List.nodup_map_iff hoffset, List.nodup_map_iff hmask]
  exact ⟨fun h => h.1, fun h => ⟨h, h, hapart⟩⟩

/-- **EnumeratorsApart** — no field and no label is declared twice, no address is called like a
label, and neither of them like the lowest bit or the mask of a field. -/
structure EnumeratorsApart (s : Scope) : Prop where
  fields : s.fieldNames.Nodup
  labels : s.labels.Nodup
  addresses : ∀ x ∈ s.labels, x ∉ s.addressNames
  bounds : ∀ name ∈ s.fieldNames, ∀ x ∈ s.addressNames ++ s.labels,
    x ≠ offsetName name ∧ x ≠ maskName name

theorem nodup_enumerators_iff (haccepted : (Device.ofText text).result = .ok s.device) :
    (s.layout.flatMap enumerators).Nodup ↔ s.EnumeratorsApart := by
  have haddresses : s.addressNames.Nodup := nodup_identifiers haccepted
  rw [s.perm_enumerators.nodup_iff, List.nodup_append, List.nodup_append, nodup_bounds_iff]
  refine ⟨?_, ?_⟩
  · intro ⟨⟨_, hlabels, hapart⟩, hfields, hbounds⟩
    refine ⟨hfields, hlabels, fun x hx hx' => hapart x hx' x hx rfl, fun name hname x hx => ?_⟩
    have hoffset : offsetName name ∈ s.fieldNames.flatMap Place.bounds :=
      List.mem_flatMap.2 ⟨name, hname, List.mem_cons_self⟩
    have hmask : maskName name ∈ s.fieldNames.flatMap Place.bounds :=
      List.mem_flatMap.2 ⟨name, hname, List.mem_cons_of_mem _ List.mem_cons_self⟩
    exact ⟨hbounds x hx _ hoffset, hbounds x hx _ hmask⟩
  · intro ⟨hfields, hlabels, hapart, hbounds⟩
    refine ⟨⟨haddresses, hlabels, fun x hx y hy hxy => hapart y hy (hxy ▸ hx)⟩, hfields, ?_⟩
    intro x hx y hy
    obtain ⟨name, hname, hbound⟩ := List.mem_flatMap.1 hy
    obtain ⟨hoffset, hmask⟩ := hbounds name hname x hx
    simp only [Place.bounds, List.mem_cons, List.not_mem_nil, or_false] at hbound
    rcases hbound with rfl | rfl
    · exact hoffset
    · exact hmask

/-! ## § Tags -/

theorem tableTag_injective (s : Scope) : Function.Injective s.tableTag := fun _ _ h =>
  (String.append_right_inj _).1 ((String.append_left_inj _).1 h)

theorem lastChar_tableTag (s : Scope) (name : String) : lastChar (s.tableTag name) = some 't' :=
  lastChar_append _ (by decide)

theorem regs_ne_fields (s : Scope) (name : String) : s.tableTag "regs" ≠ name ++ "_fields_t" := by
  have hregs : s.tableTag "regs" = s.title.lower ++ "_regs_t" := by
    simp [tableTag, String.append_assoc]
  have hfields : name ++ "_fields_t" = (name ++ "_f") ++ "ields_t" := by
    rw [String.append_assoc]
    rfl
  rw [hregs, hfields]
  exact append_ne (by decide) (by decide)

theorem tableTag_eq_iff (s : Scope) (table name : String) :
    s.tableTag table = name ++ "_fields_t" ↔ s.title.lower ++ "_" ++ table = name ++ "_fields" := by
  have hfields : name ++ "_fields_t" = (name ++ "_fields") ++ "_t" := by
    rw [String.append_assoc]
    rfl
  rw [hfields]
  exact String.append_left_inj _

/-- **TagsApart** — value tables, registers with fields, and fields with labels have different tags
among themselves, no value table has the tag of the addresses, and none that of a register. -/
structure TagsApart (s : Scope) : Prop where
  tables : (s.device.tables.map tableName).Nodup
  addresses : "regs" ∉ s.device.tables.map tableName
  registers : (s.introduced.map fun p => Text.lower p.name).Nodup
  labelled : (s.labelledNames.map Text.lower).Nodup
  fields : ∀ t ∈ s.device.tables, ∀ p ∈ s.introduced,
    s.title.lower ++ "_" ++ tableName t ≠ Text.lower p.name ++ "_fields"

theorem nodup_tags_iff (s : Scope) : (s.layout.filterMap tag?).Nodup ↔ s.TagsApart := by
  have hcancel : ∀ ending : String, Function.Injective (· ++ ending) := fun ending _ _ h =>
    (String.append_left_inj ending).1 h
  -- Only the tags of fields with labels end in an `s`.
  have hlast : ∀ a ∈ s.tableTag "regs" :: (s.device.tables.map tableName).map s.tableTag ++
      (s.introduced.map fun p => Text.lower p.name).map (· ++ "_fields_t"),
      ∀ b ∈ (s.labelledNames.map Text.lower).map (· ++ "_options"), a ≠ b := by
    intro a ha b hb
    have ht : lastChar a = some 't' := by
      rcases List.mem_append.1 ha with htable | hfield
      · rcases List.mem_cons.1 htable with rfl | htable
        · exact s.lastChar_tableTag "regs"
        · obtain ⟨name, -, rfl⟩ := List.mem_map.1 htable
          exact s.lastChar_tableTag name
      · obtain ⟨name, -, rfl⟩ := List.mem_map.1 hfield
        exact lastChar_append name (by decide)
    obtain ⟨name, -, rfl⟩ := List.mem_map.1 hb
    apply ne_of_lastChar
    rw [ht, lastChar_append name (by decide)]
    decide
  rw [s.perm_tags.nodup_iff, List.nodup_append, List.nodup_append, List.nodup_cons,
    List.nodup_map_iff s.tableTag_injective, List.nodup_map_iff (hcancel _),
    List.nodup_map_iff (hcancel _), List.mem_map_of_injective s.tableTag_injective]
  refine ⟨?_, ?_⟩
  · intro ⟨⟨⟨hnone, htable⟩, hreg, hapart⟩, hlabelled, _⟩
    refine ⟨htable, hnone, hreg, hlabelled, fun t ht p hp hsame => ?_⟩
    exact hapart _ (List.mem_cons_of_mem _ (List.mem_map_of_mem (List.mem_map_of_mem ht))) _
      (List.mem_map_of_mem (List.mem_map_of_mem hp)) ((s.tableTag_eq_iff _ _).2 hsame)
  · intro ⟨htable, hnone, hreg, hlabelled, hapart⟩
    refine ⟨⟨⟨hnone, htable⟩, hreg, fun a ha b hb => ?_⟩, hlabelled, hlast⟩
    obtain ⟨name, hname, rfl⟩ := List.mem_map.1 hb
    obtain ⟨p, hp, rfl⟩ := List.mem_map.1 hname
    rcases List.mem_cons.1 ha with rfl | htag
    · exact s.regs_ne_fields _
    · obtain ⟨table, htable, rfl⟩ := List.mem_map.1 htag
      obtain ⟨t, ht, rfl⟩ := List.mem_map.1 htable
      exact fun hsame => hapart t ht p hp ((s.tableTag_eq_iff _ _).1 hsame)

/-! ## § Macros -/

theorem mem_longNames {p : Place} {name : String} : name ∈ p.longNames ↔
    p.reg.wordCount ≠ 1 ∧ 1 < p.reg.fields.length ∧ name = p.name ++ "_LONG" := by
  rw [Place.longNames]
  split
  · rename_i h
    simp [h]
  · rename_i h
    simp only [List.not_mem_nil, false_iff]
    exact fun hlong => h ⟨hlong.1, hlong.2.1⟩

theorem nodup_longNames (haccepted : (Device.ofText text).result = .ok s.device) :
    (s.places.flatMap Place.longNames).Nodup := by
  refine List.nodup_flatMap.2 ⟨fun p _ => ?_, ?_⟩
  · rw [Place.longNames]
    split
    · exact List.nodup_singleton _
    · exact List.nodup_nil
  · refine (pairwise_words haccepted).imp fun {p q} hdisjoint name hleft hright => ?_
    -- Registers of one name would have a first word of one name.
    obtain ⟨hp, -, rfl⟩ := mem_longNames.1 hleft
    obtain ⟨hq, -, hname⟩ := mem_longNames.1 hright
    have hfirst : p.name ++ Place.wordSuffix 0 ∈ p.words :=
      Place.mem_words.2 (.inr ⟨hp, 0, Nat.succ_pos _, rfl⟩)
    have hsame : p.name = q.name := (String.append_left_inj _).1 hname
    exact hdisjoint hfirst (Place.mem_words.2 (.inr ⟨hq, 0, Nat.succ_pos _, by rw [hsame]⟩))

/-- Only a single word can have a name that does not end in a digit. -/
theorem mem_words_of_lastChar {name : String} {c : Char} (hlast : lastChar name = some c)
    (hc : c.isDigit = false) : name ∈ s.places.flatMap Place.words ↔
      ∃ p ∈ s.places, p.reg.wordCount = 1 ∧ p.reg.isSingleValue = false ∧ name = p.name := by
  rw [List.mem_flatMap]
  refine exists_congr fun p => and_congr_right fun _ => ?_
  rw [Place.mem_words]
  refine or_iff_left ?_
  intro ⟨_, u, _, hname⟩
  exact word_ne hlast hc hname.symm

/-- **WordsApart** — no single word is called like a macro for frames or for the value of a longer
register. -/
def WordsApart (s : Scope) : Prop :=
  ∀ p ∈ s.places, p.reg.wordCount = 1 → p.reg.isSingleValue = false →
    p.name ≠ "REG_WR" ∧ p.name ≠ "REG_RD" ∧
    ∀ q ∈ s.places, q.reg.wordCount ≠ 1 → 1 < q.reg.fields.length → p.name ≠ q.name ++ "_LONG"

theorem nodup_made_iff (haccepted : (Device.ofText text).result = .ok s.device) :
    s.made.Nodup ↔ s.WordsApart := by
  rw [made, List.nodup_append, List.nodup_append]
  refine ⟨?_, ?_⟩
  · intro hnodup p hp hone hlone
    obtain ⟨⟨-, -, hframes⟩, -, hlongs⟩ := hnodup
    have hword : p.name ∈ s.places.flatMap Place.words :=
      List.mem_flatMap.2 ⟨p, hp, Place.mem_words.2 (.inl ⟨hone, hlone, rfl⟩)⟩
    refine ⟨(hframes _ (by simp) _ hword).symm, (hframes _ (by simp) _ hword).symm, ?_⟩
    intro q hq hmany hfields
    exact hlongs _ (List.mem_append_right _ hword) _
      (List.mem_flatMap.2 ⟨q, hq, mem_longNames.2 ⟨hmany, hfields, rfl⟩⟩)
  · intro h
    refine ⟨⟨by decide, nodup_words haccepted, ?_⟩, nodup_longNames haccepted, ?_⟩
    · intro a ha b hb hab
      obtain rfl := hab
      simp only [List.mem_cons, List.not_mem_nil, or_false] at ha
      rcases ha with rfl | rfl
      · obtain ⟨p, hp, hone, hlone, hname⟩ := (mem_words_of_lastChar (c := 'R') rfl rfl).1 hb
        exact (h p hp hone hlone).1 hname.symm
      · obtain ⟨p, hp, hone, hlone, hname⟩ := (mem_words_of_lastChar (c := 'D') rfl rfl).1 hb
        exact (h p hp hone hlone).2.1 hname.symm
    · intro a ha b hb hab
      obtain rfl := hab
      obtain ⟨q, hq, hlong⟩ := List.mem_flatMap.1 hb
      obtain ⟨hmany, hfields, rfl⟩ := mem_longNames.1 hlong
      have hlast : lastChar (q.name ++ "_LONG") = some 'G' := lastChar_append _ (by decide)
      rcases List.mem_append.1 ha with hframe | hword
      · simp only [List.mem_cons, List.not_mem_nil, or_false] at hframe
        rcases hframe with hwrite | hread
        · rw [hwrite] at hlast
          exact absurd hlast (by decide)
        · rw [hread] at hlast
          exact absurd hlast (by decide)
      · obtain ⟨p, hp, hone, hlone, hname⟩ := (mem_words_of_lastChar hlast rfl).1 hword
        exact (h p hp hone hlone).2.2 q hq hmany hfields hname.symm

/-- **MacrosApart** — fields that have macros are different, and so are words and the rest that
macros make. -/
structure MacrosApart (s : Scope) : Prop where
  fields : s.device.fieldMacros = true → s.fieldNames.Nodup
  words : s.WordsApart

theorem nodup_macroNames_iff (haccepted : (Device.ofText text).result = .ok s.device) :
    (s.layout.filterMap macroName?).Nodup ↔ s.MacrosApart := by
  have hget : ∀ a ∈ s.fieldNames.map (s.called "GET_"),
      ∀ b ∈ s.fieldNames.map (s.called "SET_"), a ≠ b := by
    intro a ha b hb
    obtain ⟨n, -, rfl⟩ := List.mem_map.1 ha
    obtain ⟨m, -, rfl⟩ := List.mem_map.1 hb
    exact called_ne s rfl rfl (by decide) n m
  have hmake : ∀ a ∈ s.fieldNames.map (s.called "GET_") ++ s.fieldNames.map (s.called "SET_"),
      ∀ b ∈ s.made.map (s.called "MAKE_"), a ≠ b := by
    intro a ha b hb
    obtain ⟨m, -, rfl⟩ := List.mem_map.1 hb
    rcases List.mem_append.1 ha with hgetter | hsetter
    · obtain ⟨n, -, rfl⟩ := List.mem_map.1 hgetter
      exact called_ne s rfl rfl (by decide) n m
    · obtain ⟨n, -, rfl⟩ := List.mem_map.1 hsetter
      exact called_ne s rfl rfl (by decide) n m
  rw [s.perm_macroNames.nodup_iff, List.nodup_append,
    List.nodup_map_iff (called_injective s "MAKE_"), nodup_made_iff haccepted]
  by_cases hmacros : s.device.fieldMacros = true
  · simp only [if_pos hmacros, List.nodup_append, List.nodup_map_iff (called_injective s _)]
    refine ⟨fun ⟨⟨hfields, _⟩, hwords, _⟩ => ⟨fun _ => hfields, hwords⟩, fun h => ?_⟩
    exact ⟨⟨h.fields hmacros, h.fields hmacros, hget⟩, h.words, hmake⟩
  · simp only [if_neg hmacros]
    refine ⟨fun ⟨_, hwords, _⟩ => ⟨fun h => absurd h hmacros, hwords⟩, fun h => ?_⟩
    exact ⟨List.nodup_nil, h.words, fun a ha => absurd ha List.not_mem_nil⟩

end Scope

/-! ## § A whole header -/

/-- **When names are apart.** In a header for an accepted description, no enumerator comes twice
exactly when no field and no label does, and addresses, labels and the bounds of fields do not meet.
No tag comes twice exactly when value tables, registers, and fields with labels have different tags.
No macro comes twice exactly when fields with macros are different, and no single word is called
like another macro. Fields are different when the page and the register in front of them can be told
apart. -/
theorem names_apart {text header : String} {d : Device} {title : HeaderName}
    (haccepted : (Device.ofText text).result = .ok d)
    (hgenerated : (generate d title).result = .ok header) :
    let s : Scope := ⟨d, title⟩
    ∃ ds, s.declarations = .ok ds ∧ header = Declaration.renderAll ds ∧
      ((ds.flatMap enumerators).Nodup ↔ s.EnumeratorsApart) ∧
      ((ds.filterMap tag?).Nodup ↔ s.TagsApart) ∧
      ((ds.filterMap macroName?).Nodup ↔ s.MacrosApart) ∧
      (s.PartsApart → s.fieldNames.Nodup) := by
  intro s
  obtain ⟨hall, htext⟩ := generate_eq_ok.1 hgenerated
  have hlayout : s.declarations = .ok s.layout := Scope.declarations_eq_ok.2 ⟨hall, rfl⟩
  have hsound : s.device.Sound := Device.sound_of_ofText haccepted
  exact ⟨s.layout, hlayout, htext, Scope.nodup_enumerators_iff haccepted, s.nodup_tags_iff,
    Scope.nodup_macroNames_iff haccepted, fun hparts => hparts.nodup_fieldNames hsound⟩

namespace Doubled

/-- **text** — a device with a label `OFF`, two registers that differ in case, and one that is
called like a macro for frames. Fields have the page and the register in front of them. -/
def text : String :=
  "name: Doubled\naddr_width: 8\ndata_width: 8\nfield_prefix: [page, regname]\npages:\n"
    ++ "- name: Main\n  regs:\n  - name: CTRL\n    addr: 0\n    fields:\n    - name: EN\n"
    ++ "      bits: 0\n      opts:\n        0: OFF\n        1: ON\n  - name: Ctrl\n    addr: 1\n"
    ++ "    fields:\n    - name: GO\n      bits: 0\n  - name: REG_WR\n    addr: 2\n    fields:\n"
    ++ "    - name: RUN\n      bits: 0\n"

/-- **register** — a register of one word with one bit. -/
def register (name : String) (addr : Nat) (field : String) (options : Options) : Register where
  name
  addrHi := addr
  addrLo := addr
  bigOrder := false
  fields := [⟨field, field, .range 0 0, BitMask.ofRange 0 1, .ones 1, options⟩]
  fieldIndex := .ofNames [field]

/-- **page** — the only page. -/
def page : Page :=
  ⟨"Main", [register "CTRL" 0 "EN" ⟨[(0, "OFF"), (1, "ON")]⟩, register "Ctrl" 1 "GO" {},
    register "REG_WR" 2 "RUN" {}], .ofNames ["CTRL", "Ctrl", "REG_WR"]⟩

/-- **device** — what the text describes. -/
def device : Device where
  name := "Doubled"
  desc := "Doubled"
  regPrefix := ""
  pagePrefix := false
  fieldPrefix := [.page, .register]
  fieldMacros := false
  addrWidth := 8
  dataWidth := 8
  bus := {}
  pages := [page]
  tables := []
  flat := FlatEntry.ofPages false [page]
  pageIndex := .ofNames ["Main"]
  flatIndex := .ofNames ["CTRL", "Ctrl", "REG_WR"]

/-- **scope** — the device with a header. -/
def scope : Scope := ⟨device, ⟨"dev"⟩⟩

theorem accepted : (Device.ofText text).result = .ok device :=
  Device.ofText_of_chars
    (Text.ofList_parts
      (Text.ofList_parts (Text.ofList_parts (Text.ofList_parts rfl rfl) rfl) rfl) rfl)
    (by decide +kernel)

theorem generated :
    (generate device ⟨"dev"⟩).result = .ok (Declaration.renderAll scope.layout) :=
  generate_of_single (by decide)

end Doubled

open Doubled in
/-- In the header of that device an enumerator, a tag and a macro are declared twice. -/
theorem names_apart_doubled :
    ∃ ds, scope.declarations = .ok ds ∧ ¬ (ds.flatMap enumerators).Nodup ∧
      ¬ (ds.filterMap tag?).Nodup ∧ ¬ (ds.filterMap macroName?).Nodup := by
  obtain ⟨ds, hds, -, henumerators, htags, hmacros, -⟩ := names_apart accepted generated
  refine ⟨ds, hds, fun hnodup => ?_, fun hnodup => ?_, fun hnodup => ?_⟩
  · obtain ⟨hoffset, -⟩ := (henumerators.1 hnodup).bounds "MAIN_CTRL_EN" (by decide)
      "MAIN_CTRL_EN_OFF" (by decide)
    exact hoffset (by decide)
  · have hregisters := (htags.1 hnodup).registers
    revert hregisters
    decide
  · have hwords := (hmacros.1 hnodup).words
    unfold Scope.WordsApart at hwords
    revert hwords
    decide

open Doubled in
/-- The page and the register in front of the names of fields do not keep all names apart: a label
`OFF` behind the name of a field is the lowest bit of that field. -/
theorem names_meet :
    ¬ ∀ (text header : String) (d : Device) (title : HeaderName),
      (Device.ofText text).result = .ok d → (generate d title).result = .ok header →
      NamePart.page ∈ d.fieldPrefix → NamePart.register ∈ d.fieldPrefix →
      ∃ ds, Scope.declarations ⟨d, title⟩ = .ok ds ∧ header = Declaration.renderAll ds ∧
        (ds.flatMap enumerators).Nodup ∧ (ds.filterMap tag?).Nodup ∧
        (ds.filterMap macroName?).Nodup := by
  intro h
  obtain ⟨ds, hds, -, hnodup, -⟩ :=
    h text _ device ⟨"dev"⟩ accepted generated (by decide) (by decide)
  obtain ⟨-, rfl⟩ := Scope.declarations_eq_ok.1 hds
  revert hnodup
  decide

end RegisterMap.Header
