import Mathlib.Data.List.Nodup
import RegisterMap.Proofs.Device.Invariant
import RegisterMap.Proofs.Draft.Keys
import RegisterMap.Proofs.Header.Layout
import RegisterMap.Proofs.Header.Token

/-!
# Tables of options — which label a value has

The options of a field are the entries of a mapping in their order, each key read as a number. The
keys of the mapping are different, but a number has many spellings, as a number or as a text. So a
value is listed twice exactly when two of the keys spell it, and then the first one gives its label.
The header gives the values of the table to its enumerators one by one, whether they are different
or not.

## § What is here

* `label?_eq_none_iff`, `label?_eq_some_iff`, `forall_label?_iff` — labels of a table in general;
* `Options.ReadFrom`, `Field.options_of_ofDraft` — the mapping that a table is read from;
* `SpelledApart`, `nodup_values_iff`, `text_of_same_number` — when its values are different;
* `Device.IsDraft`, `Device.exists_isDraft` — the draft of a field in the text of a device;
* `Device.option_tables` — the tables of an accepted description, and their enumerations in a
  header.
-/

namespace RegisterMap

open Outcome

/-! ## § Labels of a table -/

namespace Options

variable {o : Options} {v : Nat} {label : String}

/-- A value has no label when it is not listed. -/
theorem label?_eq_none_iff : o.label? v = none ↔ ∀ e ∈ o.entries, e.1 ≠ v := by
  rw [label?, List.lookup_eq_none_iff]
  refine forall₂_congr fun e _ => ?_
  rw [bne_iff_ne, ne_comm]

/-- The label of a value is that of the first entry that lists the value. -/
theorem label?_eq_some_iff : o.label? v = some label ↔ ∃ before after,
    o.entries = before ++ (v, label) :: after ∧ ∀ e ∈ before, e.1 ≠ v := by
  rw [label?, List.lookup_eq_some_iff]
  refine exists₂_congr fun before after => and_congr_right fun _ => forall₂_congr fun e _ => ?_
  rw [bne_iff_ne, ne_comm]

/-- Each entry gives the label of its value when no two entries give a value different labels. -/
theorem forall_label?_iff : (∀ e ∈ o.entries, o.label? e.1 = some e.2) ↔
    ∀ e ∈ o.entries, ∀ e' ∈ o.entries, e.1 = e'.1 → e.2 = e'.2 := by
  constructor
  · intro h e he e' he' hvalue
    have hlabel := h e he
    rw [hvalue, h e' he'] at hlabel
    exact (Option.some.inj hlabel).symm
  · intro h e he
    cases hlabel : o.label? e.1 with
    | none => exact absurd rfl (label?_eq_none_iff.1 hlabel e he)
    | some label => rw [h e he _ (mem_of_lookup hlabel) rfl]

/-- Where no value comes again, each entry gives the label of its value. -/
theorem label?_of_nodup (h : (o.entries.map Prod.fst).Nodup) :
    ∀ e ∈ o.entries, o.label? e.1 = some e.2 :=
  forall_label?_iff.2 fun _ he _ he' hvalue =>
    congrArg Prod.snd (List.inj_on_of_nodup_map h he he' hvalue)

end Options

/-! ## § Keys as they are written -/

namespace Yaml.Value

/-- **SpelledApart** — no two keys spell one number. -/
def SpelledApart (entries : List (Value × Value)) : Prop :=
  entries.Pairwise fun e e' => ∀ n, e.1.IsKey n → ¬ e'.1.IsKey n

/-- Different keys for one number are not both numbers. -/
theorem text_of_same_number {k k' : Value} {n : Nat} (hne : k.same k' = false) (h : k.IsKey n)
    (h' : k'.IsKey n) : (∃ s, k = .text s) ∨ ∃ s, k' = .text s := by
  unfold IsKey at h h'
  split at h
  · rename_i i
    obtain ⟨hi, -⟩ := h
    split at h'
    · rename_i j
      obtain ⟨hj, -⟩ := h'
      simp [same, Number.same, hi, hj] at hne
    · exact .inr ⟨_, rfl⟩
    · exact h'.elim
  · exact .inl ⟨_, rfl⟩
  · exact h.elim

end Yaml.Value

/-! ## § The mapping of a table -/

/-- **ReadFrom** — a table has the numbers and labels of a mapping with different keys. -/
structure Options.ReadFrom (entries : List (Yaml.Value × Yaml.Value)) (o : Options) : Prop where
  keys : Yaml.Value.KeysApart entries
  listed : List.Forall₂ (fun e p => e.1.IsKey p.1 ∧ e.2.Labels p.2) entries o.entries

/-- The values of a table are different when no two keys spell one of them. -/
theorem Options.ReadFrom.nodup_values_iff {entries : List (Yaml.Value × Yaml.Value)} {o : Options}
    (h : o.ReadFrom entries) :
    (o.entries.map Prod.fst).Nodup ↔ Yaml.Value.SpelledApart entries := by
  rw [List.Nodup, List.pairwise_map, Yaml.Value.SpelledApart]
  refine (pairwise_iff_of_forall₂ ?_ h.listed).symm
  rintro e e' p p' ⟨hp, -⟩ ⟨hp', -⟩
  constructor
  · intro hapart heq
    exact hapart p.1 hp (heq ▸ hp')
  · intro hne n hn hn'
    exact hne ((hp.unique hn).trans (hn'.unique hp'))

/-- Of two keys that spell one number, at least one is a text. -/
theorem Options.ReadFrom.text_of_repeated {entries : List (Yaml.Value × Yaml.Value)} {o : Options}
    (h : o.ReadFrom entries) : entries.Pairwise fun e e' => ∀ n, e.1.IsKey n → e'.1.IsKey n →
      (∃ s, e.1 = .text s) ∨ ∃ s, e'.1 = .text s :=
  h.keys.imp fun hne _ hn hn' => Yaml.Value.text_of_same_number hne hn hn'

/-- A field has the options that are written in its draft. -/
theorem Field.options_of_ofDraft {register : String} {last : Nat} {d : Draft.Field} {f : Field}
    (h : ofDraft register last d = .ok f) (hkeys : d.Keyed) :
    f.options.ReadFrom (d.opts.getD []) := by
  obtain ⟨-, bits, -, width, -, most, -, entries, hentries, rfl⟩ := ofDraft_eq_ok.1 h
  refine ⟨?_, (mapM_eq_ok.1 hentries).imp fun e p hp => ?_⟩
  · cases hopts : d.opts with
    | none => exact List.Pairwise.nil
    | some es => exact hkeys es hopts
  · obtain ⟨hnumber, hle, hlabel⟩ := optionOf_eq_ok.1 hp
    have hlt : p.1 < capacity 64 := by
      rw [BitMask.window_eq] at hle
      exact Nat.lt_of_le_of_lt hle (Nat.mod_lt _ (capacity_pos 64))
    exact ⟨(naturalOf_eq_ok_of_lt hlt).1 hnumber, labelOf_eq_ok.1 hlabel⟩

/-! ## § The draft of a field -/

theorem Register.keyed_of_mem_draftFields {d : Draft.Register} {last : Nat} {f : Draft.Field}
    (hd : d.Keyed) (hf : f ∈ draftFields d last) : f.Keyed := by
  unfold draftFields at hf
  split at hf
  · rename_i g gs hfields
    exact hd _ hfields f hf
  · rw [List.mem_singleton.1 hf]
    intro es hes
    cases hes

namespace Device

variable {text : String} {d : Device} {page : Page} {r : Register} {f : Field}

/-- **IsDraft** — a field of a register on a page of the device is built of this draft, which stands
in the text or takes the place of missing fields. -/
def IsDraft (d : Device) (text : String) (page : Page) (r : Register) (f : Field)
    (draft : Draft.Field) : Prop :=
  ∃ device, Draft.Device.ofText text = .ok device ∧ ∃ p ∈ device.pages,
    (Page.build d.dataWidth p).result = .ok page ∧ ∃ reg ∈ p.regs,
      (Register.build d.dataWidth reg).result = .ok r ∧
      draft ∈ Register.draftFields reg (Register.lastBit d.dataWidth r.wordCount) ∧
      Field.ofDraft reg.name (Register.lastBit d.dataWidth r.wordCount) draft = .ok f

/-- Each field of an accepted description has a draft. -/
theorem exists_isDraft (haccepted : (ofText text).result = .ok d) (hpage : page ∈ d.pages)
    (hreg : r ∈ page.regs) (hf : f ∈ r.fields) :
    ∃ draft, d.IsDraft text page r f draft ∧ f.options.ReadFrom (draft.opts.getD []) := by
  obtain ⟨device, hread, hbuild⟩ := ofText_eq_ok.1 haccepted
  obtain ⟨s, -, pages, hpages, t, -, tables, -, rfl⟩ := build_eq_ok.1 hbuild
  -- From the outside to the inside, each part is built of one of the drafts.
  obtain ⟨p, hp, hpageBuilt⟩ := exists_of_mem_mapM hpages hpage
  obtain ⟨-, regs, hregs, rfl⟩ := Page.build_eq_ok.1 hpageBuilt
  obtain ⟨reg, hin, hregBuilt⟩ := exists_of_mem_mapM hregs hreg
  obtain ⟨-, range, -, fields, hfields, rfl⟩ := Register.build_eq_ok.1 hregBuilt
  have hunsorted : f ∈ fields := (Register.sortFields_perm fields).subset hf
  obtain ⟨draft, hdraft, hfield⟩ := exists_of_mem_mapM hfields hunsorted
  have hkeyed : draft.Keyed :=
    Register.keyed_of_mem_draftFields (Draft.keyed_of_ofText hread p hp reg hin) hdraft
  exact ⟨draft, ⟨device, hread, p, hp, hpageBuilt, reg, hin, hregBuilt, hdraft, hfield⟩,
    Field.options_of_ofDraft hfield hkeyed⟩

end Device

/-! ## § Enumerations of a header -/

namespace Header.Place

variable {p : Place} {f : Field}

/-- The enumerators of a table have its values one by one. -/
theorem values_optionEnum (p : Place) (f : Field) :
    (p.optionEnum f).entries.map (fun e => e.2.value) = f.options.entries.map Prod.fst := by
  rw [optionEnum, Declaration.entries, List.map_map]
  rfl

/-- A header has the tables of all fields, except of a lone value. -/
theorem optionEnum_mem_declared (hf : f ∈ p.reg.fields) (hvalue : p.reg.isValueOnly = false)
    (hsome : f.options.entries ≠ []) : p.optionEnum f ∈ p.declared := by
  have hmem : p.optionEnum f ∈ p.optionEnums :=
    List.mem_map_of_mem (List.mem_filter.2 ⟨hf, by simpa using hsome⟩)
  exact List.mem_append_left _ (mem_introduction.2 (.inr (.inr ⟨hvalue, .inl hmem⟩)))

end Header.Place

/-! ## § Accepted descriptions -/

namespace Device

variable {text : String} {d : Device} {page : Page} {r : Register} {f : Field}

/-- **What a table of options says.** The table of a field is read from the mapping of its draft,
entry by entry, and its keys are different. A value that is not listed has no label; a value that is
listed has the label of its first entry, and each entry gives the label of its value just when equal
values have equal labels. This is so when the values are different, and they are when no two keys of
the mapping spell one number. Where two keys do, one of them is a text at least. A header lists the
values as the table does. -/
theorem option_tables (haccepted : (ofText text).result = .ok d) (hpage : page ∈ d.pages)
    (hreg : r ∈ page.regs) (hf : f ∈ r.fields) :
    (∃ draft, d.IsDraft text page r f draft ∧ f.options.ReadFrom (draft.opts.getD []) ∧
      ((f.options.entries.map Prod.fst).Nodup ↔ Yaml.Value.SpelledApart (draft.opts.getD [])) ∧
      (draft.opts.getD []).Pairwise fun e e' => ∀ n, e.1.IsKey n → e'.1.IsKey n →
        (∃ s, e.1 = .text s) ∨ ∃ s, e'.1 = .text s) ∧
    (∀ v, f.options.label? v = none ↔ ∀ e ∈ f.options.entries, e.1 ≠ v) ∧
    (∀ v label, f.options.label? v = some label ↔ ∃ before after,
      f.options.entries = before ++ (v, label) :: after ∧ ∀ e ∈ before, e.1 ≠ v) ∧
    ((∀ e ∈ f.options.entries, f.options.label? e.1 = some e.2) ↔
      ∀ e ∈ f.options.entries, ∀ e' ∈ f.options.entries, e.1 = e'.1 → e.2 = e'.2) ∧
    ((f.options.entries.map Prod.fst).Nodup →
      ∀ e ∈ f.options.entries, f.options.label? e.1 = some e.2) ∧
    ∀ title header, (Header.generate d title).result = .ok header → r.isValueOnly = false →
      f.options.entries ≠ [] →
      ∃ ds, Header.Scope.declarations ⟨d, title⟩ = .ok ds ∧
        header = Header.Declaration.renderAll ds ∧
        ∃ table ∈ ds, table = Header.Place.optionEnum ⟨⟨d, title⟩, page, r⟩ f ∧
          table.entries.map (fun e => e.2.value) = f.options.entries.map Prod.fst := by
  obtain ⟨draft, hdraft, hread⟩ := exists_isDraft haccepted hpage hreg hf
  refine ⟨⟨draft, hdraft, hread, hread.nodup_values_iff, hread.text_of_repeated⟩,
    fun v => Options.label?_eq_none_iff, fun v label => Options.label?_eq_some_iff,
    Options.forall_label?_iff, Options.label?_of_nodup, ?_⟩
  intro title header hgenerated hvalue hsome
  obtain ⟨hall, rfl⟩ := Header.generate_eq_ok.1 hgenerated
  refine ⟨_, Header.Scope.declarations_eq_ok.2 ⟨hall, rfl⟩, rfl, _, ?_, rfl,
    Header.Place.values_optionEnum _ f⟩
  have hplace : (⟨⟨d, title⟩, page, r⟩ : Header.Place) ∈ Header.Scope.places ⟨d, title⟩ :=
    Header.Scope.mem_places.2 ⟨rfl, hpage, hreg⟩
  have hdeclared : Header.Place.optionEnum ⟨⟨d, title⟩, page, r⟩ f ∈
      Header.Place.declared ⟨⟨d, title⟩, page, r⟩ :=
    Header.Place.optionEnum_mem_declared hf hvalue hsome
  exact List.mem_append_right _ (List.mem_flatMap.2 ⟨_, hplace, hdeclared⟩)

end Device

/-! ## § One value with two spellings -/

namespace Twice

/-- **text** — a device with a field that has labels for the number 0 and for the text `0x0`. -/
def text : String :=
  "name: Twice\naddr_width: 8\ndata_width: 8\npages:\n- name: Main\n  regs:\n  - name: CTRL\n"
    ++ "    addr: 0\n    fields:\n    - name: MODE\n      bits: \"1:0\"\n      opts:\n"
    ++ "        0: A\n        \"0x0\": B\n        2: C\n"

/-- **mode** — the field. -/
def mode : Field :=
  ⟨"MODE", "MODE", .range 1 0, BitMask.ofRange 0 2, .ones 2, ⟨[(0, "A"), (0, "B"), (2, "C")]⟩⟩

/-- **control** — its register. -/
def control : Register where
  name := "CTRL"
  addrHi := 0
  addrLo := 0
  bigOrder := false
  fields := [mode]
  fieldIndex := .ofNames ["MODE"]

/-- **page** — the only page. -/
def page : Page := ⟨"Main", [control], .ofNames ["CTRL"]⟩

/-- **device** — what the text describes. -/
def device : Device where
  name := "Twice"
  desc := "Twice"
  regPrefix := ""
  pagePrefix := false
  fieldPrefix := []
  fieldMacros := false
  addrWidth := 8
  dataWidth := 8
  bus := {}
  pages := [page]
  tables := []
  flat := FlatEntry.ofPages false [page]
  pageIndex := .ofNames ["Main"]
  flatIndex := .ofNames ["CTRL"]

theorem accepted : (Device.ofText text).result = .ok device :=
  Device.ofText_of_chars (Text.ofList_parts (Text.ofList_parts rfl rfl) rfl) (by decide +kernel)

theorem page_mem : page ∈ device.pages := List.mem_singleton_self page

theorem control_mem : control ∈ page.regs := List.mem_singleton_self control

theorem mode_mem : mode ∈ control.fields := List.mem_singleton_self mode

end Twice

namespace Device

/-- The field has no label for 1 and one for 2. Its two entries for 0 have different labels, so not
each of them gives the label of 0, and two keys of its draft spell one number. -/
theorem option_tables_twice :
    (ofText Twice.text).result = .ok Twice.device ∧
    Twice.mode.options.label? 1 = none ∧ Twice.mode.options.label? 2 = some "C" ∧
    (¬ ∀ e ∈ Twice.mode.options.entries, Twice.mode.options.label? e.1 = some e.2) ∧
    ∃ draft, Twice.device.IsDraft Twice.text Twice.page Twice.control Twice.mode draft ∧
      ¬ Yaml.Value.SpelledApart (draft.opts.getD []) := by
  obtain ⟨⟨draft, hdraft, -, hnodup, -⟩, hnone, hsome, hlabels, -⟩ :=
    option_tables Twice.accepted Twice.page_mem Twice.control_mem Twice.mode_mem
  refine ⟨Twice.accepted, (hnone 1).2 (by decide), ?_, ?_, draft, hdraft, ?_⟩
  · exact (hsome 2 "C").2 ⟨[(0, "A"), (0, "B")], [], rfl, by decide⟩
  · rw [hlabels]
    intro h
    exact absurd (h (0, "A") (by decide) (0, "B") (by decide) rfl) (by decide)
  · rw [← hnodup]
    decide

/-- The values of a table need not be different: this description is accepted, its field lists the
value 0 twice, and the label of 0 is not that of the second entry. -/
theorem options_not_functional :
    (ofText Twice.text).result = .ok Twice.device ∧ Twice.page ∈ Twice.device.pages ∧
    Twice.control ∈ Twice.page.regs ∧ Twice.mode ∈ Twice.control.fields ∧
    ¬ (Twice.mode.options.entries.map Prod.fst).Nodup ∧
    (0, "B") ∈ Twice.mode.options.entries ∧ Twice.mode.options.label? 0 ≠ some "B" :=
  ⟨Twice.accepted, Twice.page_mem, Twice.control_mem, Twice.mode_mem, by decide, by decide,
    by decide⟩

end Device

end RegisterMap
