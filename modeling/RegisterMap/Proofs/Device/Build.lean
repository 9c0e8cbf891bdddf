import RegisterMap.Device.Build
import RegisterMap.Proofs.Bits.Place
import RegisterMap.Proofs.Device.Name

/-!
# Builds — what each level takes from its draft

A build takes its steps one after another and stops at the first fault. For each level it is said
here once what a build that goes through has found, and what it has made of that. Whatever else is
known of a build starts from there and not from its steps.

## § What is here

* `Field.optionOf_eq_ok`, `Field.bitsOf_eq_ok`, `Field.ofDraft_eq_ok` — fields and their parts;
* `Register.build_eq_ok`, `Page.build_eq_ok`, `FlatEntry.build_eq_ok` — registers, pages, the flat
  table;
* `Device.settingsOf_eq_ok`, `Device.build_eq_ok`, `Device.ofText_eq_ok` — devices;
* `Device.ofText_of_chars` — devices by the characters of their texts.
-/

namespace RegisterMap

open Outcome

/-! ## § Fields -/

namespace Field

variable {register : String} {last : Nat} {d : Draft.Field}

/-- An option has a number that the lowest 64 bits of the greatest value allow, and a label. -/
theorem optionOf_eq_ok {what : String} {shown : Nat} {most : BitMask}
    {e : Yaml.Value × Yaml.Value} {o : Nat × String} :
    optionOf what shown most e = .ok o ↔
      naturalOf what e.1 = .ok o.1 ∧ o.1 ≤ most.window 0 64 ∧ labelOf what e.2 = .ok o.2 := by
  rw [optionOf, bind_eq_ok]
  constructor
  · rintro ⟨value, hvalue, h⟩
    split at h
    · cases h
    · rename_i hle
      obtain ⟨label, hlabel, h⟩ := bind_eq_ok.1 h
      cases h
      exact ⟨hvalue, Nat.le_of_not_lt hle, hlabel⟩
  · rintro ⟨hvalue, hle, hlabel⟩
    refine ⟨o.1, hvalue, ?_⟩
    rw [if_neg (Nat.not_lt.2 hle)]
    exact bind_eq_ok.2 ⟨o.2, hlabel, rfl⟩

/-- The bits of a field are those of its text, when they lie inside the register. -/
theorem bitsOf_eq_ok {bits : BitSpec} : bitsOf register last d = .ok bits ↔
    BitSpec.parse (String.ofList d.bits.chars) = .ok bits ∧ bits.hi ≤ last := by
  rw [bitsOf, bind_eq_ok, BitSpec.parse, String.toList_ofList]
  constructor
  · rintro ⟨spec, hspec, h⟩
    split at h
    · cases h
    · rename_i hle
      cases h
      exact ⟨mapError_eq_ok.1 hspec, Nat.le_of_not_lt hle⟩
  · rintro ⟨hspec, hle⟩
    exact ⟨bits, mapError_eq_ok.2 hspec, if_neg (Nat.not_lt.2 hle)⟩

/-- A field has a name, bits that can be counted, and options that fit into them. -/
theorem ofDraft_eq_ok {f : Field} : ofDraft register last d = .ok f ↔
    IsName d.name ∧ ∃ bits, bitsOf register last d = .ok bits ∧
      ∃ width, bits.width = .ok width ∧
      ∃ most, bits.maxValue = .ok most ∧
      ∃ entries, (d.opts.getD []).mapM
          (optionOf (register ++ "::" ++ d.name ++ " opts") width most) = .ok entries ∧
        ⟨d.name, d.desc.getD d.name, bits, bits.mask, most, ⟨entries⟩⟩ = f := by
  simp only [ofDraft, bind_eq_ok, mapError_eq_ok, checkIdentifier_eq_ok, exists_const,
    Except.ok.injEq]

/-- The log has no part in what a field is. -/
@[simp] theorem result_build (addr : Nat) :
    (build register addr last d).result = ofDraft register last d := by
  simp only [build, Logged.result_bind, Logged.result_ofExcept, Logged.result_write,
    Logged.result_pure]
  cases ofDraft register last d with
  | error e => rfl
  | ok f => rfl

end Field

/-! ## § Registers and pages -/

/-- A register has a name, addresses, and the fields of its draft in order. -/
theorem Register.build_eq_ok {dataWidth : Nat} {d : Draft.Register} {r : Register} :
    (build dataWidth d).result = .ok r ↔
      IsName d.name ∧ ∃ range, AddressRange.ofScalar d.name d.addr = .ok range ∧
        ∃ fields, (draftFields d (lastBit dataWidth range.wordCount)).mapM
            (Field.ofDraft d.name (lastBit dataWidth range.wordCount)) = .ok fields ∧
          ofFields d.name range fields = r := by
  simp only [build, rangeOf, Logged.result_bind, Logged.result_ofExcept, Logged.result_mapM,
    Logged.result_pure, Field.result_build, bind_eq_ok, mapError_eq_ok, checkIdentifier_eq_ok,
    exists_const, Except.ok.injEq, and_assoc, exists_and_left]

/-- A page has a name and the registers of its draft. -/
theorem Page.build_eq_ok {dataWidth : Nat} {d : Draft.Page} {p : Page} :
    (build dataWidth d).result = .ok p ↔
      IsName d.name ∧
        ∃ regs, d.regs.mapM (fun r => (Register.build dataWidth r).result) = .ok regs ∧
          ⟨d.name, regs, NameIndex.ofNames (regs.map Register.name)⟩ = p := by
  simp only [build, Logged.result_bind, Logged.result_ofExcept, Logged.result_mapM,
    Logged.result_pure, bind_eq_ok, mapError_eq_ok, checkIdentifier_eq_ok, exists_const,
    Except.ok.injEq]

/-! ## § The flat table -/

/-- The flat table has the words of all pages, and an index of their names. -/
theorem FlatEntry.build_eq_ok {pagePrefix : Bool} {pages : List Page}
    {t : List FlatEntry × NameIndex} :
    (build pagePrefix pages).result = .ok t ↔ ofPages pagePrefix pages = t.1 ∧
      (indexFrom NameIndex.empty (ofPages pagePrefix pages)).result = .ok t.2 := by
  obtain ⟨flat, index⟩ := t
  simp only [build, Logged.result_bind, Logged.result_pure, bind_eq_ok, Except.ok.injEq,
    Prod.mk.injEq]
  constructor
  · rintro ⟨i, hi, rfl, rfl⟩
    exact ⟨rfl, hi⟩
  · rintro ⟨rfl, hi⟩
    exact ⟨index, hi, rfl, rfl⟩

/-! ## § Devices -/

namespace Device

theorem checkWidth_eq_ok {what : String} {width : Nat} {u : Unit} :
    checkWidth what width = .ok u ↔ 1 ≤ width ∧ width ≤ 64 := by
  rw [checkWidth]
  split
  · rename_i h
    exact iff_of_true rfl h
  · rename_i h
    exact iff_of_false (by simp) h

/-- The settings have widths from 1 to 64, and what the draft says of names and of the bus. -/
theorem settingsOf_eq_ok {d : Draft.Device} {s : Settings} : settingsOf d = .ok s ↔
    ∃ a, d.addrWidth.natural "addr_width" = .ok a ∧
      ∃ w, d.dataWidth.natural "data_width" = .ok w ∧
        (1 ≤ a ∧ a ≤ 64) ∧ (1 ≤ w ∧ w ≤ 64) ∧
        ∃ parts, d.fieldPrefix.mapM NamePart.ofText = .ok parts ∧
        ∃ bus, d.bus.mapM BusBinding.ofDraft = .ok bus ∧ ⟨a, w, parts, bus.getD {}⟩ = s := by
  simp only [settingsOf, bind_eq_ok, mapError_eq_ok, checkWidth_eq_ok, exists_const,
    Except.ok.injEq]

/-- A device has the settings of its draft, its pages, their flat table and the value tables. -/
theorem build_eq_ok {draft : Draft.Device} {d : Device} : (build draft).result = .ok d ↔
    ∃ s, settingsOf draft = .ok s ∧
      ∃ pages, draft.pages.mapM (fun p => (Page.build s.dataWidth p).result) = .ok pages ∧
      ∃ t, (FlatEntry.build draft.pagePrefix pages).result = .ok t ∧
      ∃ tables, ValueTable.build draft.extra = .ok tables ∧
        { name := draft.name
          desc := draft.desc.getD draft.name
          regPrefix := draft.regPrefix
          pagePrefix := draft.pagePrefix
          fieldPrefix := s.fieldPrefix
          fieldMacros := draft.fieldMacros
          addrWidth := s.addrWidth
          dataWidth := s.dataWidth
          bus := s.bus
          pages
          tables
          flat := t.1
          pageIndex := NameIndex.ofNames (pages.map Page.name)
          flatIndex := t.2 } = d := by
  simp only [build, Logged.result_bind, Logged.result_ofExcept, Logged.result_mapM,
    Logged.result_pure, bind_eq_ok, mapError_eq_ok, Except.ok.injEq]

/-- A device is built of the draft that the text has. -/
theorem ofText_eq_ok {text : String} {d : Device} : (ofText text).result = .ok d ↔
    ∃ draft, Draft.Device.ofText text = .ok draft ∧ (build draft).result = .ok d := by
  simp only [ofText, Logged.result_bind, Logged.result_ofExcept, bind_eq_ok, mapError_eq_ok]

end Device

/-! ## § Descriptions by their characters -/

/-- The characters of a text that is put together. -/
theorem Text.ofList_parts {s t : String} {cs ds : List Char} (hs : s = String.ofList cs)
    (ht : t = String.ofList ds) : s ++ t = String.ofList (cs ++ ds) := by
  rw [hs, ht, String.ofList_append]

theorem Draft.Device.ofText_ofList (cs : List Char) :
    ofText (String.ofList cs) = Yaml.Reader.run readDevice (Yaml.Document.ofText cs) := by
  rw [ofText, String.toList_ofList]

/-- The device of a text can be computed from the characters. To decode the text as well would take
longer than all else. -/
theorem Device.ofText_of_chars {text : String} {cs : List Char} {d : Device}
    (htext : text = String.ofList cs)
    (hbuild : (Yaml.Reader.run Draft.readDevice (Yaml.Document.ofText cs)).toOption.bind
      (fun draft => (build draft).result.toOption) = some d) :
    (ofText text).result = .ok d := by
  obtain ⟨draft, hdraft, hdevice⟩ := Option.bind_eq_some_iff.1 hbuild
  refine ofText_eq_ok.2 ⟨draft, ?_, toOption_eq_some.1 hdevice⟩
  rw [htext, Draft.Device.ofText_ofList]
  exact toOption_eq_some.1 hdraft

end RegisterMap
