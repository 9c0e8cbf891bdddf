import RegisterMap.Proofs.Device.FlatTable
import RegisterMap.Proofs.Device.Invariant
import RegisterMap.Proofs.Draft.Register
import RegisterMap.Proofs.Draft.ValueTable

/-!
# Accepted descriptions — the valid ones and no others

A build looks at the settings, the pages, the names of all words and the tables, and ends at the
first fault. Each of these steps goes through exactly when its part of the draft is valid, so what
is accepted is what is valid, whatever else the description says.

## § What is here

* `BusBinding.exists_ofDraft_iff`, `Device.settingsOf_spec` — the settings;
* `Device.hasName_iff` — the names of the words, in the draft and in the pages that are built;
* `Device.accepted_iff_valid` — exactly the valid descriptions are accepted.
-/

namespace RegisterMap

open Outcome

/-! ## § The bus -/

/-- A binding is accepted when its masks are numbers, of one direction at most. -/
theorem BusBinding.exists_ofDraft_iff {d : Draft.Bus} :
    (∃ b, ofDraft d = .ok b) ↔ d.Valid := by
  have hmask : ∀ (what : String) {o : Option Draft.Scalar},
      (∃ m, o.mapM (Draft.Scalar.natural what) = .ok m) ↔ ∀ s ∈ o, ∃ n, s.Means n := by
    intro what o
    rw [exists_option_mapM_iff]
    exact forall₂_congr fun s _ => exists_congr fun n => Draft.Scalar.natural_eq_ok
  constructor
  · rintro ⟨b, h⟩
    obtain ⟨write, hwrite, h⟩ := bind_eq_ok.1 h
    obtain ⟨read, hread, h⟩ := bind_eq_ok.1 h
    have hwrite := mapError_eq_ok.1 hwrite
    have hread := mapError_eq_ok.1 hread
    refine ⟨(hmask _).1 ⟨write, hwrite⟩, (hmask _).1 ⟨read, hread⟩, ?_⟩
    rw [← option_mapM_eq_none hwrite, ← option_mapM_eq_none hread]
    split at h
    · cases h
    · exact .inr rfl
    · exact .inl rfl
    · exact .inl rfl
  · rintro ⟨hwrite, hread, hsingle⟩
    obtain ⟨write, hwrite⟩ := (hmask "bus.wr_mask").2 hwrite
    obtain ⟨read, hread⟩ := (hmask "bus.rd_mask").2 hread
    have hone : write = none ∨ read = none := by
      rwa [option_mapM_eq_none hwrite, option_mapM_eq_none hread]
    unfold ofDraft
    rw [hwrite, hread]
    rcases hone with rfl | rfl
    · cases read with
      | none => exact ⟨_, rfl⟩
      | some m => exact ⟨_, rfl⟩
    · cases write with
      | none => exact ⟨_, rfl⟩
      | some m => exact ⟨_, rfl⟩

/-! ## § Settings -/

namespace Device

/-- The settings are accepted when the widths are numbers from 1 to 64, the parts before a name are
known, and the bus is valid. -/
theorem settingsOf_spec {d : Draft.Device} {width : Nat} :
    (∃ s, settingsOf d = .ok s ∧ s.dataWidth = width) ↔
      (∃ w, d.addrWidth.Means w ∧ 1 ≤ w ∧ w ≤ 64) ∧
      (d.dataWidth.Means width ∧ 1 ≤ width ∧ width ≤ 64) ∧
      (∀ s ∈ d.fieldPrefix, ∃ t ∈ NamePart.texts, Text.equalsIgnoringAsciiCase s t = true) ∧
      ∀ b ∈ d.bus, b.Valid := by
  have hprefix : (∃ ps, d.fieldPrefix.mapM NamePart.ofText = .ok ps) ↔ ∀ s ∈ d.fieldPrefix,
      ∃ t ∈ NamePart.texts, Text.equalsIgnoringAsciiCase s t = true := by
    rw [exists_mapM_iff]
    exact forall₂_congr fun s _ => NamePart.exists_ofText_iff
  have hbus : (∃ b, d.bus.mapM BusBinding.ofDraft = .ok b) ↔ ∀ b ∈ d.bus, b.Valid := by
    rw [exists_option_mapM_iff]
    exact forall₂_congr fun b _ => BusBinding.exists_ofDraft_iff
  constructor
  · rintro ⟨s, h, rfl⟩
    obtain ⟨a, ha, w, hw, hawidth, hwwidth, ps, hps, b, hb, rfl⟩ := settingsOf_eq_ok.1 h
    exact ⟨⟨a, Draft.Scalar.natural_eq_ok.1 ha, hawidth⟩,
      ⟨Draft.Scalar.natural_eq_ok.1 hw, hwwidth⟩, hprefix.1 ⟨ps, hps⟩, hbus.1 ⟨b, hb⟩⟩
  · rintro ⟨⟨a, ha, hawidth⟩, ⟨hw, hwwidth⟩, hps, hb⟩
    obtain ⟨ps, hps⟩ := hprefix.2 hps
    obtain ⟨b, hb⟩ := hbus.2 hb
    exact ⟨⟨a, width, ps, b.getD {}⟩, settingsOf_eq_ok.2 ⟨a, Draft.Scalar.natural_eq_ok.2 ha,
      width, Draft.Scalar.natural_eq_ok.2 hw, hawidth, hwwidth, ps, hps, b, hb, rfl⟩, rfl⟩

end Device

/-! ## § Names of words -/

namespace Device

/-- A word of the draft has a name when the word of the register that is built has it. -/
theorem hasName_iff {draft : Draft.Device} {dataWidth : Nat} {pages : List Page}
    (hpages : List.Forall₂ (fun p page => (Page.build dataWidth p).result = .ok page)
      draft.pages pages) {i j k : Nat} {name : String} :
    draft.HasName i j k name ↔ ∃ page reg, pages[i]? = some page ∧ page.regs[j]? = some reg ∧
      k < reg.wordCount ∧
      name = FlatEntry.wordName (canonicalName draft.pagePrefix page reg) reg k := by
  have hname : ∀ {p : Draft.Page} {page : Page} {r : Draft.Register} {reg : Register} {n : Nat},
      page.name = p.name → reg.name = r.name → reg.wordCount = n →
      FlatEntry.wordName (canonicalName draft.pagePrefix page reg) reg k
        = Draft.wordName draft.pagePrefix p r n k := by
    rintro p page r reg n hp hr rfl
    rw [FlatEntry.wordName, canonicalName, hp, hr]
    rfl
  constructor
  · rintro ⟨p, r, first, last, hp, hr, hends, hk, rfl⟩
    obtain ⟨page, hpage, hbuild⟩ := exists_of_forall₂ hpages hp
    obtain ⟨hpageName, hregs⟩ := Page.of_build hbuild
    obtain ⟨reg, hreg, hbuild⟩ := exists_of_forall₂ hregs hr
    obtain ⟨hregName, first', last', hends', hcount⟩ := Register.of_build hbuild
    -- The build reads the same ends of the address, so it counts the same words.
    obtain ⟨rfl, rfl⟩ := hends.unique hends'
    exact ⟨page, reg, hpage, hreg, by omega, (hname hpageName hregName hcount).symm⟩
  · rintro ⟨page, reg, hpage, hreg, hk, rfl⟩
    obtain ⟨p, hp, hbuild⟩ := exists_of_forall₂ hpages.flip hpage
    obtain ⟨hpageName, hregs⟩ := Page.of_build hbuild
    obtain ⟨r, hr, hbuild⟩ := exists_of_forall₂ hregs.flip hreg
    obtain ⟨hregName, first, last, hends, hcount⟩ := Register.of_build hbuild
    exact ⟨p, r, first, last, hp, hr, hends, by omega, hname hpageName hregName hcount⟩

/-- The flat table is built when no two words of the draft have one name. -/
theorem exists_flat_iff {draft : Draft.Device} {dataWidth : Nat} {pages : List Page}
    (hpages : List.Forall₂ (fun p page => (Page.build dataWidth p).result = .ok page)
      draft.pages pages) :
    (∃ t, (FlatEntry.build draft.pagePrefix pages).result = .ok t) ↔
      ∀ i j k i' j' k' name, draft.HasName i j k name → draft.HasName i' j' k' name →
        i = i' ∧ j = j' ∧ k = k' := by
  have hsound : ∀ page ∈ pages, page.Sound dataWidth := by
    intro page hmem
    obtain ⟨p, -, hbuild⟩ := exists_of_mem_forall₂ hpages hmem
    exact Page.sound_of_build hbuild
  rw [FlatEntry.exists_build_iff hsound]
  constructor
  · intro h i j k i' j' k' name hname hname'
    obtain ⟨page, reg, hp, hr, hk, rfl⟩ := (hasName_iff hpages).1 hname
    obtain ⟨page', reg', hp', hr', hk', heq⟩ := (hasName_iff hpages).1 hname'
    exact h i j k i' j' k' page page' reg reg' hp hr hk hp' hr' hk' heq
  · intro h i j k i' j' k' page page' reg reg' hp hr hk hp' hr' hk' heq
    exact h i j k i' j' k' _ ((hasName_iff hpages).2 ⟨page, reg, hp, hr, hk, rfl⟩)
      ((hasName_iff hpages).2 ⟨page', reg', hp', hr', hk', heq⟩)

end Device

/-! ## § Descriptions -/

/-- **text** — a device with a register of two words, and a register that is called as the first of
these words. -/
def Clash.text : String :=
  "name: A\naddr_width: 8\ndata_width: 8\npages:\n- name: P\n  regs:\n  - name: R\n"
    ++ "    addr: \"1:2\"\n  - name: R_BY0\n    addr: 3\n"

theorem Clash.read : ∃ draft, Draft.Device.ofText text = .ok draft := by
  have htext : text = String.ofList _ := Text.ofList_parts rfl rfl
  have hsome : (Draft.Device.ofText text).toOption.isSome = true := by
    rw [htext, Draft.Device.ofText_ofList]
    decide +kernel
  obtain ⟨draft, hdraft⟩ := Option.isSome_iff_exists.1 hsome
  exact ⟨draft, toOption_eq_some.1 hdraft⟩

theorem Clash.rejected (d : Device) : (Device.ofText text).result ≠ .ok d := by
  have htext : text = String.ofList _ := Text.ofList_parts rfl rfl
  have hnone : (Device.ofText text).result.toOption = none := by
    rw [Device.ofText, htext, Draft.Device.ofText_ofList]
    decide +kernel
  intro h
  rw [toOption_eq_some.2 h] at hnone
  cases hnone

namespace Device

/-- What is accepted has been read. -/
theorem exists_draft_of_accepted {text : String} {d : Device} (h : (ofText text).result = .ok d) :
    ∃ draft, Draft.Device.ofText text = .ok draft := by
  obtain ⟨draft, hread, -⟩ := ofText_eq_ok.1 h
  exact ⟨draft, hread⟩

/-- Of a draft that has been read, exactly the valid ones are built. -/
theorem exists_build_iff {draft : Draft.Device} (hkept : Draft.Kept draft.extra) :
    (∃ d, (build draft).result = .ok d) ↔ draft.Valid := by
  constructor
  · rintro ⟨d, h⟩
    obtain ⟨s, hs, pages, hpages, t, hflat, tables, htables, -⟩ := build_eq_ok.1 h
    obtain ⟨haddr, ⟨hmeans, hlow, hhigh⟩, hprefix, hbus⟩ := settingsOf_spec.1 ⟨s, hs, rfl⟩
    refine
      { addrWidth := haddr
        dataWidth := ⟨s.dataWidth, hmeans, hlow, hhigh, ?_⟩
        fieldPrefix := hprefix
        bus := hbus
        names := (exists_flat_iff (mapM_eq_ok.1 hpages)).1 ⟨t, hflat⟩
        tables := (ValueTable.exists_build_iff hkept).1 ⟨tables, htables⟩ }
    intro p hp
    exact (Page.exists_build_iff hlow hhigh).1 (exists_mapM_iff.1 ⟨pages, hpages⟩ p hp)
  · rintro ⟨haddr, ⟨w, hmeans, hlow, hhigh, hvalid⟩, hprefix, hbus, hnames, htables⟩
    obtain ⟨s, hs, rfl⟩ := settingsOf_spec.2 ⟨haddr, ⟨hmeans, hlow, hhigh⟩, hprefix, hbus⟩
    obtain ⟨pages, hpages⟩ := exists_mapM_iff.2 fun p hp =>
      (Page.exists_build_iff hlow hhigh).2 (hvalid p hp)
    obtain ⟨t, hflat⟩ := (exists_flat_iff (mapM_eq_ok.1 hpages)).2 hnames
    obtain ⟨tables, htables⟩ := (ValueTable.exists_build_iff hkept).2 htables
    exact ⟨_, build_eq_ok.2 ⟨s, hs, pages, hpages, t, hflat, tables, htables, rfl⟩⟩

/-- **Accepted means valid.** A description that can be read gives a device exactly when it is
valid. -/
theorem accepted_iff_valid {text : String} {draft : Draft.Device}
    (h : Draft.Device.ofText text = .ok draft) :
    (∃ d, (ofText text).result = .ok d) ↔ draft.Valid := by
  rw [← exists_build_iff (Draft.extra_of_ofText h)]
  constructor
  · rintro ⟨d, hd⟩
    obtain ⟨read, hread, hbuild⟩ := ofText_eq_ok.1 hd
    rw [h] at hread
    cases hread
    exact ⟨d, hbuild⟩
  · rintro ⟨d, hd⟩
    exact ⟨d, ofText_eq_ok.2 ⟨draft, h, hd⟩⟩

/-- One description is accepted and so it is valid; in the other one two words have one name, so it
is neither. -/
theorem accepted_iff_valid_tuner :
    (∃ draft, Draft.Device.ofText Tuner.text = .ok draft ∧ draft.Valid) ∧
    ∃ draft, Draft.Device.ofText Clash.text = .ok draft ∧ ¬ draft.Valid := by
  obtain ⟨draft, hread⟩ := exists_draft_of_accepted Tuner.accepted
  obtain ⟨clash, hclash⟩ := Clash.read
  refine ⟨⟨draft, hread, (accepted_iff_valid hread).1 ⟨_, Tuner.accepted⟩⟩, clash, hclash, ?_⟩
  intro hvalid
  obtain ⟨d, hd⟩ := (accepted_iff_valid hclash).2 hvalid
  exact Clash.rejected d hd

end Device

end RegisterMap
