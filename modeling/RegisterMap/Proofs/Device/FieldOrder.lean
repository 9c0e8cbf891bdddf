import Mathlib.Data.List.Perm.Basic
import RegisterMap.Header
import RegisterMap.Proofs.Device.Sound

/-!
# The order of fields — what does not depend on how a register lists them

Each field of a register is built from its own draft, and then the fields are put in order. So a
register may list its fields in any order: it is accepted or not, and when no two fields start at
the same bit, the register that is built is the same one. Fields that start at the same bit keep the
order in which they are listed, so there the list still shows.

## § What is here

* `InOrder`, `inOrder_sortFields`, `InOrder.unique` — the stable descending order, which only one
  list has;
* `sortFields_eq_of_perm` — lists of the same fields whose lowest bits are all different;
* `Draft.Register.Reordered`, `Draft.Page.Reordered`, `Draft.Device.Reordered` — drafts that list
  fields in different orders;
* `build_withFields`, `build_of_reordered` — what such registers are built of, and that they are the
  same;
* `Device.field_order` — all of this, for registers, devices and headers.
-/

namespace RegisterMap

open Outcome

/-! ## § The stable order -/

namespace Register

/-- **InOrder** — the declared fields in descending order of their lowest bits. Those that start at
the same bit are in the order of their declaration. -/
structure InOrder (declared sorted : List Field) : Prop where
  perm : sorted.Perm declared
  descending : sorted.Pairwise fun f g => g.lo ≤ f.lo
  stable : ∀ n, sorted.filter (fun f => f.lo = n) = declared.filter (fun f => f.lo = n)

/-- A field moves down past fields that start above it, and so never past one that starts where it
starts. -/
theorem filter_insertField (n : Nat) (f : Field) (gs : List Field) :
    (insertField f gs).filter (fun f => f.lo = n) = (f :: gs).filter (fun f => f.lo = n) := by
  induction gs with
  | nil => rfl
  | cons g gs ih =>
    rw [insertField]
    split
    · rfl
    · rename_i habove
      rw [List.filter_cons, ih]
      by_cases hf : f.lo = n
      · have hg : g.lo ≠ n := by omega
        simp [hf, hg]
      · simp [List.filter_cons, hf]

theorem filter_sortFields (n : Nat) (fs : List Field) :
    (sortFields fs).filter (fun f => f.lo = n) = fs.filter (fun f => f.lo = n) := by
  induction fs with
  | nil => rfl
  | cons f fs ih => rw [sortFields, filter_insertField, List.filter_cons, List.filter_cons, ih]

/-- Sorting puts fields in order. -/
theorem inOrder_sortFields (fs : List Field) : InOrder fs (sortFields fs) :=
  ⟨sortFields_perm fs, descending_sortFields fs, fun n => filter_sortFields n fs⟩

theorem mem_iff_of_filter {fs gs : List Field}
    (h : ∀ n, fs.filter (fun f => f.lo = n) = gs.filter (fun f => f.lo = n)) (f : Field) :
    f ∈ fs ↔ f ∈ gs := by
  have hsame : f ∈ fs.filter (fun g => g.lo = f.lo) ↔ f ∈ gs.filter (fun g => g.lo = f.lo) := by
    rw [h]
  simpa using hsame

/-- Of descending fields, the first one starts at the highest bit. -/
theorem lo_le_head {f g : Field} {fs : List Field}
    (hfs : (f :: fs).Pairwise fun f g => g.lo ≤ f.lo) (hg : g ∈ f :: fs) : g.lo ≤ f.lo := by
  rcases List.mem_cons.1 hg with rfl | hin
  · exact Nat.le_refl _
  · exact List.rel_of_pairwise_cons hfs hin

/-- Descending fields are known when for each bit the fields are known that start there. -/
theorem eq_of_filter {fs gs : List Field} (hfs : fs.Pairwise fun f g => g.lo ≤ f.lo)
    (hgs : gs.Pairwise fun f g => g.lo ≤ f.lo)
    (h : ∀ n, fs.filter (fun f => f.lo = n) = gs.filter (fun f => f.lo = n)) : fs = gs := by
  induction fs generalizing gs with
  | nil =>
    refine (List.eq_nil_iff_forall_not_mem.2 fun g hg => ?_).symm
    exact List.not_mem_nil ((mem_iff_of_filter h g).2 hg)
  | cons f fs ih =>
    cases gs with
    | nil => exact absurd ((mem_iff_of_filter h f).1 List.mem_cons_self) List.not_mem_nil
    | cons g gs =>
      -- Each of the first fields is in the other list, so both start at the same bit.
      have hlo : g.lo = f.lo := Nat.le_antisymm
        (lo_le_head hfs ((mem_iff_of_filter h g).2 List.mem_cons_self))
        (lo_le_head hgs ((mem_iff_of_filter h f).1 List.mem_cons_self))
      obtain rfl : f = g := by
        have hfirst := h f.lo
        rw [List.filter_cons_of_pos (by simp), List.filter_cons_of_pos (by simp [hlo])] at hfirst
        exact (List.cons.inj hfirst).1
      rw [ih hfs.of_cons hgs.of_cons]
      intro n
      have hn := h n
      rw [List.filter_cons, List.filter_cons] at hn
      split at hn
      · exact (List.cons.inj hn).2
      · exact hn

/-- There is one way only to put fields in order. -/
theorem InOrder.unique {declared sorted sorted' : List Field} (h : InOrder declared sorted)
    (h' : InOrder declared sorted') : sorted = sorted' :=
  eq_of_filter h.descending h'.descending fun n => (h.stable n).trans (h'.stable n).symm

/-- The same fields are put in the same order, when no two of them start at the same bit. -/
theorem sortFields_eq_of_perm {fs gs : List Field} (hperm : fs.Perm gs)
    (hapart : fs.Pairwise fun f g => f.lo ≠ g.lo) : sortFields fs = sortFields gs := by
  have hapart' : gs.Pairwise fun f g => f.lo ≠ g.lo := hperm.pairwise hapart fun h => h.symm
  refine eq_of_filter (descending_sortFields fs) (descending_sortFields gs) fun n => ?_
  rw [filter_sortFields, filter_sortFields]
  -- At most one field starts at the bit, so there is nothing to order.
  refine List.Perm.eq_of_pairwise ?_ (hapart.filter _) (hapart'.filter _) (hperm.filter _)
  intro f g hf hg hne
  have hf : f.lo = n := by simpa using (List.mem_filter.1 hf).2
  have hg : g.lo = n := by simpa using (List.mem_filter.1 hg).2
  exact absurd (hf.trans hg.symm) hne

end Register

/-! ## § Drafts in different orders -/

namespace Draft

/-- **Lowest** — the lowest bit of a field as it is written. -/
def Field.Lowest (d : Field) (n : Nat) : Prop :=
  ∃ bits, BitSpec.parse (String.ofList d.bits.chars) = .ok bits ∧ bits.lo = n

/-- A text specifies one lowest bit at most. -/
theorem Field.Lowest.unique {d : Field} {m n : Nat} (h : d.Lowest m) (h' : d.Lowest n) : m = n := by
  obtain ⟨bits, hbits, rfl⟩ := h
  obtain ⟨bits', hbits', rfl⟩ := h'
  rw [Except.ok.inj (hbits.symm.trans hbits')]

/-- **Apart** — no two fields have the same lowest bit. -/
def Field.Apart (ds : List Field) : Prop :=
  ds.Pairwise fun d e => ∀ n, d.Lowest n → ¬ e.Lowest n

/-- **withFields** — the register with these fields. -/
def Register.withFields (d : Register) (fields : List Field) : Register :=
  { d with fields := some fields }

/-- **Reordered** — registers whose fields stand in different orders, where no two fields have the
same lowest bit. -/
inductive Register.Reordered : Register → Register → Prop where
  | same (d : Register) : Reordered d d
  | fields (d : Register) {ds es : List Field} (perm : ds.Perm es) (apart : Field.Apart ds) :
    Reordered (d.withFields ds) (d.withFields es)

/-- **Reordered** — pages whose registers differ in the order of their fields only. -/
def Page.Reordered (d e : Page) : Prop :=
  ∃ regs, List.Forall₂ Register.Reordered d.regs regs ∧ { d with regs } = e

/-- **Reordered** — devices whose registers differ in the order of their fields only. -/
def Device.Reordered (d e : Device) : Prop :=
  ∃ pages, List.Forall₂ Page.Reordered d.pages pages ∧ { d with pages } = e

theorem Field.Apart.of_perm {ds es : List Field} (perm : ds.Perm es) (h : Apart ds) : Apart es :=
  perm.pairwise h fun hd n hn hn' => hd n hn' hn

theorem Register.Reordered.symm {d e : Register} (h : d.Reordered e) : e.Reordered d := by
  cases h with
  | same => exact .same d
  | fields d perm apart => exact .fields d perm.symm (apart.of_perm perm)

theorem Page.Reordered.symm {d e : Page} (h : d.Reordered e) : e.Reordered d := by
  obtain ⟨regs, hregs, rfl⟩ := h
  exact ⟨d.regs, (hregs.imp fun _ _ hr => hr.symm).flip, rfl⟩

theorem Device.Reordered.symm {d e : Device} (h : d.Reordered e) : e.Reordered d := by
  obtain ⟨pages, hpages, rfl⟩ := h
  exact ⟨d.pages, (hpages.imp fun _ _ hp => hp.symm).flip, rfl⟩

end Draft

/-! ## § Building them -/

/-- A field starts at the lowest bit of its draft. -/
theorem Field.lowest_of_ofDraft {register : String} {last : Nat} {d : Draft.Field} {f : Field}
    (h : ofDraft register last d = .ok f) : d.Lowest f.lo := by
  obtain ⟨-, bits, hbits, _, -, _, -, _, -, rfl⟩ := ofDraft_eq_ok.1 h
  exact ⟨bits, (bitsOf_eq_ok.1 hbits).1, rfl⟩

/-- Fields whose drafts have different lowest bits start at different bits. -/
theorem Field.pairwise_lo_ne {register : String} {last : Nat} {ds : List Draft.Field}
    {fs : List Field} (hbuilt : List.Forall₂ (fun d f => ofDraft register last d = .ok f) ds fs)
    (hapart : Draft.Field.Apart ds) : fs.Pairwise fun f g => f.lo ≠ g.lo := by
  refine (pairwise_iff_of_forall₂ ?_ hbuilt).1 hapart
  intro d e f g hf hg
  have hlow := lowest_of_ofDraft hf
  have hlow' := lowest_of_ofDraft hg
  constructor
  · intro hne heq
    exact hne f.lo hlow (heq ▸ hlow')
  · intro hne n hn hn'
    exact hne ((hlow.unique hn).trans (hn'.unique hlow'))

namespace Register

variable {dataWidth : Nat} {d : Draft.Register} {ds es : List Draft.Field} {r r' : Register}

/-- A register that lists fields is built of these fields. -/
theorem build_withFields (hne : ds ≠ []) : (build dataWidth (d.withFields ds)).result = .ok r ↔
    IsName d.name ∧ ∃ range, AddressRange.ofScalar d.name d.addr = .ok range ∧
      ∃ fields, List.Forall₂ (fun draft f =>
          Field.ofDraft d.name (lastBit dataWidth range.wordCount) draft = .ok f) ds fields ∧
        ofFields d.name range fields = r := by
  obtain ⟨e, es, rfl⟩ := List.exists_cons_of_ne_nil hne
  rw [build_eq_ok]
  show IsName d.name ∧ (∃ range, AddressRange.ofScalar d.name d.addr = .ok range ∧
    ∃ fields, (e :: es).mapM (Field.ofDraft d.name (lastBit dataWidth range.wordCount)) = .ok fields
      ∧ ofFields d.name range fields = r) ↔ _
  simp only [mapM_eq_ok]

/-- Each field is built from its own draft, so in another order the same fields are built. -/
theorem exists_build_of_perm (hne : ds ≠ []) (hperm : ds.Perm es)
    (h : (build dataWidth (d.withFields ds)).result = .ok r) :
    ∃ r', (build dataWidth (d.withFields es)).result = .ok r' := by
  obtain ⟨hname, range, hrange, fs, hfs, -⟩ := (build_withFields hne).1 h
  obtain ⟨gs, hgs, -⟩ := List.perm_comp_forall₂ hperm.symm hfs
  have hne' : es ≠ [] := fun hes => hne (List.perm_nil.1 (hes ▸ hperm))
  exact ⟨_, (build_withFields hne').2 ⟨hname, range, hrange, gs, hgs, rfl⟩⟩

/-- The fields of a register are those of its drafts, in the one order that fields have. -/
theorem fields_of_build (hne : ds ≠ []) (h : (build dataWidth (d.withFields ds)).result = .ok r) :
    ∃ declared, List.Forall₂ (fun draft f =>
        Field.ofDraft d.name (lastBit dataWidth r.wordCount) draft = .ok f) ds declared ∧
      InOrder declared r.fields ∧ ∀ sorted, InOrder declared sorted → sorted = r.fields := by
  obtain ⟨-, range, -, fs, hfs, rfl⟩ := (build_withFields hne).1 h
  have hsorted : InOrder fs (ofFields d.name range fs).fields := inOrder_sortFields fs
  exact ⟨fs, hfs, hsorted, fun sorted h => h.unique hsorted⟩

/-- In another order the same register is built, when no two fields start at the same bit. -/
theorem build_of_perm (hne : ds ≠ []) (hperm : ds.Perm es) (hapart : Draft.Field.Apart ds)
    (h : (build dataWidth (d.withFields ds)).result = .ok r) :
    (build dataWidth (d.withFields es)).result = .ok r := by
  obtain ⟨hname, range, hrange, fs, hfs, rfl⟩ := (build_withFields hne).1 h
  obtain ⟨gs, hgs, hsame⟩ := List.perm_comp_forall₂ hperm.symm hfs
  have hsorted : sortFields gs = sortFields fs :=
    (sortFields_eq_of_perm hsame.symm (Field.pairwise_lo_ne hfs hapart)).symm
  have hne' : es ≠ [] := fun hes => hne (List.perm_nil.1 (hes ▸ hperm))
  refine (build_withFields hne').2 ⟨hname, range, hrange, gs, hgs, ?_⟩
  -- Fields and name index are both made of the sorted list.
  rw [ofFields, ofFields, hsorted]

theorem build_of_reordered {e : Draft.Register} (hsame : d.Reordered e)
    (h : (build dataWidth d).result = .ok r) : (build dataWidth e).result = .ok r := by
  cases hsame with
  | same => exact h
  | @fields d ds es perm apart =>
    by_cases hne : ds = []
    · subst hne
      obtain rfl : es = [] := List.nil_perm.1 perm
      exact h
    · exact build_of_perm hne perm apart h

end Register

theorem Page.build_of_reordered {dataWidth : Nat} {d e : Draft.Page} {p : Page}
    (hsame : d.Reordered e) (h : (build dataWidth d).result = .ok p) :
    (build dataWidth e).result = .ok p := by
  obtain ⟨regs, hregs, rfl⟩ := hsame
  obtain ⟨hname, rs, hrs, hp⟩ := build_eq_ok.1 h
  have hrs' : regs.mapM (fun r => (Register.build dataWidth r).result) = .ok rs :=
    mapM_of_forall₂ (fun _ _ _ hr => Register.build_of_reordered hr) hregs hrs
  exact build_eq_ok.2 ⟨hname, rs, hrs', hp⟩

namespace Device

theorem build_of_reordered {draft draft' : Draft.Device} {d : Device}
    (hsame : draft.Reordered draft') (h : (build draft).result = .ok d) :
    (build draft').result = .ok d := by
  obtain ⟨pages, hpages, rfl⟩ := hsame
  obtain ⟨s, hs, ps, hps, hrest⟩ := build_eq_ok.1 h
  have hps' : pages.mapM (fun p => (Page.build s.dataWidth p).result) = .ok ps :=
    mapM_of_forall₂ (fun _ _ _ hp => Page.build_of_reordered hp) hpages hps
  exact build_eq_ok.2 ⟨s, hs, ps, hps', hrest⟩

theorem build_eq_ok_of_reordered {draft draft' : Draft.Device} (hsame : draft.Reordered draft')
    (d : Device) : (build draft).result = .ok d ↔ (build draft').result = .ok d :=
  ⟨build_of_reordered hsame, build_of_reordered hsame.symm⟩

/-- **The order of fields does not matter where their lowest bits differ.** A register that lists
its fields in another order is accepted just when it is. Its fields are the ones that are built of
its drafts, each one from its own, in descending order of their lowest bits; those that start at the
same bit keep the order in which they are listed, and this leaves one list only. When no two of them
start at the same bit, all orders give the same register. So devices that differ in such orders only
are accepted together and are the same device, and they have the same headers. -/
theorem field_order :
    (∀ (dataWidth : Nat) (d : Draft.Register) (ds es : List Draft.Field), ds ≠ [] → ds.Perm es →
      ((∃ r, (Register.build dataWidth (d.withFields ds)).result = .ok r) ↔
        ∃ r, (Register.build dataWidth (d.withFields es)).result = .ok r) ∧
      (∀ r, (Register.build dataWidth (d.withFields ds)).result = .ok r →
        ∃ declared, List.Forall₂ (fun draft f =>
            Field.ofDraft d.name (Register.lastBit dataWidth r.wordCount) draft = .ok f)
            ds declared ∧
          Register.InOrder declared r.fields ∧
          ∀ sorted, Register.InOrder declared sorted → sorted = r.fields) ∧
      (Draft.Field.Apart ds → ∀ r r',
        (Register.build dataWidth (d.withFields ds)).result = .ok r →
        (Register.build dataWidth (d.withFields es)).result = .ok r' → r = r')) ∧
    ∀ draft draft' : Draft.Device, draft.Reordered draft' →
      (∀ d, (build draft).result = .ok d ↔ (build draft').result = .ok d) ∧
      ∀ title header,
        (∃ d, (build draft).result = .ok d ∧ (Header.generate d title).result = .ok header) ↔
        ∃ d, (build draft').result = .ok d ∧ (Header.generate d title).result = .ok header := by
  constructor
  · intro dataWidth d ds es hne hperm
    have hne' : es ≠ [] := fun hes => hne (List.perm_nil.1 (hes ▸ hperm))
    refine ⟨⟨?_, ?_⟩, fun r => Register.fields_of_build hne, fun hapart r r' hr hr' => ?_⟩
    · rintro ⟨r, hr⟩
      exact Register.exists_build_of_perm hne hperm hr
    · rintro ⟨r, hr⟩
      exact Register.exists_build_of_perm hne' hperm.symm hr
    · exact Except.ok.inj ((Register.build_of_perm hne hperm hapart hr).symm.trans hr')
  · intro draft draft' hsame
    have hbuild := build_eq_ok_of_reordered hsame
    exact ⟨hbuild, fun title header => exists_congr fun d => and_congr_left' (hbuild d)⟩

end Device

/-! ## § Two fields in both orders -/

namespace Swapped

/-- **enable** — a field of one bit. -/
def enable : Draft.Field := ⟨"EN", none, .text "0", none⟩

/-- **mode** — a field of the two bits above. -/
def mode : Draft.Field := ⟨"MODE", none, .text "2:1", none⟩

/-- **control** — a register that has no fields yet. -/
def control : Draft.Register := ⟨"CTRL", .number 16, none⟩

/-- **draft** — a device with this register, when it has these fields. -/
def draft (fields : List Draft.Field) : Draft.Device where
  name := "Switch"
  desc := none
  regPrefix := ""
  pagePrefix := false
  fieldPrefix := []
  fieldMacros := false
  addrWidth := .number 8
  dataWidth := .number 8
  bus := none
  pages := [⟨"Main", [control.withFields fields]⟩]
  extra := []

theorem enable_lowest : enable.Lowest 0 := ⟨.range 0 0, by decide +kernel, rfl⟩

theorem mode_lowest : mode.Lowest 1 := ⟨.range 2 1, by decide +kernel, rfl⟩

theorem apart : Draft.Field.Apart [enable, mode] := by
  refine List.pairwise_pair.2 fun n hn hn' => ?_
  obtain rfl := hn.unique enable_lowest
  exact absurd (hn'.unique mode_lowest) (by decide)

theorem perm : [enable, mode].Perm [mode, enable] := .swap mode enable []

theorem reordered : (draft [enable, mode]).Reordered (draft [mode, enable]) :=
  ⟨_, .cons ⟨_, .cons (.fields control perm apart) .nil, rfl⟩ .nil, rfl⟩

end Swapped

/-- Whichever of two fields comes first, the register and the device with it are built, and they are
the same. -/
theorem Device.field_order_swapped :
    (∃ r, (Register.build 8 (Swapped.control.withFields [Swapped.enable, Swapped.mode])).result
        = .ok r ∧
      (Register.build 8 (Swapped.control.withFields [Swapped.mode, Swapped.enable])).result
        = .ok r) ∧
    ∃ d, (build (Swapped.draft [Swapped.enable, Swapped.mode])).result = .ok d ∧
      (build (Swapped.draft [Swapped.mode, Swapped.enable])).result = .ok d := by
  obtain ⟨hregister, hdevice⟩ := field_order
  constructor
  · obtain ⟨haccepted, -, hsame⟩ := hregister 8 Swapped.control _ _ (by simp) Swapped.perm
    have hsome : (Register.build 8 (Swapped.control.withFields
        [Swapped.enable, Swapped.mode])).result.toOption.isSome = true := by decide +kernel
    obtain ⟨r, hr⟩ := Option.isSome_iff_exists.1 hsome
    have hr := toOption_eq_some.1 hr
    obtain ⟨r', hr'⟩ := haccepted.1 ⟨r, hr⟩
    obtain rfl := hsame Swapped.apart r r' hr hr'
    exact ⟨r, hr, hr'⟩
  · have hsome : (build (Swapped.draft [Swapped.enable, Swapped.mode])).result.toOption.isSome
        = true := by decide +kernel
    obtain ⟨d, hd⟩ := Option.isSome_iff_exists.1 hsome
    have hd := toOption_eq_some.1 hd
    exact ⟨d, hd, ((hdevice _ _ Swapped.reordered).1 d).1 hd⟩

end RegisterMap
