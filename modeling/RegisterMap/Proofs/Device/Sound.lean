import RegisterMap.Proofs.Device.Build
import RegisterMap.Proofs.Draft.Scalar

/-!
# Sound devices — what every accepted description guarantees

A build checks its parts once, where they are read. What is known afterwards stands here, level by
level: of a field in its register, of a register on its page, of a page and of the whole device.

## § What is here

* `Field.Sound`, `Register.Sound`, `Page.Sound`, `Device.Sound` — the guarantees of each level;
* `Field.sound_of_ofDraft`, `Register.sound_of_build`, `Page.sound_of_build` — each level has them
  when it is built;
* `Device.sound_of_ofText` — so every accepted description has them.
-/

namespace RegisterMap

open Outcome

/-! ## § Fields -/

/-- **Sound** — a field of a register whose last bit is `last`. -/
structure Field.Sound (last : Nat) (f : Field) : Prop where
  identifier : isIdentifier f.name = true
  proper : f.bits.Proper
  hi_le : f.bits.hi ≤ last
  mask_eq : f.mask = f.bits.mask
  most : f.bits.maxValue = .ok f.maxValue
  options_le : ∀ e ∈ f.options.entries, e.1 ≤ f.maxValue.window 0 64

theorem Field.sound_of_ofDraft {register : String} {last : Nat} {d : Draft.Field} {f : Field}
    (h : ofDraft register last d = .ok f) : f.Sound last := by
  obtain ⟨hname, bits, hbits, width, -, most, hmost, entries, hentries, rfl⟩ := ofDraft_eq_ok.1 h
  obtain ⟨hparse, hhi⟩ := bitsOf_eq_ok.1 hbits
  exact
    { identifier := isIdentifier_iff.2 hname
      proper := BitSpec.proper_of_parse hparse
      hi_le := hhi
      mask_eq := rfl
      most := hmost
      options_le := forall_mem_of_mapM hentries fun _ _ _ ho => (optionOf_eq_ok.1 ho).2.1 }

/-! ## § Addresses -/

/-- **Sound** — a range of 64-bit addresses that a register may have. -/
structure AddressRange.Sound (r : AddressRange) : Prop where
  ordered : r.lo ≤ r.hi
  addr_lt : r.hi < capacity 64
  words_le : r.wordCount ≤ Register.maxWordCount
  order : r.bigOrder = true → r.lo < r.hi

theorem AddressRange.sound_of_ofScalar {register : String} {addr : Draft.Scalar} {r : AddressRange}
    (h : ofScalar register addr = .ok r) : r.Sound := by
  obtain ⟨first, last, hends, hdist, rfl⟩ := (ofScalar_eq_ok register).1 h
  obtain ⟨hfirst, hlast⟩ := hends.lt
  have hcount : (ofEnds first last).wordCount ≤ Register.maxWordCount := by
    rw [wordCount_ofEnds]
    exact Nat.succ_le_succ hdist
  unfold ofEnds at hcount ⊢
  split
  · rename_i hlt
    rw [if_pos hlt] at hcount
    exact ⟨Nat.le_of_lt hlt, hlast, hcount, fun _ => hlt⟩
  · rename_i hlt
    rw [if_neg hlt] at hcount
    exact ⟨Nat.le_of_not_lt hlt, hfirst, hcount, fun h => absurd h Bool.false_ne_true⟩

/-! ## § Registers -/

/-- **Sound** — a register of words of the given width. -/
structure Register.Sound (dataWidth : Nat) (r : Register) : Prop where
  identifier : isIdentifier r.name = true
  ordered : r.addrLo ≤ r.addrHi
  addr_lt : r.addrHi < capacity 64
  words_le : r.wordCount ≤ maxWordCount
  order : r.bigOrder = true → r.addrLo < r.addrHi
  inhabited : r.fields ≠ []
  fields : ∀ f ∈ r.fields, f.Sound (lastBit dataWidth r.wordCount)
  descending : r.fields.Pairwise fun f g => g.lo ≤ f.lo

namespace Register

theorem wordCount_pos (r : Register) : 1 ≤ r.wordCount := Nat.succ_pos _

theorem insertField_perm (f : Field) (gs : List Field) : (insertField f gs).Perm (f :: gs) := by
  induction gs with
  | nil => exact .refl _
  | cons g gs ih =>
    rw [insertField]
    split
    · exact .refl _
    · exact (ih.cons g).trans (.swap f g gs)

/-- Sorting loses no field and adds none. -/
theorem sortFields_perm (fs : List Field) : (sortFields fs).Perm fs := by
  induction fs with
  | nil => exact .refl _
  | cons f fs ih => exact (insertField_perm f _).trans (ih.cons f)

theorem descending_insertField {f : Field} {gs : List Field}
    (h : gs.Pairwise fun f g => g.lo ≤ f.lo) :
    (insertField f gs).Pairwise fun f g => g.lo ≤ f.lo := by
  induction gs with
  | nil => exact List.pairwise_singleton _ f
  | cons g gs ih =>
    obtain ⟨hg, hgs⟩ := List.pairwise_cons.1 h
    rw [insertField]
    split
    · rename_i hle
      refine List.pairwise_cons.2 ⟨?_, h⟩
      intro x hx
      rcases List.mem_cons.1 hx with rfl | hx
      · exact hle
      · exact Nat.le_trans (hg x hx) hle
    · rename_i hlt
      refine List.pairwise_cons.2 ⟨?_, ih hgs⟩
      intro x hx
      rcases List.mem_cons.1 ((insertField_perm f gs).subset hx) with rfl | hx
      · exact Nat.le_of_not_le hlt
      · exact hg x hx

/-- Sorted fields stand in descending order of their lowest bits. -/
theorem descending_sortFields (fs : List Field) :
    (sortFields fs).Pairwise fun f g => g.lo ≤ f.lo := by
  induction fs with
  | nil => exact List.Pairwise.nil
  | cons f fs ih => exact descending_insertField ih

theorem draftFields_ne_nil (d : Draft.Register) (last : Nat) : draftFields d last ≠ [] := by
  unfold draftFields
  split <;> simp

theorem sound_of_build {dataWidth : Nat} {d : Draft.Register} {r : Register}
    (h : (build dataWidth d).result = .ok r) : r.Sound dataWidth := by
  obtain ⟨hname, range, hrange, fields, hfields, rfl⟩ := build_eq_ok.1 h
  have hr := AddressRange.sound_of_ofScalar hrange
  have hsound := forall_mem_of_mapM hfields fun _ _ _ => Field.sound_of_ofDraft
  have hperm := sortFields_perm fields
  have hlength := (mapM_eq_ok.1 hfields).length_eq
  exact
    { identifier := isIdentifier_iff.2 hname
      ordered := hr.ordered
      addr_lt := hr.addr_lt
      words_le := hr.words_le
      order := hr.order
      inhabited := by
        have hdraft := draftFields_ne_nil d (lastBit dataWidth range.wordCount)
        have hpos := List.length_pos_iff.2 hdraft
        exact List.length_pos_iff.1 (by rw [ofFields, hperm.length_eq]; omega)
      fields := fun f hf => hsound f (hperm.subset hf)
      descending := descending_sortFields fields }

end Register

/-! ## § Devices -/

/-- **Sound** — a page of registers with words of the given width. -/
structure Page.Sound (dataWidth : Nat) (p : Page) : Prop where
  identifier : isIdentifier p.name = true
  regs : ∀ r ∈ p.regs, r.Sound dataWidth

theorem Page.sound_of_build {dataWidth : Nat} {d : Draft.Page} {p : Page}
    (h : (build dataWidth d).result = .ok p) : p.Sound dataWidth := by
  obtain ⟨hname, regs, hregs, rfl⟩ := build_eq_ok.1 h
  exact ⟨isIdentifier_iff.2 hname, forall_mem_of_mapM hregs fun _ _ _ => Register.sound_of_build⟩

/-- **Sound** — an accepted device. -/
structure Device.Sound (d : Device) : Prop where
  addrWidth_pos : 1 ≤ d.addrWidth
  addrWidth_le : d.addrWidth ≤ 64
  dataWidth_pos : 1 ≤ d.dataWidth
  dataWidth_le : d.dataWidth ≤ 64
  pages : ∀ p ∈ d.pages, p.Sound d.dataWidth
  flat_eq : d.flat = FlatEntry.ofPages d.pagePrefix d.pages

namespace Device

theorem sound_of_build {draft : Draft.Device} {d : Device} (h : (build draft).result = .ok d) :
    d.Sound := by
  obtain ⟨s, hs, pages, hpages, t, hflat, tables, -, rfl⟩ := build_eq_ok.1 h
  obtain ⟨a, -, w, -, ⟨haddr, haddr'⟩, ⟨hdata, hdata'⟩, parts, -, bus, -, rfl⟩ :=
    settingsOf_eq_ok.1 hs
  obtain ⟨hentries, -⟩ := FlatEntry.build_eq_ok.1 hflat
  exact ⟨haddr, haddr', hdata, hdata',
    forall_mem_of_mapM hpages fun _ _ _ => Page.sound_of_build, hentries.symm⟩

/-- Every accepted description gives a sound device. -/
theorem sound_of_ofText {text : String} {d : Device} (h : (ofText text).result = .ok d) :
    d.Sound := by
  obtain ⟨draft, -, hbuild⟩ := ofText_eq_ok.1 h
  exact sound_of_build hbuild

end Device

end RegisterMap
