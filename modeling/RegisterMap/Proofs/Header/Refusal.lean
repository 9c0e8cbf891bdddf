import RegisterMap.Proofs.Device.Sound
import RegisterMap.Proofs.Device.ValueMask
import RegisterMap.Proofs.Draft.Register
import RegisterMap.Proofs.Header.Layout

/-!
# Refusal — the devices that have no header

A header is made of one register after another, and the first register that has no macros ends it:
one of several words, with a field of listed bits. The refusal names that register, and the first of
those fields in it. Nothing else can stop a header. All numbers in it that are computed have room
where they are computed, in every register of an accepted description.

## § What is here

* `Place.Refuses`, `Place.declarations_eq_error` — the field that a register refuses;
* `Place.constructible_iff` — a register has macros when it refuses no field;
* `Scope.Refuses`, `generate_eq_error` — the field that a device refuses;
* `Device.Bulk`, `exists_generate_eq_ok` — the devices that have a header;
* `Place.countedSlices`, `Place.countedSlices_of_sound` — the numbers in the macros of a register;
* `generation` — when a header is made, and what is refused otherwise.
-/

namespace RegisterMap.Header

open Outcome

/-! ## § Registers -/

namespace Place

variable {p : Place} {u : Unsupported}

/-- **Refuses** — the register has several words, and this field is the first of its fields that has
listed bits. -/
def Refuses (p : Place) (f : Field) : Prop :=
  1 < p.reg.wordCount ∧ ∃ front back, p.reg.fields = front ++ f :: back ∧
    (∀ g ∈ front, g.bits.isScattered = false) ∧ f.bits.isScattered = true

theorem Refuses.find?_eq {f : Field} (h : p.Refuses f) :
    p.reg.fields.find? (fun f => f.bits.isScattered) = some f := by
  obtain ⟨-, front, back, hfields, hfront, hf⟩ := h
  refine List.find?_eq_some_iff_append.2 ⟨hf, front, back, hfields, fun g hg => ?_⟩
  rw [hfront g hg]
  rfl

/-- A register refuses at most one field. -/
theorem Refuses.unique {f g : Field} (hf : p.Refuses f) (hg : p.Refuses g) : f = g :=
  Option.some.inj (hf.find?_eq.symm.trans hg.find?_eq)

theorem makeMacros_eq_error :
    p.makeMacros = .error u ↔ ∃ f, p.Refuses f ∧ u = ⟨p.name, f.name⟩ := by
  rw [makeMacros]
  split
  · rename_i hone
    refine iff_of_false (fun h => by cases h) ?_
    rintro ⟨f, ⟨hwords, -⟩, -⟩
    omega
  · rename_i hmany
    have hwords : 1 < p.reg.wordCount :=
      Nat.lt_of_le_of_ne p.reg.wordCount_pos (Ne.symm hmany)
    split
    · rename_i f hfind
      obtain ⟨hf, front, back, hfields, hfront⟩ := List.find?_eq_some_iff_append.1 hfind
      have hrefuses : p.Refuses f :=
        ⟨hwords, front, back, hfields, fun g hg => by simpa using hfront g hg, hf⟩
      refine ⟨fun h => ⟨f, hrefuses, (Except.error.inj h).symm⟩, ?_⟩
      rintro ⟨g, hg, rfl⟩
      rw [hrefuses.unique hg]
    · rename_i hfind
      refine iff_of_false (fun h => by cases h) ?_
      rintro ⟨f, hf, -⟩
      rw [hf.find?_eq] at hfind
      cases hfind

/-- The declarations of a register fail with the field that it refuses. A single word refuses none,
so it does not matter that a lone value is never asked for its macros. -/
theorem declarations_eq_error :
    p.declarations = .error u ↔ ∃ f, p.Refuses f ∧ u = ⟨p.name, f.name⟩ := by
  rw [declarations]
  split
  · rename_i hlone
    have hone : p.reg.wordCount = 1 := by
      have hparts : p.reg.wordCount = 1 ∧ p.reg.isValueOnly = true := by
        simpa [Register.isSingleValue] using hlone
      exact hparts.1
    refine iff_of_false (fun h => by cases h) ?_
    rintro ⟨f, ⟨hwords, -⟩, -⟩
    omega
  · rw [bind_eq_error, makeMacros_eq_error]
    refine or_iff_left ?_
    rintro ⟨make, -, hrest⟩
    split at hrest <;> cases hrest

/-- A register has declarations when it refuses no field. -/
theorem constructible_iff : p.Constructible ↔ ∀ f, ¬ p.Refuses f := by
  have hok : p.Constructible ↔ ∃ rs, p.declarations = .ok rs := by
    simp [declarations_eq_ok]
  rw [hok]
  cases hresult : p.declarations with
  | ok rs =>
    refine iff_of_true ⟨rs, rfl⟩ fun f hf => ?_
    have herror := declarations_eq_error.2 ⟨f, hf, rfl⟩
    rw [hresult] at herror
    cases herror
  | error u =>
    obtain ⟨f, hf, -⟩ := declarations_eq_error.1 hresult
    exact iff_of_false (fun ⟨rs, h⟩ => by cases h) fun h => h f hf

end Place

/-! ## § Headers -/

/-- **Refuses** — this register is the first of the device that refuses a field, and refuses
this one. -/
def Scope.Refuses (s : Scope) (p : Place) (f : Field) : Prop :=
  (∃ before after, s.places = before ++ p :: after ∧ ∀ q ∈ before, ∀ g, ¬ q.Refuses g) ∧
    p.Refuses f

/-- All declarations fail with what the device refuses. -/
theorem Scope.declarations_eq_error {s : Scope} {u : Unsupported} :
    s.declarations = .error u ↔ ∃ p f, s.Refuses p f ∧ u = ⟨p.name, f.name⟩ := by
  have hplaces : s.declarations = .error u ↔ s.places.mapM Place.declarations = .error u := by
    simp [declarations, Scope.registerDeclarations_eq, bind_eq_error]
  have hconstructible : ∀ q : Place, (∃ rs, q.declarations = .ok rs) ↔ ∀ g, ¬ q.Refuses g := by
    intro q
    rw [← Place.constructible_iff]
    simp [Place.declarations_eq_ok]
  simp only [hplaces, mapM_eq_error, hconstructible, Place.declarations_eq_error, Refuses]
  constructor
  · rintro ⟨before, p, after, hsplit, hbefore, f, hf, hu⟩
    exact ⟨p, f, ⟨⟨before, after, hsplit, hbefore⟩, hf⟩, hu⟩
  · rintro ⟨p, f, ⟨⟨before, after, hsplit, hbefore⟩, hf⟩, hu⟩
    exact ⟨before, p, after, hsplit, hbefore, f, hf, hu⟩

variable {d : Device} {title : HeaderName}

/-- A header fails with what the device refuses. -/
theorem generate_eq_error {u : Unsupported} : (generate d title).result = .error u ↔
    ∃ p f, Scope.Refuses ⟨d, title⟩ p f ∧ u = ⟨p.name, f.name⟩ := by
  rw [← Scope.declarations_eq_error]
  simp [generate, Logged.result_bind, Logged.result_ofExcept, Logged.result_write, bind_eq_error]

/-- A device has a header when its registers of several words have no field of listed bits. -/
theorem exists_generate_eq_ok : (∃ text, (generate d title).result = .ok text) ↔
    ∀ page ∈ d.pages, ∀ reg ∈ page.regs, 1 < reg.wordCount →
      ∀ f ∈ reg.fields, f.bits.isScattered = false := by
  simp only [generate_eq_ok, exists_and_left, exists_eq, and_true]
  constructor
  · intro hall page hpage reg hreg hwords
    have hp := hall ⟨⟨d, title⟩, page, reg⟩ (Scope.mem_places.2 ⟨rfl, hpage, hreg⟩)
    exact hp.resolve_left (Nat.ne_of_gt hwords)
  · intro hall p hp
    obtain ⟨hscope, hpage, hreg⟩ := Scope.mem_places.1 hp
    have hdevice : p.device = d := congrArg Scope.device hscope
    rw [Place.Constructible]
    by_cases hone : p.reg.wordCount = 1
    · exact .inl hone
    · have hwords : 1 < p.reg.wordCount := Nat.lt_of_le_of_ne p.reg.wordCount_pos (Ne.symm hone)
      exact .inr (hall p.page hpage p.reg hreg hwords)

/-! ## § Numbers -/

namespace Place

/-- **countedWords** — the number of words: addresses have 64 bits, and words are counted in 32. -/
def countedWords (p : Place) : Except ArithmeticFault Nat := do
  let span ← checkedSub p.reg.addrHi p.reg.addrLo
  let count ← checkedAdd 64 span 1
  .ok (count % capacity 32)

/-- **countedSlice** — the bits of word `u` of so many, where positions are counted in 32 bits. -/
def countedSlice (p : Place) (count u : Nat) : Except ArithmeticFault Expr := do
  let last ← checkedSub count 1
  let above ← checkedSub last u
  let shift ← checkedMul 32 p.device.dataWidth above
  .ok (p.sliceAt shift)

/-- **countedSlices** — the bits of all words. -/
def countedSlices (p : Place) : Except ArithmeticFault (List Expr) := do
  let count ← p.countedWords
  (List.range count).mapM (p.countedSlice count)

variable {p : Place}

/-- All numbers that a sound register counts have room. -/
theorem countedSlices_of_sound (hd : p.device.Sound) (hpage : p.page ∈ p.device.pages)
    (hreg : p.reg ∈ p.page.regs) :
    p.countedSlices = .ok ((List.range p.reg.wordCount).map p.slice) := by
  have hr := (hd.pages p.page hpage).regs p.reg hreg
  have hlow := hd.dataWidth_pos
  obtain ⟨hbits, hcap⟩ := Register.lastBit_spec hlow hd.dataWidth_le p.reg.wordCount_pos hr.words_le
  have hproduct : p.device.dataWidth * p.reg.wordCount < capacity 32 := hbits ▸ hcap
  have hcount : p.reg.wordCount < capacity 32 :=
    Nat.lt_of_le_of_lt (Nat.le_mul_of_pos_left _ hlow) hproduct
  have hwords : p.countedWords = .ok p.reg.wordCount := by
    have hspan : checkedSub p.reg.addrHi p.reg.addrLo = .ok (p.reg.addrHi - p.reg.addrLo) :=
      checkedSub_eq_ok.2 ⟨rfl, hr.ordered⟩
    have hsum : checkedAdd 64 (p.reg.addrHi - p.reg.addrLo) 1 = .ok p.reg.wordCount :=
      checkedAdd_eq_ok.2 ⟨rfl, Nat.lt_trans hcount (by decide)⟩
    refine bind_eq_ok.2 ⟨_, hspan, bind_eq_ok.2 ⟨_, hsum, ?_⟩⟩
    rw [Nat.mod_eq_of_lt hcount]
  refine bind_eq_ok.2 ⟨_, hwords, mapM_eq_ok.2 ?_⟩
  rw [List.forall₂_map_right_iff, List.forall₂_same]
  intro u hu
  have hlast : checkedSub p.reg.wordCount 1 = .ok (p.reg.wordCount - 1) :=
    checkedSub_eq_ok.2 ⟨rfl, p.reg.wordCount_pos⟩
  have habove : checkedSub (p.reg.wordCount - 1) u = .ok (p.reg.wordCount - 1 - u) :=
    checkedSub_eq_ok.2 ⟨rfl, Nat.le_sub_one_of_lt (List.mem_range.1 hu)⟩
  have hshift : checkedMul 32 p.device.dataWidth (p.reg.wordCount - 1 - u)
      = .ok (p.device.dataWidth * (p.reg.wordCount - 1 - u)) :=
    checkedMul_eq_ok.2 ⟨rfl, Nat.lt_of_le_of_lt (Nat.mul_le_mul_left _ (by omega)) hproduct⟩
  exact bind_eq_ok.2 ⟨_, hlast, bind_eq_ok.2 ⟨_, habove, bind_eq_ok.2 ⟨_, hshift, rfl⟩⟩⟩

/-- The lowest bit of all fields is counted in 32 bits. -/
theorem valueOffset_lt (hd : p.device.Sound) (hpage : p.page ∈ p.device.pages)
    (hreg : p.reg ∈ p.page.regs) : p.reg.valueOffset < capacity 32 := by
  have hr := (hd.pages p.page hpage).regs p.reg hreg
  obtain ⟨hbits, hcap⟩ :=
    Register.lastBit_spec hd.dataWidth_pos hd.dataWidth_le p.reg.wordCount_pos hr.words_le
  exact Nat.lt_trans (Register.lt_of_contains_valueMask hr hd.dataWidth_pos
    (Register.contains_valueOffset hr)) (hbits ▸ hcap)

end Place

/-! ## § Accepted devices -/

/-- **When a header is made.** The header of an accepted device, under whatever name, is made
exactly when no register of several words has a field of listed bits. Otherwise there is no text,
and the refusal names the first such register, page by page, and the first such field of it, in
descending order of their lowest bits. The numbers that are counted for a header have room in any
case, so none of them ends the program. -/
theorem generation {text : String} (haccepted : (Device.ofText text).result = .ok d)
    (title : HeaderName) :
    ((∃ header, (generate d title).result = .ok header) ↔
      ∀ page ∈ d.pages, ∀ reg ∈ page.regs, 1 < reg.wordCount →
        ∀ f ∈ reg.fields, f.bits.isScattered = false) ∧
    (∀ u, (generate d title).result = .error u ↔
      ∃ p f, Scope.Refuses ⟨d, title⟩ p f ∧ u = ⟨p.name, f.name⟩) ∧
    (∀ p ∈ Scope.places ⟨d, title⟩,
      p.countedSlices = .ok ((List.range p.reg.wordCount).map p.slice) ∧
      p.reg.valueOffset < capacity 32 ∧ p.reg.fields.Pairwise fun f g => g.lo ≤ f.lo) := by
  refine ⟨exists_generate_eq_ok, fun u => generate_eq_error, fun p hp => ?_⟩
  have hd := Device.sound_of_ofText haccepted
  obtain ⟨hscope, hpage, hreg⟩ := Scope.mem_places.1 hp
  obtain rfl := congrArg Scope.device hscope
  exact ⟨Place.countedSlices_of_sound hd hpage hreg, Place.valueOffset_lt hd hpage hreg,
    ((hd.pages p.page hpage).regs p.reg hreg).descending⟩

end RegisterMap.Header
