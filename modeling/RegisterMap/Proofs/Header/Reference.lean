import RegisterMap.Proofs.Header.Address
import RegisterMap.Proofs.Header.MakeMacro

/-!
# References — a header uses only what it declares

The bodies of macros have names in them: parameters, the macro for frames, the identifiers of
addresses, and the names of the lowest bits and masks of fields. All but the parameters are declared
before they are used. The names of a field are declared for the same register, with the numbers of
that field, and each word of a register is written by one macro.

## § What is here

* `Declaration.Uses` — the names in a macro that are none of its parameters;
* `Place.uses_cases` — the names in the macros of a register;
* `Place.fieldEnum_before` — the names of the fields come first;
* `Scope.single_written`, `Scope.word_written` — one macro for each word;
* `references_declared` — what a whole header declares and uses.
-/

namespace RegisterMap.Header

/-- **Uses** — a macro has a name in its body that is none of its parameters. -/
def Declaration.Uses : Declaration → String → Prop
  | .define _ params body, x => .name x ∈ body.tokens ∧ x ∉ params
  | _, _ => False

/-- The names in a getter are those of the expression that it is used on and the two of the
field. -/
theorem Getter.mem_tokens_expr {bits : BitSpec} {field text : String} {x : Expr}
    (h : .name text ∈ (expr bits field x).tokens) :
    .name text ∈ x.tokens ∨ text = offsetName field ∨ text = maskName field := by
  cases bits with
  | range hi lo =>
    have hcases : .name text ∈ x.tokens ∨ text = maskName field ∨ text = offsetName field := by
      simpa [expr, Expr.tokens] using h
    exact hcases.imp_right Or.symm
  | list ps =>
    have hterms : .name text ∈ Expr.tokensAll (bitTerms field x ps) := by
      simpa [expr, Expr.tokens] using h
    obtain ⟨e, he, hname⟩ := Setter.mem_tokensAll (by simp) hterms
    obtain ⟨i, hi, rfl⟩ := List.mem_mapIdx.1 he
    have hcases : .name text ∈ x.tokens ∨ text = maskName field := by
      simpa [bitTerm, Expr.tokens] using hname
    exact hcases.imp_right .inr

namespace Place

variable {p : Place} {m : Declaration} {x : String}

/-! ## § Macros of a register -/

/-- **NamesField** — a name is that of the lowest bit or of the mask of a field. -/
def NamesField (p : Place) (f : Field) (x : String) : Prop :=
  x = offsetName (p.fieldName f) ∨ x = maskName (p.fieldName f)

theorem uses_getter {f : Field} (h : (p.getter f).Uses x) : p.NamesField f x := by
  obtain ⟨hmem, hparam⟩ := h
  rcases Getter.mem_tokens_expr hmem with harg | hname
  · simp [Expr.tokens] at harg
    exact absurd (harg ▸ List.mem_singleton_self _) hparam
  · exact hname

theorem uses_setter {f : Field} (h : (p.setter f).Uses x) : p.NamesField f x := by
  obtain ⟨hmem, hparam⟩ := h
  have hcases : x = "p" ∨ x = maskName (p.fieldName f) ∨
      .name x ∈ (Setter.expr f.bits (p.fieldName f) (.name "f")).tokens := by
    simpa [Expr.tokens, Expr.tokensAll] using hmem
  rcases hcases with rfl | hmask | hvalue
  · exact absurd (by simp) hparam
  · exact .inr hmask
  · rcases Setter.mem_tokens_expr hvalue with harg | hname
    · simp [Expr.tokens] at harg
      exact absurd (by simp [harg]) hparam
    · exact hname

theorem uses_longMacro (h : p.longMacro.Uses x) : ∃ f ∈ p.reg.fields, p.NamesField f x := by
  obtain ⟨hmem, hparam⟩ := h
  have hcombined : .name x ∈ p.combined.tokens := by
    simpa [Expr.tokens] using hmem
  exact (mem_tokens_combined hcombined).resolve_left hparam

theorem uses_singleMacro (h : p.singleMacro.Uses x) :
    x = p.writeName ∨ p.singleMacro.addressed? = some x ∨
      ∃ f ∈ p.reg.fields, p.NamesField f x := by
  obtain ⟨hmem, hparam⟩ := h
  have hcases : x = p.writeName ∨ x = p.address ∨ .name x ∈ p.combined.tokens := by
    simpa [Expr.tokens] using hmem
  rcases hcases with hwrite | rfl | hcombined
  · exact .inl hwrite
  · exact .inr (.inl rfl)
  · exact .inr (.inr ((mem_tokens_combined hcombined).resolve_left hparam))

theorem uses_wordMacro {u : Nat} (h : (p.wordMacro u).Uses x) :
    x = p.writeName ∨ (p.wordMacro u).addressed? = some x := by
  obtain ⟨hmem, hparam⟩ := h
  have hcases : x = p.writeName ∨ x = p.address ++ wordSuffix u ∨
      .name x ∈ (p.slice u).tokens := by
    simpa [Expr.tokens, wordSuffix] using hmem
  rcases hcases with hwrite | rfl | hslice
  · exact .inl hwrite
  · exact .inr rfl
  · exact absurd (by simp [mem_tokens_slice hslice]) hparam

/-- What is used in the declarations of a register: the macro for frames and an address in the
frame of a word, and otherwise names of fields, which only a register that is no lone value has. -/
theorem uses_cases (hm : m ∈ p.declared) (hx : m.Uses x) :
    x = p.writeName ∨ m.addressed? = some x ∨
      (p.reg.isValueOnly = false ∧ ∃ f ∈ p.reg.fields, p.NamesField f x) := by
  rcases List.mem_append.1 hm with hintro | hmake
  · rcases introduction_cases hintro with hplain | ⟨hvalue, f, hf, rfl | rfl⟩
    · cases m with
      | define => exact absurd trivial hplain
      | _ => cases hx
    · exact .inr (.inr ⟨hvalue, f, hf, uses_getter hx⟩)
    · exact .inr (.inr ⟨hvalue, f, hf, uses_setter hx⟩)
  · rcases mem_construction.1 hmake with ⟨-, hvalue, rfl⟩ | ⟨-, ⟨hlong, rfl⟩ | ⟨u, -, rfl⟩⟩
    · rcases uses_singleMacro hx with hwrite | haddress | hfield
      · exact .inl hwrite
      · exact .inr (.inl haddress)
      · exact .inr (.inr ⟨hvalue, hfield⟩)
    · exact .inr (.inr ⟨isValueOnly_of_length hlong, uses_longMacro hx⟩)
    · rcases uses_wordMacro hx with hwrite | haddress
      · exact .inl hwrite
      · exact .inr (.inl haddress)

/-! ## § Order -/

/-- An item of a list is in front of all later items. -/
theorem mem_front_of_append {α : Type} {front back before after : List α} {a b : α}
    (h : front ++ a :: back = before ++ b :: after) (hfront : b ∉ front) (hne : b ≠ a) :
    a ∈ before := by
  rcases List.append_eq_append_iff.1 h with ⟨l, hbefore, hrest⟩ | ⟨l, hsplit, hrest⟩
  · cases l with
    | nil => exact absurd (List.cons.inj hrest).1.symm hne
    | cons c l =>
      rw [hbefore, (List.cons.inj hrest).1]
      exact List.mem_append_right _ List.mem_cons_self
  · cases l with
    | nil => exact absurd (List.cons.inj hrest).1 hne
    | cons c l =>
      rw [hsplit, (List.cons.inj hrest).1] at hfront
      exact absurd (List.mem_append_right _ List.mem_cons_self) hfront

/-- The lowest bits and masks of fields are declared before all macros. -/
theorem fieldEnum_before (hvalue : p.reg.isValueOnly = false) {before after : List Declaration}
    (h : p.declared = before ++ m :: after) (hx : m.Uses x) : p.fieldEnum ∈ before := by
  have hdeclared : p.declared = ([p.remark] ++ p.optionEnums ++ [.blank]) ++ p.fieldEnum ::
      ((if p.device.fieldMacros then p.fieldMacros else []) ++ p.construction) := by
    simp [declared, introduction, hvalue]
  refine mem_front_of_append (hdeclared.symm.trans h) ?_ ?_
  · intro hmem
    simp only [List.mem_append, List.mem_singleton, optionEnums, List.mem_map] at hmem
    rcases hmem with (rfl | ⟨f, -, rfl⟩) | rfl
    · cases hx
    · cases hx
    · cases hx
  · rintro rfl
    cases hx

/-- The names of a field have the numbers of the field. -/
theorem namesField_entry {f : Field} (hf : f ∈ p.reg.fields) (hx : p.NamesField f x) :
    (x = offsetName (p.fieldName f) ∧ (x, .hex f.lo) ∈ p.fieldEnum.entries) ∨
      (x = maskName (p.fieldName f) ∧ (x, .hex f.mask.toNat) ∈ p.fieldEnum.entries) := by
  have hentry : ∀ e ∈ p.fieldEntries f, e ∈ p.fieldEnum.entries := fun e he =>
    List.mem_flatMap.2 ⟨f, hf, he⟩
  rcases hx with rfl | rfl
  · exact .inl ⟨rfl, hentry _ List.mem_cons_self⟩
  · exact .inr ⟨rfl, hentry _ (List.mem_cons_of_mem _ List.mem_cons_self)⟩

/-- A macro that writes to an address is that of a word. -/
theorem addressed?_cases (hm : m ∈ p.declared) (hx : m.addressed? = some x) :
    (p.reg.wordCount = 1 ∧ p.reg.isSingleValue = false ∧ m = p.singleMacro ∧ x = p.address) ∨
      (p.reg.wordCount ≠ 1 ∧ ∃ u, u < p.reg.wordCount ∧ m = p.wordMacro u ∧
        x = p.address ++ wordSuffix u) := by
  rcases List.mem_append.1 hm with hintro | hmake
  · rw [addressed?_introduction hintro] at hx
    cases hx
  · rcases mem_construction.1 hmake with ⟨hone, hvalue, rfl⟩ | ⟨hmany, ⟨-, rfl⟩ | ⟨u, hu, rfl⟩⟩
    · have hlone : p.reg.isSingleValue = false := by simp [Register.isSingleValue, hvalue]
      exact .inl ⟨hone, hlone, rfl, (Option.some.inj hx).symm⟩
    · cases hx
    · exact .inr ⟨hmany, u, hu, rfl, (Option.some.inj hx).symm⟩

end Place

/-! ## § The whole header -/

namespace Scope

variable {s : Scope} {p : Place} {text : String}

/-- A macro of a register is the only one in the header that writes to its address. -/
theorem filter_addressed? (haccepted : (Device.ofText text).result = .ok s.device)
    (hp : p ∈ s.places) {m : Declaration} {x : String} (hm : m ∈ p.construction)
    (hx : m.addressed? = some x) : s.layout.filter (fun m => m.addressed? = some x) = [m] := by
  have hnodup : (s.layout.filterMap Declaration.addressed?).Nodup := by
    rw [s.filterMap_addressed?]
    exact (nodup_words haccepted).map (registerIdent_injective s.device)
  have hmem : m ∈ s.layout :=
    List.mem_append_right _ (List.mem_flatMap.2 ⟨p, hp, List.mem_append_right _ hm⟩)
  exact filter_eq_singleton hnodup hmem hx

/-- A single word that is no lone value is written by one macro. -/
theorem single_written (haccepted : (Device.ofText text).result = .ok s.device)
    (hp : p ∈ s.places) (hone : p.reg.wordCount = 1) (hlone : p.reg.isSingleValue = false) :
    (p.address, .hex p.reg.addrLo) ∈ s.addressEnum.entries ∧
      s.layout.filter (fun m => m.addressed? = some p.address) = [p.singleMacro] := by
  have hvalue : p.reg.isValueOnly = false := by
    simpa [Register.isSingleValue, hone] using hlone
  have hmacro := Place.mem_construction.2 (.inl ⟨hone, hvalue, rfl⟩)
  refine ⟨?_, filter_addressed? haccepted hp hmacro rfl⟩
  obtain ⟨rfl, hpage, hreg⟩ := mem_places.1 hp
  exact Place.mem_addressEnum_single (Device.sound_of_ofText haccepted) hpage hreg hone

/-- Each word of a longer register is written by one macro. -/
theorem word_written (haccepted : (Device.ofText text).result = .ok s.device)
    (hp : p ∈ s.places) (hmany : p.reg.wordCount ≠ 1) {u : Nat} (hu : u < p.reg.wordCount) :
    ∃ a, p.reg.wordAddress u = .ok a ∧
      (p.address ++ Place.wordSuffix u, .hex a) ∈ s.addressEnum.entries ∧
      s.layout.filter (fun m => m.addressed? = some (p.address ++ Place.wordSuffix u))
        = [p.wordMacro u] := by
  have hmacro := Place.mem_construction.2 (.inr ⟨hmany, .inr ⟨u, hu, rfl⟩⟩)
  have hfilter := filter_addressed? haccepted hp hmacro (addressed?_wordMacro p u)
  obtain ⟨rfl, hpage, hreg⟩ := mem_places.1 hp
  have hd := Device.sound_of_ofText haccepted
  obtain ⟨a, haddress, ha, hword⟩ :=
    Register.wordAddress_spec ((hd.pages p.page hpage).regs p.reg hreg) hu
  exact ⟨a, haddress, Place.mem_addressEnum_word hd hpage hreg hmany ha hword, hfilter⟩

/-- The declarations of a register come after those that all registers share. -/
theorem exists_layout_eq (hp : p ∈ s.places) :
    ∃ front back, s.layout = front ++ p.declared ++ back ∧
      s.addressEnum ∈ front ∧ s.writeMacro ∈ front := by
  obtain ⟨before, after, hplaces⟩ := List.append_of_mem hp
  refine ⟨s.shared ++ before.flatMap Place.declared, after.flatMap Place.declared, ?_, ?_, ?_⟩
  · rw [layout, hplaces, List.flatMap_append, List.flatMap_cons]
    simp only [List.append_assoc]
  · simp [shared]
  · simp [shared]

/-- What a macro of a register uses is declared before it. -/
theorem uses_before (hp : p ∈ s.places) {before after : List Declaration} {m : Declaration}
    (hsplit : p.declared = before ++ m :: after) {x : String} (hx : m.Uses x) :
    x = s.writeName ∨ m.addressed? = some x ∨
      ∃ f ∈ p.reg.fields, p.fieldEnum ∈ before ∧
        ((x = offsetName (p.fieldName f) ∧ (x, .hex f.lo) ∈ p.fieldEnum.entries) ∨
          (x = maskName (p.fieldName f) ∧ (x, .hex f.mask.toNat) ∈ p.fieldEnum.entries)) := by
  have hm : m ∈ p.declared := by
    rw [hsplit]
    exact List.mem_append_right _ List.mem_cons_self
  rcases Place.uses_cases hm hx with hname | haddress | ⟨hvalue, f, hf, hfield⟩
  · obtain ⟨rfl, -⟩ := mem_places.1 hp
    exact .inl hname
  · exact .inr (.inl haddress)
  · exact .inr (.inr ⟨f, hf, Place.fieldEnum_before hvalue hsplit hx,
      Place.namesField_entry hf hfield⟩)

end Scope

/-- **A header refers only to what it declares.** When a header is generated for an accepted
description, its first declaration has the entries of the flat table in their order, each with its
address under its identifier, and no identifier twice. A macro that writes to an address is that of
a word, and its identifier has the address of this word. Each word of a longer register is written
by one macro, and so is each single word that is no lone value. All else that the macros of a
register use is the macro for frames, which is declared in front of them, and the lowest bits and
masks of fields, which the enumeration of this register declares in front of them, with the numbers
of the field. -/
theorem references_declared {text header : String} {d : Device} {title : HeaderName}
    (haccepted : (Device.ofText text).result = .ok d)
    (hgenerated : (generate d title).result = .ok header) :
    let s : Scope := ⟨d, title⟩
    ∃ ds, s.declarations = .ok ds ∧ header = Declaration.renderAll ds ∧
      (∃ rest, ds = .enumeration (title.lower ++ "_regs_t")
        (d.flat.map fun e => (d.identPrefix ++ e.name, .hex e.addr)) :: rest) ∧
      (d.flat.map fun e => d.identPrefix ++ e.name).Nodup ∧
      (∀ m ∈ ds, ∀ x, m.addressed? = some x → ∃ p ∈ s.places,
        (p.reg.wordCount = 1 ∧ p.reg.isSingleValue = false ∧ m = p.singleMacro ∧ x = p.address) ∨
        (p.reg.wordCount ≠ 1 ∧ ∃ u, u < p.reg.wordCount ∧ m = p.wordMacro u ∧
          x = p.address ++ Place.wordSuffix u)) ∧
      (∀ p ∈ s.places, p.reg.wordCount = 1 → p.reg.isSingleValue = false →
        (p.address, .hex p.reg.addrLo) ∈ s.addressEnum.entries ∧
        ds.filter (fun m => m.addressed? = some p.address) = [p.singleMacro]) ∧
      (∀ p ∈ s.places, p.reg.wordCount ≠ 1 → ∀ u, u < p.reg.wordCount →
        ∃ a, p.reg.wordAddress u = .ok a ∧
          (p.address ++ Place.wordSuffix u, .hex a) ∈ s.addressEnum.entries ∧
          ds.filter (fun m => m.addressed? = some (p.address ++ Place.wordSuffix u))
            = [p.wordMacro u]) ∧
      ∀ p ∈ s.places, ∃ front rs back, ds = front ++ rs ++ back ∧ p.declarations = .ok rs ∧
        s.addressEnum ∈ front ∧ s.writeMacro ∈ front ∧
        ∀ before m after, rs = before ++ m :: after → ∀ x, m.Uses x →
          x = s.writeName ∨ m.addressed? = some x ∨
          ∃ f ∈ p.reg.fields, p.fieldEnum ∈ before ∧
            ((x = offsetName (p.fieldName f) ∧ (x, .hex f.lo) ∈ p.fieldEnum.entries) ∨
              (x = maskName (p.fieldName f) ∧ (x, .hex f.mask.toNat) ∈ p.fieldEnum.entries)) := by
  intro s
  obtain ⟨hall, htext⟩ := generate_eq_ok.1 hgenerated
  refine ⟨s.layout, Scope.declarations_eq_ok.2 ⟨hall, rfl⟩, htext, ⟨_, rfl⟩,
    nodup_identifiers haccepted, ?_, fun p hp => Scope.single_written haccepted hp,
    fun p hp hmany u => Scope.word_written haccepted hp hmany, ?_⟩
  · intro m hm x hx
    rcases List.mem_append.1 hm with hshared | hreg
    · rw [Scope.addressed?_shared hshared] at hx
      cases hx
    · obtain ⟨p, hp, hdeclared⟩ := List.mem_flatMap.1 hreg
      exact ⟨p, hp, Place.addressed?_cases hdeclared hx⟩
  · intro p hp
    obtain ⟨front, back, hlayout, henum, hwrite⟩ := Scope.exists_layout_eq hp
    exact ⟨front, p.declared, back, hlayout, Place.declarations_eq_ok.2 ⟨hall p hp, rfl⟩, henum,
      hwrite, fun before m after hsplit x => Scope.uses_before hp hsplit⟩

open Sample in
/-- In the sample header, the upper word of the longer register is written by its own macro only. -/
theorem references_declared_pll :
    ∃ ds, Scope.declarations ⟨device, ⟨"dev"⟩⟩ = .ok ds ∧
      header = Declaration.renderAll ds ∧
      ("PLL_BY0", .hex 0x30) ∈ (Scope.addressEnum ⟨device, ⟨"dev"⟩⟩).entries ∧
      ds.filter (fun m => m.addressed? = some "PLL_BY0") = [pll.wordMacro 0] := by
  obtain ⟨ds, hds, htext, -, -, -, -, hwords, -⟩ := references_declared accepted generated
  have hpll : pll ∈ Scope.places ⟨device, ⟨"dev"⟩⟩ :=
    Scope.mem_places.2 ⟨rfl, emitted_pll.page_mem, emitted_pll.reg_mem⟩
  obtain ⟨a, haddress, hentry, hwritten⟩ := hwords pll hpll (by decide) 0 (by decide)
  have hname : pll.address ++ Place.wordSuffix 0 = "PLL_BY0" := by decide
  obtain rfl : 0x30 = a := by
    have hfirst : pll.reg.wordAddress 0 = .ok 0x30 := by decide
    exact Except.ok.inj (hfirst.symm.trans haddress)
  rw [hname] at hentry hwritten
  exact ⟨ds, hds, htext, hentry, hwritten⟩

end RegisterMap.Header
