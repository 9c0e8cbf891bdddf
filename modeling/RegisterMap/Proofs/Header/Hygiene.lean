import RegisterMap.Proofs.Header.Reference

/-!
# Hygiene — where arguments come into a macro

The parameters of a macro stand alone in parentheses in its body, and all other names there are
meant as they are: the macro for frames, the identifier of an address, the lowest bit and the mask
of a field. Expansion does not see that difference. It replaces a name by an argument wherever the
name is a parameter, so a macro is hygienic when its parameters are all different and none of them
is such a name.

The parameters of a register are the names of its fields in small letters. Nothing keeps two of them
from being the same, or one of them from being the identifier of the register; nothing else can go
wrong.

## § What is here

* `Expr.fixed`, `Expr.fill` — the names that are meant as they are, and the body with arguments in
  its places for them;
* `Expr.substitute_eq_fill` — expansion fills these places and does nothing else;
* `Declaration.Hygienic` — macros whose parameters cannot be confused;
* `Place.hygienic_singleMacro`, `Place.hygienic_longMacro` — the macros that may not be hygienic;
* `parameters_apart` — all macros of a header;
* `parameters_meet` — there are headers with macros that are not hygienic.
-/

namespace RegisterMap.Header

/-! ## § Places of arguments -/

namespace Expr

mutual

/-- **fixed** — the names that stand anywhere but alone in parentheses. -/
def fixed : Expr → List String
  | name text => [text]
  | decimal _ => []
  | hex _ => []
  | paren (.name _) => []
  | paren e => e.fixed
  | complement e => e.fixed
  | shiftLeft a b => a.fixed ++ b.fixed
  | shiftRight a b => a.fixed ++ b.fixed
  | and a b => a.fixed ++ b.fixed
  | or terms => fixedAll terms
  | assign target value => target.fixed ++ value.fixed
  | call callee first second => callee :: (first.fixed ++ second.fixed)
  | spaced e => e.fixed
  | ownLine e => e.fixed

/-- **fixedAll** — those of some expressions. -/
def fixedAll : List Expr → List String
  | [] => []
  | e :: es => e.fixed ++ fixedAll es

end

mutual

/-- **fill** — the tokens of an expression with arguments for the names that stand alone in
parentheses. -/
def fill (args : String → Option (List Token)) : Expr → List Token
  | name text => [.name text]
  | decimal n => [.number (Text.decimal n)]
  | hex n => [.number ("0x" ++ Text.hex n)]
  | paren (.name text) => .leftParen :: ((args text).getD [.name text] ++ [.rightParen])
  | paren e => .leftParen :: (e.fill args ++ [.rightParen])
  | complement e => .complement :: e.fill args
  | shiftLeft a b => a.fill args ++ .operator .shiftLeft :: b.fill args
  | shiftRight a b => a.fill args ++ .operator .shiftRight :: b.fill args
  | and a b => a.fill args ++ .operator .and :: b.fill args
  | or terms => fillAll args terms
  | assign target value => target.fill args ++ .assign :: value.fill args
  | call callee first second =>
    .name callee :: .leftParen
      :: (first.fill args ++ .comma :: (second.fill args ++ [.rightParen]))
  | spaced e => e.fill args
  | ownLine e => e.fill args

/-- **fillAll** — the tokens of some expressions with `|` between them. -/
def fillAll (args : String → Option (List Token)) : List Expr → List Token
  | [] => []
  | [e] => e.fill args
  | e :: f :: es => e.fill args ++ .operator .or :: fillAll args (f :: es)

end

theorem fixed_paren {e : Expr} (h : ¬ e.IsName) : (paren e).fixed = e.fixed := by
  cases e with
  | name text => exact absurd trivial h
  | _ => rfl

theorem fill_paren {e : Expr} (h : ¬ e.IsName) (args : String → Option (List Token)) :
    (paren e).fill args = .leftParen :: (e.fill args ++ [.rightParen]) := by
  cases e with
  | name text => exact absurd trivial h
  | _ => rfl

theorem mem_fixedAll {x : String} {es : List Expr} :
    x ∈ fixedAll es ↔ ∃ e ∈ es, x ∈ e.fixed := by
  induction es with
  | nil => simp [fixedAll]
  | cons e es ih => rw [fixedAll, List.mem_append, ih, List.exists_mem_cons_iff]

section Substitution

variable {args : String → Option (List Token)}

mutual

/-- When no argument is for a name that is meant as it is, expansion fills the places of arguments
and does nothing else. -/
theorem substitute_eq_fill : ∀ e : Expr, (∀ x ∈ e.fixed, args x = none) →
    substitute args e.tokens = e.fill args
  | name text, h => by
    have hnone : args text = none := h text (List.mem_singleton_self text)
    simp [tokens, fill, substitute, hnone]
  | decimal n, _ => rfl
  | hex n, _ => rfl
  | paren e, h => by
    show Token.leftParen :: substitute args (e.tokens ++ [.rightParen]) = _
    by_cases hname : e.IsName
    · match e, hname with
      | name text, _ => simp [substitute, tokens, fill]
    · rw [fixed_paren hname] at h
      rw [substitute_append, substitute_eq_fill e h, fill_paren hname]
      rfl
  | complement e, h => by
    show Token.complement :: substitute args e.tokens = .complement :: e.fill args
    rw [substitute_eq_fill e h]
  | shiftLeft a b, h => by
    obtain ⟨ha, hb⟩ := List.forall_mem_append.1 h
    rw [tokens, substitute_between, substitute_eq_fill a ha, substitute_eq_fill b hb, fill]
  | shiftRight a b, h => by
    obtain ⟨ha, hb⟩ := List.forall_mem_append.1 h
    rw [tokens, substitute_between, substitute_eq_fill a ha, substitute_eq_fill b hb, fill]
  | and a b, h => by
    obtain ⟨ha, hb⟩ := List.forall_mem_append.1 h
    rw [tokens, substitute_between, substitute_eq_fill a ha, substitute_eq_fill b hb, fill]
  | or terms, h => substitute_eq_fillAll terms h
  | assign target value, h => by
    obtain ⟨htarget, hvalue⟩ := List.forall_mem_append.1 h
    rw [tokens, substitute_append, substitute_eq_fill target htarget, fill,
      ← substitute_eq_fill value hvalue]
    rfl
  | call callee first second, h => by
    obtain ⟨hcallee, hargs⟩ := List.forall_mem_cons.1 h
    obtain ⟨hfirst, hsecond⟩ := List.forall_mem_append.1 hargs
    show (args callee).getD [.name callee] ++ .leftParen
      :: substitute args (first.tokens ++ .comma :: (second.tokens ++ [.rightParen])) = _
    rw [hcallee, substitute_append, substitute_eq_fill first hfirst, fill,
      ← substitute_eq_fill second hsecond]
    show _ :: _ :: (_ ++ .comma :: substitute args (second.tokens ++ [.rightParen])) = _
    rw [substitute_append]
    rfl
  | spaced e, h => substitute_eq_fill e h
  | ownLine e, h => substitute_eq_fill e h

theorem substitute_eq_fillAll : ∀ es : List Expr, (∀ x ∈ fixedAll es, args x = none) →
    substitute args (tokensAll es) = fillAll args es
  | [], _ => rfl
  | [e], h => substitute_eq_fill e (List.forall_mem_append.1 h).1
  | e :: f :: es, h => by
    obtain ⟨he, hes⟩ := List.forall_mem_append.1 h
    rw [tokensAll, substitute_between, substitute_eq_fill e he,
      substitute_eq_fillAll (f :: es) hes, fillAll]

end

end Substitution

end Expr

/-! ## § Hygiene -/

namespace Declaration

/-- **params** — the parameters of a macro. -/
def params : Declaration → List String
  | .define _ params _ => params
  | _ => []

/-- **fixed** — the names in the body of a macro that are meant as they are. -/
def fixed : Declaration → List String
  | .define _ _ body => body.fixed
  | _ => []

theorem params_of_plain {d : Declaration} (h : ¬ d.IsMacro) : d.params = [] := by
  cases d with
  | define => exact absurd trivial h
  | _ => rfl

theorem fixed_of_plain {d : Declaration} (h : ¬ d.IsMacro) : d.fixed = [] := by
  cases d with
  | define => exact absurd trivial h
  | _ => rfl

/-- **Hygienic** — the parameters of a macro are all different, and none of them is a name that its
body means as it is. -/
structure Hygienic (d : Declaration) : Prop where
  nodup : d.params.Nodup
  apart : ∀ x ∈ d.params, x ∉ d.fixed

theorem Hygienic.of_plain {d : Declaration} (h : ¬ d.IsMacro) : d.Hygienic := by
  refine ⟨params_of_plain h ▸ List.nodup_nil, fun x hx => ?_⟩
  rw [params_of_plain h] at hx
  cases hx

/-- A hygienic macro gives way to its body with the arguments in their places, and nothing else in
the body changes. -/
theorem Hygienic.instantiate_eq {name : String} {params : List String} {body : Expr}
    (h : (define name params body).Hygienic) {args : List (List Token)}
    (hlength : params.length = args.length) :
    Macro.instantiate ⟨name, params, body.tokens⟩ args
      = some (body.fill (Macro.argument? params args)) := by
  rw [Macro.instantiate, if_pos ⟨h.nodup, hlength⟩]
  refine congrArg some (Expr.substitute_eq_fill body fun x hx => ?_)
  exact Macro.argument?_eq_none fun hparam => h.apart x hparam hx

end Declaration

/-- The names that a setter means as they are. -/
theorem Setter.mem_fixed {bits : BitSpec} {field v x : String}
    (h : x ∈ (expr bits field (.name v)).fixed) : x = offsetName field ∨ x = maskName field := by
  cases bits with
  | range hi lo => simpa [expr, Expr.fixed] using h
  | list ps =>
    have hterm : ∀ qs, Expr.fixedAll (bitTerms (.name v) qs) = [] := by
      intro qs
      induction qs with
      | nil => rfl
      | cons q qs ih => simp [bitTerms, bitTerm, Expr.fixedAll, Expr.fixed, ih]
    have hmask : x = maskName field := by simpa [expr, Expr.fixed, hterm] using h
    exact .inr hmask

/-- The names that a getter means as they are. -/
theorem Getter.mem_fixed {bits : BitSpec} {field v x : String}
    (h : x ∈ (expr bits field (.name v)).fixed) : x = offsetName field ∨ x = maskName field := by
  cases bits with
  | range hi lo =>
    have hcases : x = maskName field ∨ x = offsetName field := by
      simpa [expr, Expr.fixed] using h
    exact hcases.symm
  | list ps =>
    have hterms : x ∈ Expr.fixedAll (bitTerms field (.name v) ps) := by
      simpa [expr, Expr.fixed] using h
    obtain ⟨e, he, hx⟩ := Expr.mem_fixedAll.1 hterms
    obtain ⟨i, hi, rfl⟩ := List.mem_mapIdx.1 he
    have hmask : x = maskName field := by simpa [bitTerm, Expr.fixed] using hx
    exact .inr hmask

namespace Place

variable {p : Place} {m : Declaration} {f : Field} {x : String}

/-! ## § Names that are meant as they are -/

theorem mem_fixed_getter (h : x ∈ (p.getter f).fixed) : p.NamesField f x := Getter.mem_fixed h

theorem mem_fixed_setter (h : x ∈ (p.setter f).fixed) : p.NamesField f x := by
  have hcases : x = maskName (p.fieldName f) ∨
      x ∈ (Setter.expr f.bits (p.fieldName f) (.name "f")).fixed := by
    simpa [setter, Declaration.fixed, Expr.fixed, Expr.fixedAll] using h
  rcases hcases with hmask | hsetter
  · exact .inr hmask
  · exact Setter.mem_fixed hsetter

theorem mem_fixed_combined (h : x ∈ p.combined.fixed) : ∃ f ∈ p.reg.fields, p.NamesField f x := by
  obtain ⟨e, he, hx⟩ := Expr.mem_fixedAll.1 h
  obtain ⟨f, hf, rfl⟩ := List.mem_map.1 he
  exact ⟨f, hf, Setter.mem_fixed hx⟩

theorem fixed_singleMacro (p : Place) :
    p.singleMacro.fixed = p.writeName :: p.address :: p.combined.fixed := rfl

theorem fixed_wordMacro (p : Place) (u : Nat) :
    (p.wordMacro u).fixed = [p.writeName, p.address ++ wordSuffix u] := by
  have hslice : (p.slice u).fixed = [] := by
    rcases slice_cases p u with ⟨-, hslice⟩ | ⟨-, hslice⟩
    · rw [hslice]
      rfl
    · rw [hslice]
      rfl
  show p.writeName :: ([p.address ++ wordSuffix u] ++ (p.slice u).fixed) = _
  rw [hslice]
  rfl

/-- What the macros of a register mean as it is: the macro for frames, the address that they hand
to it, and the lowest bits and masks of fields. -/
theorem fixed_cases (hm : m ∈ p.declared) (hx : x ∈ m.fixed) :
    x = p.writeName ∨ m.addressed? = some x ∨ ∃ f ∈ p.reg.fields, p.NamesField f x := by
  rcases List.mem_append.1 hm with hintro | hmake
  · rcases introduction_cases hintro with hplain | ⟨-, f, hf, rfl | rfl⟩
    · rw [Declaration.fixed_of_plain hplain] at hx
      cases hx
    · exact .inr (.inr ⟨f, hf, mem_fixed_getter hx⟩)
    · exact .inr (.inr ⟨f, hf, mem_fixed_setter hx⟩)
  · rcases mem_construction.1 hmake with ⟨-, -, rfl⟩ | ⟨-, ⟨-, rfl⟩ | ⟨u, -, rfl⟩⟩
    · rw [fixed_singleMacro, List.mem_cons, List.mem_cons] at hx
      rcases hx with hwrite | rfl | hfield
      · exact .inl hwrite
      · exact .inr (.inl rfl)
      · exact .inr (.inr (mem_fixed_combined hfield))
    · exact .inr (.inr (mem_fixed_combined hx))
    · rw [fixed_wordMacro, List.mem_cons, List.mem_singleton] at hx
      rcases hx with hwrite | rfl
      · exact .inl hwrite
      · exact .inr (.inl rfl)

/-- The names of a field end in a capital letter. -/
theorem lastChar_namesField (h : p.NamesField f x) :
    ∃ c, lastChar x = some c ∧ c.isUpper = true := by
  rcases h with rfl | rfl
  · exact ⟨'F', lastChar_offsetName _, by decide⟩
  · exact ⟨'K', lastChar_maskName _, by decide⟩

/-! ## § Macros of a register -/

/-- A parameter in small letters is no name of a field. -/
theorem ne_of_namesField {param : String} {c : Char} (hlast : lastChar param = some c)
    (hc : c.isUpper = false) (hx : p.NamesField f x) : param ≠ x := by
  obtain ⟨d, hd, hupper⟩ := lastChar_namesField hx
  apply ne_of_lastChar
  rw [hlast, hd]
  rintro ⟨⟩
  rw [hc] at hupper
  cases hupper

theorem hygienic_getter (p : Place) (f : Field) : (p.getter f).Hygienic := by
  refine ⟨List.nodup_singleton "x", fun x hx hfixed => ?_⟩
  obtain rfl := List.mem_singleton.1 hx
  exact ne_of_namesField (c := 'x') rfl rfl (mem_fixed_getter hfixed) rfl

theorem hygienic_setter (p : Place) (f : Field) : (p.setter f).Hygienic := by
  have hnodup : ["p", "f"].Nodup := by decide
  refine ⟨hnodup, fun x hx hfixed => ?_⟩
  rcases List.mem_cons.1 hx with rfl | hx
  · exact ne_of_namesField (c := 'p') rfl rfl (mem_fixed_setter hfixed) rfl
  · obtain rfl := List.mem_singleton.1 hx
    exact ne_of_namesField (c := 'f') rfl rfl (mem_fixed_setter hfixed) rfl

theorem hygienic_wordMacro (p : Place) (u : Nat) : (p.wordMacro u).Hygienic := by
  refine ⟨List.nodup_singleton "value", fun x hx hfixed => ?_⟩
  obtain rfl := List.mem_singleton.1 hx
  rw [fixed_wordMacro, List.mem_cons, List.mem_singleton] at hfixed
  rcases hfixed with hwrite | hword
  · exact ne_of_lastChar (by rw [lastChar_writeName]; decide) hwrite
  · exact word_ne (c := 'e') rfl rfl hword.symm

/-- What introduces a register is hygienic. -/
theorem hygienic_introduction (hm : m ∈ p.introduction) : m.Hygienic := by
  rcases introduction_cases hm with hplain | ⟨-, f, -, rfl | rfl⟩
  · exact .of_plain hplain
  · exact p.hygienic_getter f
  · exact p.hygienic_setter f

/-- The parameters of a register are no names of fields. -/
theorem param_not_fixed (hr : p.reg.Sound p.device.dataWidth) (hx : x ∈ p.params) :
    x ∉ p.combined.fixed := by
  intro hfixed
  obtain ⟨f, -, hfield⟩ := mem_fixed_combined hfixed
  obtain ⟨c, hlast, hc⟩ := lastChar_namesField hfield
  exact not_mem_params hr hlast hc hx

/-- The macro for the value of a longer register is hygienic when its parameters are all
different. -/
theorem hygienic_longMacro (hr : p.reg.Sound p.device.dataWidth) :
    p.longMacro.Hygienic ↔ p.params.Nodup :=
  ⟨fun h => h.nodup, fun h => ⟨h, fun _ hx => param_not_fixed hr hx⟩⟩

/-- That of a single word is when the address is none of them besides. -/
theorem hygienic_singleMacro (hr : p.reg.Sound p.device.dataWidth) :
    p.singleMacro.Hygienic ↔ p.params.Nodup ∧ p.address ∉ p.params := by
  refine ⟨fun h => ⟨h.nodup, fun hparam => h.apart _ hparam ?_⟩, fun ⟨hnodup, haddress⟩ => ?_⟩
  · rw [fixed_singleMacro]
    exact List.mem_cons_of_mem _ List.mem_cons_self
  · refine ⟨hnodup, fun x hx hfixed => ?_⟩
    rw [fixed_singleMacro, List.mem_cons, List.mem_cons] at hfixed
    rcases hfixed with rfl | rfl | hfield
    · exact writeName_not_mem hr hx
    · exact haddress hx
    · exact param_not_fixed hr hx hfield

end Place

/-! ## § A whole header -/

namespace Scope

variable {s : Scope} {m : Declaration}

/-- What the registers share means no name as it is. -/
theorem fixed_shared (hm : m ∈ s.shared) : m.fixed = [] := by
  have hframe : ∀ mask terms, Expr.fixedAll terms = [] → (frameBody mask terms).fixed = [] := by
    intro mask terms hterms
    cases mask with
    | none => exact hterms
    | some bits => exact hterms
  simp only [shared, List.mem_append, List.mem_cons, List.not_mem_nil, or_false, List.mem_map]
    at hm
  rcases hm with (rfl | rfl | rfl) | ⟨t, -, rfl⟩
  · rfl
  · exact hframe s.device.writeMask? _ rfl
  · exact hframe s.device.readMask? _ rfl
  · rfl

theorem hygienic_shared (hm : m ∈ s.shared) : m.Hygienic := by
  have hnodup : m.params.Nodup := by
    have hframe : ["a", "v"].Nodup := by decide
    simp only [shared, List.mem_append, List.mem_cons, List.not_mem_nil, or_false, List.mem_map]
      at hm
    rcases hm with (rfl | rfl | rfl) | ⟨t, -, rfl⟩
    · exact List.nodup_nil
    · exact hframe
    · exact List.nodup_singleton _
    · exact List.nodup_nil
  refine ⟨hnodup, fun x _ hfixed => ?_⟩
  rw [fixed_shared hm] at hfixed
  cases hfixed

/-- A macro is hygienic unless it constructs a register whose parameters are not all different, or
a single word whose address is one of them. -/
theorem hygienic_iff (hd : s.device.Sound) (hm : m ∈ s.layout) : m.Hygienic ↔ ∀ p ∈ s.places,
    (m = p.singleMacro → p.params.Nodup ∧ p.address ∉ p.params) ∧
      (m = p.longMacro → p.params.Nodup) := by
  refine ⟨fun h p hp => ⟨?_, ?_⟩, fun h => ?_⟩
  · rintro rfl
    exact (Place.hygienic_singleMacro (reg_sound hd hp)).1 h
  · rintro rfl
    exact (Place.hygienic_longMacro (reg_sound hd hp)).1 h
  · rcases List.mem_append.1 hm with hshared | hreg
    · exact hygienic_shared hshared
    · obtain ⟨p, hp, hdeclared⟩ := List.mem_flatMap.1 hreg
      have hr := reg_sound hd hp
      rcases List.mem_append.1 hdeclared with hintro | hmake
      · exact Place.hygienic_introduction hintro
      · rcases Place.mem_construction.1 hmake with ⟨-, -, rfl⟩ | ⟨-, ⟨-, rfl⟩ | ⟨u, -, rfl⟩⟩
        · exact (Place.hygienic_singleMacro hr).2 ((h p hp).1 rfl)
        · exact (Place.hygienic_longMacro hr).2 ((h p hp).2 rfl)
        · exact p.hygienic_wordMacro u

end Scope

/-- **Parameters and other names.** When a header is generated for an accepted description, a macro
in it is hygienic exactly when it is no construction macro of a register with two fields of one name
in small letters, and not that of a single word whose address is called like such a name. What its
body means as it is can only be the macro for frames, the address that is handed to it, and the
lowest bits and masks of fields. A use of a hygienic macro gives way to the body with the arguments
in the places of its parameters, and nothing else there is replaced. -/
theorem parameters_apart {text header : String} {d : Device} {title : HeaderName}
    (haccepted : (Device.ofText text).result = .ok d)
    (hgenerated : (generate d title).result = .ok header) :
    let s : Scope := ⟨d, title⟩
    ∃ ds, s.declarations = .ok ds ∧ header = Declaration.renderAll ds ∧
      (∀ m ∈ ds, m.Hygienic ↔ ∀ p ∈ s.places,
        (m = p.singleMacro → p.params.Nodup ∧ p.address ∉ p.params) ∧
        (m = p.longMacro → p.params.Nodup)) ∧
      (∀ m ∈ ds, ∀ x ∈ m.fixed, x = s.writeName ∨ m.addressed? = some x ∨
        ∃ p ∈ s.places, ∃ f ∈ p.reg.fields, p.NamesField f x) ∧
      ∀ name params body, Declaration.define name params body ∈ ds →
        (Declaration.define name params body).Hygienic →
        ∀ args, params.length = args.length →
          Macro.instantiate ⟨name, params, body.tokens⟩ args
            = some (body.fill (Macro.argument? params args)) := by
  intro s
  obtain ⟨hall, htext⟩ := generate_eq_ok.1 hgenerated
  have hd : s.device.Sound := Device.sound_of_ofText haccepted
  refine ⟨s.layout, Scope.declarations_eq_ok.2 ⟨hall, rfl⟩, htext,
    fun m hm => Scope.hygienic_iff hd hm, fun m hm x hx => ?_,
    fun name params body _ h args hlength => h.instantiate_eq hlength⟩
  rcases List.mem_append.1 hm with hshared | hreg
  · rw [Scope.fixed_shared hshared] at hx
    cases hx
  · obtain ⟨p, hp, hdeclared⟩ := List.mem_flatMap.1 hreg
    have hscope := (Scope.mem_places.1 hp).1
    rcases Place.fixed_cases hdeclared hx with hwrite | haddress | hfield
    · exact .inl (hscope ▸ hwrite)
    · exact .inr (.inl haddress)
    · exact .inr (.inr ⟨p, hp, hfield⟩)

namespace Captured

/-- **text** — a device with a register that is called like its field in small letters, and one with
two fields that differ in the case of a letter. -/
def text : String :=
  "name: Captured\naddr_width: 8\ndata_width: 8\npages:\n- name: Main\n  regs:\n  - name: gain\n"
    ++ "    addr: 0x10\n    fields:\n    - name: GAIN\n      bits: \"3:0\"\n  - name: CTRL\n"
    ++ "    addr: 0x11\n    fields:\n    - name: EN\n      bits: 0\n    - name: En\n      bits: 1\n"

/-- **register** — a register of one word. -/
def register (name : String) (addr : Nat) (fields : List Field) : Register where
  name
  addrHi := addr
  addrLo := addr
  bigOrder := false
  fields
  fieldIndex := .ofNames (fields.map Field.name)

/-- **page** — the only page. -/
def page : Page :=
  ⟨"Main", [register "gain" 0x10 [Sample.field "GAIN" (.range 3 0) 4],
    register "CTRL" 0x11 [Sample.field "En" (.range 1 1) 1, Sample.field "EN" (.range 0 0) 1]],
    .ofNames ["gain", "CTRL"]⟩

/-- **device** — what the text describes. -/
def device : Device where
  name := "Captured"
  desc := "Captured"
  regPrefix := ""
  pagePrefix := false
  fieldPrefix := []
  fieldMacros := false
  addrWidth := 8
  dataWidth := 8
  bus := {}
  pages := [page]
  tables := []
  flat := FlatEntry.ofPages false [page]
  pageIndex := .ofNames ["Main"]
  flatIndex := .ofNames ["gain", "CTRL"]

/-- **scope** — the device with a header. -/
def scope : Scope := ⟨device, ⟨"dev"⟩⟩

/-- **place** — a register where it stands. -/
def place (reg : Register) : Place := ⟨scope, page, reg⟩

/-- **gain** — the register that is called like its field. -/
def gain : Place := place (register "gain" 0x10 [Sample.field "GAIN" (.range 3 0) 4])

/-- **ctrl** — the register with two fields of one name. -/
def ctrl : Place := place (register "CTRL" 0x11
  [Sample.field "En" (.range 1 1) 1, Sample.field "EN" (.range 0 0) 1])

/-- **numbers** — the names of the first register with their numbers. -/
def numbers (name : String) : Option Nat :=
  [("gain", 0x10), ("GAIN_OFF", 0), ("GAIN_MSK", 0xf)].lookup name

theorem accepted : (Device.ofText text).result = .ok device :=
  Device.ofText_of_chars (Text.ofList_parts (Text.ofList_parts rfl rfl) rfl) (by decide +kernel)

theorem generated :
    (generate device ⟨"dev"⟩).result = .ok (Declaration.renderAll scope.layout) :=
  generate_of_single (by decide)

theorem gain_mem : gain ∈ scope.places := List.mem_cons_self

theorem ctrl_mem : ctrl ∈ scope.places := List.mem_cons_of_mem _ List.mem_cons_self

theorem singleMacro_mem {p : Place} (hp : p ∈ scope.places)
    (hmakes : p.construction = [p.singleMacro]) : p.singleMacro ∈ scope.layout :=
  List.mem_append_right _ (List.mem_flatMap.2
    ⟨p, hp, List.mem_append_right _ (hmakes ▸ List.mem_singleton_self _)⟩)

end Captured

open Captured in
/-- In the header of that device the address of a register is replaced by the value of its field:
given the value 3, its macro writes to address 3 and not to `0x10`. The macro of the other register
has a parameter twice. The macros for frames are hygienic. -/
theorem parameters_apart_captured :
    ∃ ds, scope.declarations = .ok ds ∧ ¬ gain.singleMacro.Hygienic ∧
      ¬ ctrl.singleMacro.Hygienic ∧ scope.readMacro.Hygienic ∧
      evaluate [gain.writeMacro, gain.singleMacro] numbers
        (callOf gain.makeName (numerals [3])) = some 0x303 := by
  obtain ⟨ds, hds, -, hhygienic, -⟩ := parameters_apart accepted generated
  obtain ⟨-, rfl⟩ := Scope.declarations_eq_ok.1 hds
  refine ⟨_, hds, fun h => ?_, fun h => ?_, ?_, by decide⟩
  · have hparams := (hhygienic _ (singleMacro_mem gain_mem rfl)).1 h gain gain_mem
    exact (hparams.1 rfl).2 (by decide)
  · have hparams := (hhygienic _ (singleMacro_mem ctrl_mem rfl)).1 h ctrl ctrl_mem
    have htwice : ¬ ctrl.params.Nodup := by decide
    exact htwice (hparams.1 rfl).1
  · have hread : scope.readMacro ∈ scope.layout := by simp [Scope.layout, Scope.shared]
    have hother : ∀ p ∈ scope.places, p.params ≠ ["a"] := by decide
    refine (hhygienic _ hread).2 fun p hp => ⟨fun h => ?_, fun h => ?_⟩
    · exact absurd (congrArg Declaration.params h).symm (hother p hp)
    · exact absurd (congrArg Declaration.params h).symm (hother p hp)

open Captured in
/-- Accepted descriptions have headers with macros that are not hygienic. -/
theorem parameters_meet :
    ¬ ∀ (text header : String) (d : Device) (title : HeaderName),
      (Device.ofText text).result = .ok d → (generate d title).result = .ok header →
      ∃ ds, Scope.declarations ⟨d, title⟩ = .ok ds ∧ header = Declaration.renderAll ds ∧
        ∀ m ∈ ds, m.Hygienic := by
  intro h
  obtain ⟨ds, hds, -, hall⟩ := h text _ device ⟨"dev"⟩ accepted generated
  obtain ⟨-, rfl⟩ := Scope.declarations_eq_ok.1 hds
  have hcaptured := (hall _ (singleMacro_mem gain_mem rfl)).apart "gain" (by decide)
  exact hcaptured (by decide)

end RegisterMap.Header
