import RegisterMap.Proofs.Bits.Replace
import RegisterMap.Proofs.Device.Combine
import RegisterMap.Proofs.Header.Declared
import RegisterMap.Proofs.Header.Getter
import RegisterMap.Proofs.Header.Inventory
import RegisterMap.Proofs.Header.Statement

/-!
# Lenses — the macros that read and change a field

If a device asks for them, each field has a macro that reads it from a variable and one that changes
it there. The second is an assignment: it takes the bits of the field out of the variable with the
complement of its mask, and puts the bits of a new value in. Together they are a lens: what was put
in is read again, only the bits of the field change, the last of two changes counts, and a field may
be changed to what it is.

These are the laws of replaced bits. What is left is that both macros say the same as the numbers:
the assignment expands to one term, and that term has the new value of the variable.

All macros of the header are there at once. Their names are put together from those of a register
and of a field, so two fields can have getters under one name; then that name stands for neither.

## § What is here

* `Place.getMacro`, `Place.setMacro` — the two macros of a field;
* `Place.getUse`, `Place.setUse` — their uses;
* `Place.Accessible` — a variable that a field can be read from;
* `Place.evaluateIn_getUse`, `Place.execute_setUse` — what the uses do, in numbers;
* `Place.field_lens` — the laws.
-/

namespace RegisterMap.Header.Place

/-! ## § The macros of a field -/

section Macros

variable (p : Place) (f : Field)

/-- **getName** — the name of the macro that reads a field. -/
def getName : String := p.called "GET_" (p.fieldName f)

/-- **setName** — the name of the macro that changes a field. -/
def setName : String := p.called "SET_" (p.fieldName f)

/-- **getUse** — the field in a variable. -/
def getUse (x : String) : List Token := callOf (p.getName f) [[.name x]]

/-- **setUse** — the field in a variable is changed to what some tokens stand for. -/
def setUse (x : String) (value : List Token) : List Token :=
  callOf (p.setName f) [[.name x], value]

/-- **others** — the bits of the variable that are not in the field. -/
def others : Expr :=
  .paren (.and (.paren (.name "p")) (.complement (.name (maskName (p.fieldName f)))))

/-- **changed** — what is assigned to the variable: its other bits and the new ones of the field. -/
def changed : Expr := .or [p.others f, Setter.expr f.bits (p.fieldName f) (.name "f")]

/-- **getMacro** — the macro that reads the field, in tokens. -/
def getMacro : Macro :=
  ⟨p.getName f, ["x"], (Getter.expr f.bits (p.fieldName f) (.name "x")).tokens⟩

/-- **setMacro** — the macro that changes the field, in tokens. -/
def setMacro : Macro :=
  ⟨p.setName f, ["p", "f"],
    .leftParen :: .name "p" :: .rightParen :: .assign :: (p.changed f).tokens⟩

theorem getMacro_eq : Macro.ofDeclaration? (p.getter f) = some (p.getMacro f) := rfl

theorem setMacro_eq : Macro.ofDeclaration? (p.setter f) = some (p.setMacro f) := rfl

end Macros

variable {p : Place} {f : Field} {last : Nat} {ds : List Declaration} {m : Memory} {x : String}
  {n v : Nat}

theorem ranked_getter (hs : f.Sound last) :
    (Getter.expr f.bits (p.fieldName f) (.name "x")).Ranked ["x"] 0 :=
  Getter.ranked_expr (x := .name "x") hs.proper (.inl trivial) (bounds_not_mem (by decide)).1
    (bounds_not_mem (by decide)).2 0

theorem ranked_setter (hs : f.Sound last) (rank : Nat) :
    (Setter.expr f.bits (p.fieldName f) (.name "f")).Ranked ["p", "f"] rank :=
  Setter.ranked_expr (v := .name "f") hs.proper (.inl trivial) (bounds_not_mem (by decide)).1
    (bounds_not_mem (by decide)).2 rank

theorem ranked_changed (hs : f.Sound last) : (p.changed f).Ranked ["p", "f"] 0 := by
  have hmask : maskName (p.fieldName f) ∉ ["p", "f"] := (bounds_not_mem (by decide)).2
  have hothers : (p.others f).Ranked ["p", "f"] (Operator.or.rank + 1) :=
    .inr ⟨by decide, .inl trivial, by decide, hmask⟩
  exact ⟨by decide, List.cons_ne_nil _ _, hothers, ranked_setter hs _, trivial⟩

/-! ## § Variables -/

/-- **Accessible** — a variable with a name of its own, where the lowest bit and the mask of a field
have the numbers that the header gives them. -/
structure Accessible (p : Place) (f : Field) (m : Memory) (x : String) : Prop where
  entries : ∀ e ∈ p.fieldEntries f, m e.1 = e.2.read.map Int.ofNat
  apart : x ∉ [offsetName (p.fieldName f), maskName (p.fieldName f)]

namespace Accessible

/-- The field stays accessible when the variable changes. -/
theorem assign (h : p.Accessible f m x) (z : Int) : p.Accessible f (m.assign x z) x := by
  refine ⟨fun e he => ?_, h.apart⟩
  have hne : e.1 ≠ x := by
    rintro rfl
    exact h.apart (List.mem_map_of_mem he)
  rw [Memory.assign_of_ne hne]
  exact h.entries e he

theorem offset (h : p.Accessible f m x) :
    m.numbers (offsetName (p.fieldName f)) = some f.bits.lo := by
  rw [Memory.numbers_eq_some, h.entries _ List.mem_cons_self, Literal.read_eq]
  rfl

theorem mask (h : p.Accessible f m x) :
    m.numbers (maskName (p.fieldName f)) = some f.mask.toNat := by
  rw [Memory.numbers_eq_some, h.entries _ (List.mem_cons_of_mem _ List.mem_cons_self),
    Literal.read_eq]
  rfl

end Accessible

/-! ## § Reading -/

/-- **taken** — the field in a variable, without macros. -/
def taken (p : Place) (f : Field) (x : String) : Expr :=
  (Getter.expr f.bits (p.fieldName f) (.name "x")).subst (Macro.argument? ["x"] [.name x])

theorem ranked_taken (hs : f.Sound last) (x : String) : (p.taken f x).Ranked [] 0 :=
  Macro.ranked_filled (ranked_getter hs) (ranked_variable x)

theorem value_taken (hs : f.Sound last) (h : p.Accessible f m x) (hn : m x = some (n : Int)) :
    (p.taken f x).value m.numbers = some (f.bits.collect n) := by
  have hkeep : ∀ text, text ∉ ["x"] →
      Macro.argument? ["x"] [Expr.name x] text = none := fun _ => Macro.argument?_eq_none
  rw [taken, Expr.value_subst]
  refine Getter.value_expr hs.proper ?_ ?_ ?_
  · rw [hkeep _ (bounds_not_mem (by decide)).1]
    exact h.offset
  · rw [hkeep _ (bounds_not_mem (by decide)).2, ← hs.mask_eq]
    exact h.mask
  · exact Memory.numbers_eq_some.2 hn

theorem expands_getUse (hs : f.Sound last) (hget : p.getMacro f ∈ macros ds)
    (hagree : Agree ds (p.getName f)) (x : String) :
    Expands (meaning? ds) (p.getUse f x) (p.taken f x).tokens :=
  expands_call hget hagree (List.pairwise_singleton _ _) rfl (List.cons_ne_nil _ _)
    (ranked_getter hs) (ranked_variable x)

/-- The use of the getter stands for the bits of the field, if its name stands for the getter. -/
theorem evaluateIn_getUse (hs : f.Sound last) (hget : p.getMacro f ∈ macros ds)
    (h : p.Accessible f m x) (hn : m x = some (n : Int)) :
    evaluateIn ds m (p.getUse f x)
      = if Agree ds (p.getName f) then some (f.bits.collect n : Int) else none := by
  split
  · rename_i hagree
    have hsettled : Settled (meaning? ds) (p.taken f x).tokens :=
      settled_of_calls (Expr.calls_tokens (ranked_taken hs x))
    rw [evaluateIn_of_expandIn (expandIn_once hget (expands_getUse hs hget hagree x) hsettled)]
    exact integer_tokens (ranked_taken hs x) (value_taken hs h hn)
  · rename_i hagree
    have hsettled : Settled (meaning? ds) (p.getUse f x) :=
      settled_callOf hagree (ranked_variable x)
    exact evaluateIn_of_call (expandIn_settled hsettled) (mem_calls [] (p.getName f) _)

/-! ## § Changing -/

/-- **operands** — what takes the places of the parameters: the variable and the new value. -/
def operands (x : String) (e : Expr) : String → Option Expr :=
  Macro.argument? ["p", "f"] [.name x, e]

/-- The new bits of the field. -/
theorem value_setter {e : Expr} (hs : f.Sound last) (h : p.Accessible f m x)
    (hv : e.value m.numbers = some v) :
    ((Setter.expr f.bits (p.fieldName f) (.name "f")).subst (operands x e)).value m.numbers
      = some (f.bits.spread v) := by
  have hkeep : ∀ text, text ∉ ["p", "f"] → operands x e text = none :=
    fun _ => Macro.argument?_eq_none
  rw [Expr.value_subst]
  refine Setter.value_expr hs.proper ?_ ?_ ?_
  · rw [hkeep _ (bounds_not_mem (by decide)).1]
    exact h.offset
  · rw [hkeep _ (bounds_not_mem (by decide)).2, ← hs.mask_eq]
    exact h.mask
  · exact hv

/-- Other bits than those of the field are kept, as the complement of the mask says. -/
theorem phrase_others (p : Place) (f : Field) (x : String) (e : Expr) :
    Phrase Operator.or.rank ((p.others f).subst (operands x e)).tokens
      (.binary .and (.name x) (.complement (.name (maskName (p.fieldName f))))) := by
  have hmask : operands x e (maskName (p.fieldName f)) = none :=
    Macro.argument?_eq_none (bounds_not_mem (by decide)).2
  have hsubst : (p.others f).subst (operands x e)
      = .paren (.and (.paren (.name x)) (.complement (.name (maskName (p.fieldName f))))) := by
    simp only [others, Expr.subst, hmask]
    rfl
  rw [hsubst]
  refine .paren _ (.binary .and (by decide) (.paren _ (.name 0 x)) ?_)
  exact .complement (by decide) (.name _ _)

theorem integer_others (h : p.Accessible f m x) (hn : m x = some (n : Int)) :
    (Term.binary .and (.name x) (.complement (.name (maskName (p.fieldName f))))).integer m
      = some (n.ldiff f.mask.toNat : Int) := by
  have hmask : m (maskName (p.fieldName f)) = some (f.mask.toNat : Int) :=
    Memory.numbers_eq_some.1 h.mask
  simp only [Term.integer, hn, hmask, Option.map_some, Option.bind_some]
  -- A natural number has no bit beyond its size, so the complement of the mask leaves none there.
  rfl

/-- The term that is assigned has the new value of the variable. -/
theorem read_changed {e : Expr} (hs : f.Sound last) (h : p.Accessible f m x)
    (hn : m x = some (n : Int)) (he : e.Ranked [] 0) (hv : e.value m.numbers = some v) :
    ∃ t, read ((p.changed f).subst (operands x e)).tokens = some t ∧
      t.integer m = some (f.bits.replace n v : Int) := by
  have hranked : ((Setter.expr f.bits (p.fieldName f) (.name "f")).subst (operands x e)).Ranked
      [] (Operator.or.rank + 1) := Macro.ranked_filled (ranked_setter hs _) (ranked_operands x he)
  obtain ⟨t, ht, hvalue⟩ := Expr.phrase_tokens _ hranked
  have hnew : t.integer m = some (f.bits.spread v : Int) :=
    Term.integer_of_value ((hvalue _).trans (value_setter hs h hv))
  refine ⟨_, read_of_phrase (.binary .or (by decide) (phrase_others p f x e) ht), ?_⟩
  rw [Term.integer, integer_others h hn, hnew, Option.bind_some, Option.bind_some,
    Operator.applyInt_ofNat, hs.mask_eq]
  rfl

/-- **assigned** — the assignment that the use of the setter stands for. -/
def assigned (p : Place) (f : Field) (x : String) (e : Expr) : List Token :=
  .leftParen :: .name x :: .rightParen :: .assign :: ((p.changed f).subst (operands x e)).tokens

/-- The use of the setter gives way to the assignment, once its new value is expanded. -/
theorem expandIn_setUse {e : Expr} {us : List Token} (hs : f.Sound last)
    (hset : p.setMacro f ∈ macros ds) (hagree : Agree ds (p.setName f)) (he : e.Ranked [] 0)
    (hus : Expands (meaning? ds) us e.tokens) :
    expandIn ds (p.setUse f x us) = some (p.assigned f x e) := by
  have hnodup : ["p", "f"].Nodup := by decide
  have hbody : (p.setMacro f).instantiate [[.name x], e.tokens] = some (p.assigned f x e) := by
    rw [Macro.instantiate, if_pos ⟨hnodup, rfl⟩, assigned, operands,
      ← Macro.substitute_tokens (ranked_changed hs)]
    rfl
  have hvariable : Expands (meaning? ds) [.name x] [.name x] := .of_calls rfl
  have hargs : Expands (meaning? ds) (separated [[.name x], us])
      (separated [[.name x], e.tokens]) := hvariable.append (.cons (by simp) hus) (by simp)
  have hwhole : ∀ ts ∈ [[.name x], e.tokens], Whole ts :=
    List.forall_mem_cons.2
      ⟨Expr.whole_tokens (.name x), List.forall_mem_singleton.2 e.whole_tokens⟩
  -- No call is left over, as there is none in an expression.
  have hcalls : calls (p.assigned f x e) = [] :=
    Expr.calls_tokens (Macro.ranked_filled (ranked_changed hs) (ranked_operands x he))
  exact expandIn_once hset (expands_callOf (meaning?_eq_some hset hagree) hargs
    (List.cons_ne_nil _ _) hwhole hbody) (settled_of_calls hcalls)

/-- The use of the setter replaces the bits of the field in the variable. -/
theorem execute_setUse {e : Expr} {us : List Token} (hs : f.Sound last)
    (hset : p.setMacro f ∈ macros ds) (hagree : Agree ds (p.setName f))
    (h : p.Accessible f m x) (hn : m x = some (n : Int)) (he : e.Ranked [] 0)
    (hus : Expands (meaning? ds) us e.tokens) (hv : e.value m.numbers = some v) :
    execute ds m (p.setUse f x us) = some (m.assign x (f.bits.replace n v : Nat)) := by
  obtain ⟨t, hread, ht⟩ := read_changed hs h hn he hv
  rw [execute_of_expandIn (expandIn_setUse hs hset hagree he hus), assigned,
    assignment?_eq x hread, Option.bind_some, ht, Option.map_some]

/-- The field is changed to a number, if the name of the setter stands for it. -/
theorem execute_number (hs : f.Sound last) (hset : p.setMacro f ∈ macros ds)
    (h : p.Accessible f m x) (hn : m x = some (n : Int)) (v : Nat) :
    execute ds m (p.setUse f x (Expr.decimal v).tokens) = if Agree ds (p.setName f) then
        some (m.assign x (f.bits.replace n v : Nat))
      else none := by
  have hnumber : (Expr.decimal v).Ranked [] 0 := trivial
  split
  · rename_i hagree
    exact execute_setUse hs hset hagree h hn hnumber (.of_calls rfl) rfl
  · rename_i hagree
    have hsettled : Settled (meaning? ds) (p.setUse f x (Expr.decimal v).tokens) :=
      settled_callOf hagree (ranked_operands x hnumber)
    rw [execute_of_expandIn (expandIn_settled hsettled)]
    -- A call that stays is no assignment.
    rfl

/-- The field is changed to what it is. -/
theorem execute_itself (hs : f.Sound last) (hset : p.setMacro f ∈ macros ds)
    (hget : p.getMacro f ∈ macros ds) (hsetName : Agree ds (p.setName f))
    (hgetName : Agree ds (p.getName f)) (h : p.Accessible f m x) (hn : m x = some (n : Int)) :
    execute ds m (p.setUse f x (p.getUse f x)) = some m := by
  rw [execute_setUse hs hset hsetName h hn (ranked_taken hs x)
      (expands_getUse hs hget hgetName x) (value_taken hs h hn),
    BitSpec.replace_collect hs.proper, Memory.assign_eq_self hn]

/-! ## § The laws -/

/-- A field of a register that is no lone value has both macros, if the device asks for them. -/
theorem accessors_mem_declared (hmacros : p.device.fieldMacros = true)
    (hvalue : p.reg.isValueOnly = false) (hf : f ∈ p.reg.fields) :
    p.getter f ∈ p.declared ∧ p.setter f ∈ p.declared := by
  have hmem : ∀ d ∈ p.fieldMacros, d ∈ p.declared := fun d hd =>
    List.mem_append_left _ (mem_introduction.2 (.inr (.inr ⟨hvalue, .inr (.inr ⟨hmacros, hd⟩)⟩)))
  exact ⟨hmem _ (mem_fieldMacros.2 (.inl ⟨f, hf, rfl⟩)),
    hmem _ (mem_fieldMacros.2 (.inr (.inl ⟨f, hf, rfl⟩)))⟩

/-- **Getters and setters are lenses.** Take a field of an accepted description with macros for its
fields, the macros of its header together, and a variable with a natural number. Once the field is
changed to `v` with the setter, the getter gives as much of `v` as the field has room for; the bits
outside of the field are as they were, and so is what the getter of any field gives that has no bit
in common and can be read from the same variable; after another change the variable is as if that
had been the only one. To change the field to what the getter gives changes nothing. Both macros do
so exactly if the header declares no other macro under their name; otherwise a setter assigns
nothing, and a getter has no value. -/
theorem field_lens {p : Place} {text header : String} {f : Field} (hp : p.Emitted text header)
    (hmacros : p.device.fieldMacros = true) (hvalue : p.reg.isValueOnly = false)
    (hf : f ∈ p.reg.fields) :
    f.bits.width = .ok f.bits.size ∧
    ∃ ds, p.toScope.Prints header ds ∧ p.fieldEnum ∈ ds ∧ p.getter f ∈ ds ∧ p.setter f ∈ ds ∧
      ∀ m x, ∀ n : Nat, p.Accessible f m x → m x = some (n : Int) → ∀ v, ∃ n' : Nat,
        execute ds m (p.setUse f x (Expr.decimal v).tokens)
          = (if Agree ds (p.setName f) then some (m.assign x (n' : Int)) else none) ∧
        evaluateIn ds (m.assign x (n' : Int)) (p.getUse f x)
          = (if Agree ds (p.getName f) then some ((v % capacity f.bits.size : Nat) : Int)
            else none) ∧
        (∀ b, ¬ f.mask.contains b → n'.testBit b = n.testBit b) ∧
        (∀ q ∈ p.toScope.places, q.reg.isValueOnly = false → ∀ g ∈ q.reg.fields, f.Disjoint g →
          q.Accessible g m x →
            evaluateIn ds m (q.getUse g x)
              = (if Agree ds (q.getName g) then some (g.bits.collect n : Int) else none) ∧
            evaluateIn ds (m.assign x (n' : Int)) (q.getUse g x)
              = evaluateIn ds m (q.getUse g x)) ∧
        (∀ w, execute ds (m.assign x (n' : Int)) (p.setUse f x (Expr.decimal w).tokens)
          = execute ds m (p.setUse f x (Expr.decimal w).tokens)) ∧
        (Agree ds (p.setName f) → Agree ds (p.getName f) →
          execute ds m (p.setUse f x (p.getUse f x)) = some m) := by
  have hd := hp.device_sound
  have hr := hp.reg_sound
  have hs := hr.fields f hf
  obtain ⟨hgetter, hsetter⟩ := accessors_mem_declared hmacros hvalue hf
  have hgetLayout := hp.mem_layout hgetter
  have hsetLayout := hp.mem_layout hsetter
  have hget := mem_macros hgetLayout (p.getMacro_eq f)
  have hset := mem_macros hsetLayout (p.setMacro_eq f)
  refine ⟨Register.Sound.width_eq hr hd.dataWidth_pos hd.dataWidth_le hf, p.toScope.layout,
    hp.prints, hp.mem_layout (fieldEnum_mem_declared hvalue), hgetLayout, hsetLayout, ?_⟩
  intro m x n hm hn v
  -- The variable has the value with replaced bits, and the field is accessible there, too.
  have hm' := hm.assign (f.bits.replace n v : Nat)
  have hn' : m.assign x (f.bits.replace n v : Nat) x = some _ := Memory.assign_self
  refine ⟨f.bits.replace n v, execute_number hs hset hm hn v, ?_, ?_, ?_, ?_,
    fun hsetName hgetName => execute_itself hs hset hget hsetName hgetName hm hn⟩
  · rw [evaluateIn_getUse hs hget hm' hn', BitSpec.collect_replace hs.proper]
  · intro b hb
    rw [hs.mask_eq] at hb
    exact BitSpec.testBit_replace_of_not_contains hs.proper hb n v
  · intro q hq hqvalue g hg hdisjoint hgm
    obtain ⟨hscope, hqpage, hqreg⟩ := Scope.mem_places.1 hq
    have hgs := ((hd.pages q.page hqpage).regs q.reg hqreg).fields g hg
    have hqmacros : q.device.fieldMacros = true := by rw [hscope]; exact hmacros
    have hgget : q.getMacro g ∈ macros p.toScope.layout :=
      mem_macros (List.mem_append_right _ (List.mem_flatMap.2
        ⟨q, hq, (accessors_mem_declared hqmacros hqvalue hg).1⟩)) (q.getMacro_eq g)
    have hsame := BitSpec.collect_replace_of_disjoint hs.proper hgs.proper
      (fun b hfb => hgs.mask_eq ▸ hdisjoint b (hs.mask_eq ▸ hfb)) n v
    refine ⟨evaluateIn_getUse hgs hgget hgm hn, ?_⟩
    rw [evaluateIn_getUse hgs hgget (hgm.assign _) Memory.assign_self,
      evaluateIn_getUse hgs hgget hgm hn, hsame]
  · intro w
    rw [execute_number hs hset hm' hn', execute_number hs hset hm hn,
      BitSpec.replace_replace hs.proper, Memory.assign_assign]

namespace Mixer

/-- **text** — a device with macros for its fields, one of listed bits and one of a range. -/
def text : String :=
  "name: Mixer\naddr_width: 8\ndata_width: 8\nfield_macros: true\npages:\n- name: Main\n  regs:\n"
    ++ "  - name: CTRL\n    addr: 0x10\n    fields:\n    - name: MODE\n      bits: \"6,4\"\n"
    ++ "    - name: LEVEL\n      bits: \"3:0\"\n"

/-- **mode** — the field of listed bits. -/
def mode : Field := Sample.field "MODE" (.list [6, 4]) 2

/-- **level** — the field of a range. -/
def level : Field := Sample.field "LEVEL" (.range 3 0) 4

/-- **control** — the only register. -/
def control : Register where
  name := "CTRL"
  addrHi := 0x10
  addrLo := 0x10
  bigOrder := false
  fields := [mode, level]
  fieldIndex := .ofNames ["MODE", "LEVEL"]

/-- **page** — the only page. -/
def page : Page := ⟨"Main", [control], .ofNames ["CTRL"]⟩

/-- **device** — what the text describes. -/
def device : Device where
  name := "Mixer"
  desc := "Mixer"
  regPrefix := ""
  pagePrefix := false
  fieldPrefix := []
  fieldMacros := true
  addrWidth := 8
  dataWidth := 8
  bus := {}
  pages := [page]
  tables := []
  flat := FlatEntry.ofPages false [page]
  pageIndex := .ofNames ["Main"]
  flatIndex := .ofNames ["CTRL"]

/-- **scope** — the device with its header. -/
def scope : Scope := ⟨device, ⟨"dev"⟩⟩

/-- **ctrl** — the register where it stands. -/
def ctrl : Place := ⟨scope, page, control⟩

/-- **header** — the header of the device. -/
def header : String :=
  "enum dev_regs_t \x7b\n    CTRL = 0x10,\n\x7d;\n"
    ++ "#define MAKE_DEV_REG_WR(a, v) (((a) << 8) | ((v) & 0xff))\n"
    ++ "#define MAKE_DEV_REG_RD(a) (((a) << 8))\n"
    ++ "// Register R16 [0x10] -- CTRL\n\n"
    ++ "enum ctrl_fields_t \x7b\n    MODE_OFF = 0x4,\n    MODE_MSK = 0x50,\n    LEVEL_OFF = 0x0,\n"
    ++ "    LEVEL_MSK = 0xf,\n\x7d;\n"
    ++ "#define GET_DEV_MODE(x) ((((((x) & MODE_MSK) >> 4) & 0x1) << 0) | "
    ++ "(((((x) & MODE_MSK) >> 6) & 0x1) << 1))\n"
    ++ "#define GET_DEV_LEVEL(x) (((x) & LEVEL_MSK) >> LEVEL_OFF)\n"
    ++ "#define SET_DEV_MODE(p, f) (p) = ((p) & ~MODE_MSK) | "
    ++ "((((((f) >> 1) & 0x1) << 6) | ((((f) >> 0) & 0x1) << 4)) & MODE_MSK)\n"
    ++ "#define SET_DEV_LEVEL(p, f) (p) = ((p) & ~LEVEL_MSK) | "
    ++ "(((f) << LEVEL_OFF) & LEVEL_MSK)\n\n"
    ++ "#define MAKE_DEV_CTRL(mode, level) MAKE_DEV_REG_WR(CTRL, \\\n"
    ++ "    ((((((mode) >> 1) & 0x1) << 6) | ((((mode) >> 0) & 0x1) << 4)) & MODE_MSK) |  \\\n"
    ++ "    (((level) << LEVEL_OFF) & LEVEL_MSK))\n"

/-- **memory** — the numbers of the header, and a variable. -/
def memory : Memory := fun name =>
  [("MODE_OFF", 4), ("MODE_MSK", 0x50), ("LEVEL_OFF", 0), ("LEVEL_MSK", 0xf), ("reg", 0x1a5)].lookup
    name

theorem accepted : (Device.ofText text).result = .ok device :=
  Device.ofText_of_chars (Text.ofList_parts (Text.ofList_parts rfl rfl) rfl) (by decide +kernel)

theorem generated : (generate device ⟨"dev"⟩).result = .ok header := by decide +kernel

theorem emitted : ctrl.Emitted text header := ⟨accepted, generated, by decide, by decide⟩

theorem accessible_mode : ctrl.Accessible mode memory "reg" := ⟨by decide, by decide⟩

theorem accessible_level : ctrl.Accessible level memory "reg" := ⟨by decide, by decide⟩

end Mixer

open Mixer in
/-- Listed bits of a variable are changed, and the field below them and the bits above are not. -/
theorem field_lens_mixer :
    ∃ ds, scope.Prints header ds ∧
      execute ds memory (ctrl.setUse mode "reg" (Expr.decimal 6).tokens)
        = some (memory.assign "reg" 0x1e5) ∧
      evaluateIn ds (memory.assign "reg" 0x1e5) (ctrl.getUse mode "reg") = some 2 ∧
      evaluateIn ds (memory.assign "reg" 0x1e5) (ctrl.getUse level "reg") = some 5 ∧
      execute ds memory (ctrl.setUse mode "reg" (ctrl.getUse mode "reg")) = some memory := by
  obtain ⟨-, ds, hprints, -, -, -, hlaws⟩ :=
    field_lens emitted rfl rfl (f := mode) (by decide)
  have hagree : (Agree ds (ctrl.setName mode) ∧ Agree ds (ctrl.getName mode)) ∧
      Agree ds (ctrl.getName level) := by
    rw [hprints.eq_layout]
    decide +kernel
  obtain ⟨⟨hsetName, hgetName⟩, hlevelName⟩ := hagree
  have hnew : (execute ds memory (ctrl.setUse mode "reg" (Expr.decimal 6).tokens)).bind
      (fun m => m "reg") = some 0x1e5 := by
    rw [hprints.eq_layout]
    decide +kernel
  obtain ⟨n', hset, hget, -, hother, -, hitself⟩ :=
    hlaws memory "reg" 0x1a5 accessible_mode rfl 6
  rw [if_pos hsetName] at hset
  rw [hset, Option.bind_some, Memory.assign_self] at hnew
  obtain rfl : n' = 0x1e5 := Int.ofNat.inj (Option.some.inj hnew)
  obtain ⟨hbefore, hafter⟩ :=
    hother ctrl emitted.mem_places rfl level (by decide) (by decide) accessible_level
  rw [if_pos hlevelName] at hbefore
  exact ⟨ds, hprints, hset, hget.trans (if_pos hgetName),
    hafter.trans (hbefore.trans (by decide)), hitself hsetName hgetName⟩

namespace Twins

/-- **text** — a device with macros for its fields, two of which get the same name: the register
`A_B` has a field `C`, and the register `A` a field `B_C`. -/
def text : String :=
  "name: Twins\naddr_width: 8\ndata_width: 8\nfield_prefix: [page, regname]\nfield_macros: true\n"
    ++ "pages:\n- name: Main\n  regs:\n  - name: A_B\n    addr: 0\n    fields:\n    - name: C\n"
    ++ "      bits: \"5,2\"\n  - name: A\n    addr: 1\n    fields:\n    - name: B_C\n"
    ++ "      bits: \"3:0\"\n"

/-- **listed** — the field of listed bits. -/
def listed : Field := Sample.field "C" (.list [5, 2]) 2

/-- **register** — a register of one word with one field. -/
def register (name : String) (addr : Nat) (f : Field) : Register where
  name
  addrHi := addr
  addrLo := addr
  bigOrder := false
  fields := [f]
  fieldIndex := .ofNames [f.name]

/-- **page** — the only page. -/
def page : Page :=
  ⟨"Main", [register "A_B" 0 listed, register "A" 1 (Sample.field "B_C" (.range 3 0) 4)],
    .ofNames ["A_B", "A"]⟩

/-- **device** — what the text describes. -/
def device : Device where
  name := "Twins"
  desc := "Twins"
  regPrefix := ""
  pagePrefix := false
  fieldPrefix := [.page, .register]
  fieldMacros := true
  addrWidth := 8
  dataWidth := 8
  bus := {}
  pages := [page]
  tables := []
  flat := FlatEntry.ofPages false [page]
  pageIndex := .ofNames ["Main"]
  flatIndex := .ofNames ["A_B", "A"]

/-- **scope** — the device with its header. -/
def scope : Scope := ⟨device, ⟨"dev"⟩⟩

/-- **first** — the register with listed bits where it stands. -/
def first : Place := ⟨scope, page, register "A_B" 0 listed⟩

/-- **header** — the header of the device. -/
def header : String :=
  "enum dev_regs_t \x7b\n    A_B = 0x0,\n    A = 0x1,\n\x7d;\n"
    ++ "#define MAKE_DEV_REG_WR(a, v) (((a) << 8) | ((v) & 0xff))\n"
    ++ "#define MAKE_DEV_REG_RD(a) (((a) << 8))\n"
    ++ "// Register R0 [0x0] -- A_B\n\n"
    ++ "enum a_b_fields_t \x7b\n    MAIN_A_B_C_OFF = 0x2,\n    MAIN_A_B_C_MSK = 0x24,\n\x7d;\n"
    ++ "#define GET_DEV_MAIN_A_B_C(x) ((((((x) & MAIN_A_B_C_MSK) >> 2) & 0x1) << 0) | "
    ++ "(((((x) & MAIN_A_B_C_MSK) >> 5) & 0x1) << 1))\n"
    ++ "#define SET_DEV_MAIN_A_B_C(p, f) (p) = ((p) & ~MAIN_A_B_C_MSK) | "
    ++ "((((((f) >> 1) & 0x1) << 5) | ((((f) >> 0) & 0x1) << 2)) & MAIN_A_B_C_MSK)\n\n"
    ++ "#define MAKE_DEV_A_B(c) MAKE_DEV_REG_WR(A_B, \\\n"
    ++ "    ((((((c) >> 1) & 0x1) << 5) | ((((c) >> 0) & 0x1) << 2)) & MAIN_A_B_C_MSK))\n"
    ++ "// Register R1 [0x1] -- A\n\n"
    ++ "enum a_fields_t \x7b\n    MAIN_A_B_C_OFF = 0x0,\n    MAIN_A_B_C_MSK = 0xf,\n\x7d;\n"
    ++ "#define GET_DEV_MAIN_A_B_C(x) (((x) & MAIN_A_B_C_MSK) >> MAIN_A_B_C_OFF)\n"
    ++ "#define SET_DEV_MAIN_A_B_C(p, f) (p) = ((p) & ~MAIN_A_B_C_MSK) | "
    ++ "(((f) << MAIN_A_B_C_OFF) & MAIN_A_B_C_MSK)\n\n"
    ++ "#define MAKE_DEV_A(b_c) MAKE_DEV_REG_WR(A, \\\n"
    ++ "    (((b_c) << MAIN_A_B_C_OFF) & MAIN_A_B_C_MSK))\n"

/-- **memory** — the numbers that the first register has in the header, and a variable. -/
def memory : Memory := fun name =>
  [("MAIN_A_B_C_OFF", 2), ("MAIN_A_B_C_MSK", 0x24), ("reg", 0)].lookup name

theorem accepted : (Device.ofText text).result = .ok device :=
  Device.ofText_of_chars (Text.ofList_parts (Text.ofList_parts (Text.ofList_parts rfl rfl) rfl) rfl)
    (by decide +kernel)

theorem generated : (generate device ⟨"dev"⟩).result = .ok header := by decide +kernel

theorem emitted : first.Emitted text header := ⟨accepted, generated, by decide, by decide⟩

theorem accessors : first.getter listed ∈ first.declared ∧ first.setter listed ∈ first.declared :=
  accessors_mem_declared rfl rfl (by decide)

theorem accessible : first.Accessible listed memory "reg" := ⟨by decide, by decide⟩

end Twins

open Twins in
/-- Two fields can have their macros under the same names. Then neither is read or changed: the
header has two getters and two setters called so, one for listed bits and one for a range. -/
theorem field_lens_fails :
    (Device.ofText text).result = .ok device ∧ ∃ ds, scope.Prints header ds ∧
      first.getter listed ∈ ds ∧ first.setter listed ∈ ds ∧
      first.Accessible listed memory "reg" ∧ memory "reg" = some 0 ∧
      execute ds memory (first.setUse listed "reg" (Expr.decimal 3).tokens) = none ∧
      evaluateIn ds memory (first.getUse listed "reg") = none :=
  ⟨accepted, _, emitted.prints, emitted.mem_layout accessors.1, emitted.mem_layout accessors.2,
    accessible, by decide, by decide +kernel, by decide +kernel⟩

end RegisterMap.Header.Place
