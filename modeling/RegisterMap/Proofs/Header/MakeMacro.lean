import RegisterMap.Proofs.Device.Combine
import RegisterMap.Proofs.Header.Frame
import RegisterMap.Proofs.Header.Setter

/-!
# Construction macros — a register of the values of its fields

A register is constructed of one value for each field. The parameters of its macro stand for the
fields in their order, a setter puts each value to the bits of its field, and all of them together
are the value of the register: in the frame that writes it when it has one word, and by itself when
it has several.

## § What is here

* `value_combined` — the expression for all fields, with any numbers for its parameters;
* `maker`, `longMaker` — the two macros;
* `evaluate_makeCall`, `evaluate_longCall` — what their calls stand for;
* `makeMacro_builds` — both give the values of all fields at their bits, and the frame of a single
  word is the one that the device writes.
-/

namespace RegisterMap

namespace Header.Place

variable {p : Place}

/-! ## § Parameters -/

/-- A name that ends in a capital letter is no parameter. -/
theorem not_mem_params (hr : p.reg.Sound p.device.dataWidth) {text : String} {c : Char}
    (ht : lastChar text = some c) (hc : c.isUpper = true) : text ∉ p.params := by
  intro hmem
  obtain ⟨f, hf, hparam⟩ := List.mem_map.1 hmem
  exact param_ne (hr.fields f hf).identifier ht hc hparam

theorem offsetName_not_mem (hr : p.reg.Sound p.device.dataWidth) (field : String) :
    offsetName field ∉ p.params := not_mem_params hr (lastChar_offsetName field) (by decide)

theorem maskName_not_mem (hr : p.reg.Sound p.device.dataWidth) (field : String) :
    maskName field ∉ p.params := not_mem_params hr (lastChar_maskName field) (by decide)

theorem writeName_not_mem (hr : p.reg.Sound p.device.dataWidth) : p.writeName ∉ p.params :=
  not_mem_params hr (lastChar_writeName _) (by decide)

/-! ## § All fields together -/

theorem ranked_combined (hr : p.reg.Sound p.device.dataWidth) : p.combined.Ranked p.params 0 := by
  -- One setter after another, by induction on the fields.
  have hall : ∀ fs : List Field, (∀ f ∈ fs, f ∈ p.reg.fields) → Expr.RankedAll p.params
      (fs.map fun f => .ownLine (Setter.expr f.bits (p.fieldName f) (.name (param f)))) := by
    intro fs hfs
    induction fs with
    | nil => trivial
    | cons f fs ih =>
      refine ⟨?_, ih fun g hg => hfs g (List.mem_cons_of_mem _ hg)⟩
      have hsound := hr.fields f (hfs f List.mem_cons_self)
      have hname : (Expr.name (param f)).IsName := trivial
      exact Setter.ranked_expr hsound.proper (.inl hname) (offsetName_not_mem hr _)
        (maskName_not_mem hr _) _
  rw [combined, Expr.Ranked]
  refine ⟨Nat.zero_le _, ?_, hall _ fun f hf => hf⟩
  exact fun e => hr.inhabited (List.map_eq_nil_iff.1 e)

/-- The names in the expression for all fields are the parameters and the names of the fields. -/
theorem mem_tokens_combined {text : String} (h : .name text ∈ p.combined.tokens) :
    text ∈ p.params ∨ ∃ f ∈ p.reg.fields,
      text = offsetName (p.fieldName f) ∨ text = maskName (p.fieldName f) := by
  obtain ⟨e, he, hmem⟩ := Setter.mem_tokensAll (by simp) h
  obtain ⟨f, hf, rfl⟩ := List.mem_map.1 he
  rcases Setter.mem_tokens_expr hmem with hparam | hname
  · rw [Expr.tokens, List.mem_singleton] at hparam
    rw [Token.name.inj hparam]
    exact .inl (List.mem_map_of_mem hf)
  · exact .inr ⟨f, hf, hname⟩

/-- The numbers of the names of a field. -/
theorem numbers_field {numbers : String → Option Nat} (h : Declares p.fieldEnum numbers)
    (hr : p.reg.Sound p.device.dataWidth) {f : Field} (hf : f ∈ p.reg.fields) :
    numbers (offsetName (p.fieldName f)) = some f.bits.lo ∧
      numbers (maskName (p.fieldName f)) = some f.bits.mask.toNat := by
  have hentry : ∀ e ∈ p.fieldEntries f, e ∈ p.fieldEnum.entries := fun e he =>
    List.mem_flatMap.2 ⟨f, hf, he⟩
  constructor
  · rw [h _ (hentry _ List.mem_cons_self), Literal.read_eq]
    rfl
  · rw [h _ (hentry _ (List.mem_cons_of_mem _ List.mem_cons_self)), Literal.read_eq,
      ← (hr.fields f hf).mask_eq]
    rfl

/-- With a number for each parameter, the expression for all fields is the numbers at the bits of
their fields. -/
theorem value_combined (hr : p.reg.Sound p.device.dataWidth) {numbers : String → Option Nat}
    {values : List Nat} (hlength : values.length = p.reg.fields.length)
    (hfield : ∀ f ∈ p.reg.fields, numbers (offsetName (p.fieldName f)) = some f.bits.lo ∧
      numbers (maskName (p.fieldName f)) = some f.bits.mask.toNat)
    (hparam : ∀ x ∈ p.reg.fields.zip values, numbers (param x.1) = some x.2) :
    p.combined.value numbers = some (p.reg.combine values) := by
  -- Fields and numbers go together, so the induction is on both lists.
  have hall : ∀ (fs : List Field) (vs : List Nat), vs.length = fs.length →
      (∀ f ∈ fs, f ∈ p.reg.fields) → (∀ x ∈ fs.zip vs, numbers (param x.1) = some x.2) →
      Expr.values numbers (fs.map fun f =>
          .ownLine (Setter.expr f.bits (p.fieldName f) (.name (param f))))
        = some (fs.zipWith (fun f v => f.bits.spread v) vs) := by
    intro fs
    induction fs with
    | nil => exact fun vs _ _ _ => by simp [Expr.values]
    | cons f fs ih =>
      intro vs hvs hfs hxs
      cases vs with
      | nil => simp at hvs
      | cons v vs =>
        have hf := hfs f List.mem_cons_self
        have hsetter : (Setter.expr f.bits (p.fieldName f) (.name (param f))).value numbers
            = some (f.bits.spread v) :=
          Setter.value_expr (hr.fields f hf).proper (hfield f hf).1 (hfield f hf).2
            (hxs (f, v) List.mem_cons_self)
        have hrest := ih vs (Nat.succ.inj hvs) (fun g hg => hfs g (List.mem_cons_of_mem _ hg))
          fun x hx => hxs x (List.mem_cons_of_mem _ hx)
        rw [List.map_cons, Expr.values, Expr.value, hsetter, hrest]
        rfl
  rw [combined, Expr.value, hall _ _ hlength (fun f hf => hf) hparam]
  rfl

/-! ## § Numbers for the parameters -/

/-- **filled** — the expression for all fields with numbers in the places of the parameters. -/
def filled (p : Place) (values : List Nat) : Expr :=
  p.combined.subst (Macro.argument? p.params (values.map Expr.decimal))

theorem ranked_filled (hr : p.reg.Sound p.device.dataWidth) (values : List Nat) :
    (p.filled values).Ranked [] 0 :=
  Macro.ranked_filled (ranked_combined hr) (List.forall_mem_map.2 fun _ _ => trivial)

theorem filled_tokens (hr : p.reg.Sound p.device.dataWidth) (values : List Nat) :
    substitute (Macro.argument? p.params (numerals values)) p.combined.tokens
      = (p.filled values).tokens := Macro.substitute_tokens (ranked_combined hr) _

/-- With a number for each field, the expression is these numbers at the bits of their fields. -/
theorem value_filled (hr : p.reg.Sound p.device.dataWidth) (hnodup : p.params.Nodup)
    {numbers : String → Option Nat} (hnumbers : Declares p.fieldEnum numbers) {values : List Nat}
    (hlength : values.length = p.reg.fields.length) :
    (p.filled values).value numbers = some (p.reg.combine values) := by
  rw [filled, Expr.value_subst]
  -- The names of the fields are no parameters, and each parameter has the number at its place.
  refine value_combined hr hlength (fun f hf => ?_) fun x hx => ?_
  · rw [Macro.argument?_eq_none (offsetName_not_mem hr _),
      Macro.argument?_eq_none (maskName_not_mem hr _)]
    exact numbers_field hnumbers hr hf
  · have hmem : (param x.1, Expr.decimal x.2) ∈ p.params.zip (values.map Expr.decimal) := by
      rw [params, List.zip_map]
      exact List.mem_map_of_mem hx
    rw [Macro.argument?_of_mem_zip hnodup hmem]
    rfl

/-! ## § The two macros -/

/-- **maker** — the macro for a register of one word. -/
def maker (p : Place) : Macro :=
  ⟨p.makeName, p.params, callOf p.writeName [[.name p.address], p.combined.tokens]⟩

theorem maker_eq (p : Place) : Macro.ofDeclaration? p.singleMacro = some p.maker := by
  simp [singleMacro, Macro.ofDeclaration?, maker, Expr.tokens, callOf, separated]

/-- **longName** — the name of the macro for the value of a longer register. -/
def longName (p : Place) : String := p.makeName ++ "_LONG"

/-- **longMaker** — the macro for the value of a longer register. -/
def longMaker (p : Place) : Macro := ⟨p.longName, p.params, (Expr.paren p.combined).tokens⟩

theorem longMaker_eq (p : Place) : Macro.ofDeclaration? p.longMacro = some p.longMaker := rfl

section Uses

variable {values : List Nat}

theorem decimals_ne_nil (hr : p.reg.Sound p.device.dataWidth)
    (hlength : values.length = p.reg.fields.length) : values.map Expr.decimal ≠ [] := by
  intro h
  rw [List.map_eq_nil_iff.1 h] at hlength
  exact hr.inhabited (List.length_eq_zero_iff.1 hlength.symm)

theorem length_params (hlength : values.length = p.reg.fields.length) :
    p.params.length = (values.map Expr.decimal).length := by
  rw [params, List.length_map, List.length_map, hlength]

/-- The macro for one word is not the macro for frames, the body of which calls no other. -/
theorem maker_ne_writer (p : Place) : p.maker ≠ p.writer := by
  intro h
  have hhead : some (Token.name p.writeName) = some .leftParen :=
    congrArg (fun m : Macro => m.body.head?) h
  cases hhead

section Calls

variable {ds : List Declaration}

/-- A call of the macro for one word is a call of the macro for frames. -/
theorem expands_maker (hr : p.reg.Sound p.device.dataWidth) (hmaker : p.maker ∈ macros ds)
    (hagree : Agree ds p.makeName) (hnodup : p.params.Nodup) (haddress : p.address ∉ p.params)
    (hlength : values.length = p.reg.fields.length) :
    Expands (meaning? ds) (callOf p.makeName (numerals values))
      (p.frameCall p.address (p.filled values)) := by
  -- Were the address a parameter, a number would take its place.
  have hname : substitute (Macro.argument? p.params (numerals values)) [.name p.address]
      = [.name p.address] := by
    simp only [substitute, List.flatMap_cons, List.flatMap_nil,
      Macro.argument?_eq_none haddress, Option.getD_none, List.append_nil]
  have hfits : p.params.length = (numerals values).length :=
    (length_params hlength).trans (List.length_map _).symm
  have hbody : p.maker.instantiate (numerals values)
      = some (p.frameCall p.address (p.filled values)) := by
    rw [Macro.instantiate, maker, if_pos ⟨hnodup, hfits⟩,
      Macro.substitute_callOf (Macro.argument?_eq_none (writeName_not_mem hr)), List.map_cons,
      List.map_cons, List.map_nil, hname, filled_tokens hr, Scope.frameCall]
  exact expands_callOf (m := p.maker) (meaning?_eq_some hmaker hagree)
    (.of_calls (calls_separated calls_numerals))
    (mt List.map_eq_nil_iff.1 (decimals_ne_nil hr hlength)) whole_numerals hbody

end Calls

end Uses

/-! ## § What the macros construct -/

/-- A register of one word has no bits beyond its word. -/
theorem combine_and_dataMask (hd : p.device.Sound) (hr : p.reg.Sound p.device.dataWidth)
    (hone : p.reg.wordCount = 1) (values : List Nat) :
    p.reg.combine values &&& p.device.dataMask = p.reg.combine values := by
  have hwidth := hd.dataWidth_le
  apply eq_of_testBit_iff
  intro b
  rw [Nat.testBit_and, Bool.and_eq_true, Device.dataMask, testBit_lowOnes, decide_eq_true_eq]
  constructor
  · exact fun h => h.1
  · intro h
    have hlast := Register.lt_of_contains_valueMask hr hd.dataWidth_pos
      (Register.contains_of_testBit_combine hr h)
    rw [hone] at hlast
    exact ⟨h, by omega⟩

/-- The fields of a register of one word are encoded to the bits that they have in its value. -/
theorem encode_combine (hd : p.device.Sound) (hr : p.reg.Sound p.device.dataWidth)
    (hone : p.reg.wordCount = 1) (values : List Nat) :
    ∃ es, (p.reg.fields.zip values).mapM (fun x => x.1.encode x.2) = .ok es ∧
      unionOf es = p.reg.combine values := by
  refine Register.encode_combine hr (fun f hf => ?_) values
  have hlast : f.bits.hi ≤ p.device.dataWidth * p.reg.wordCount - 1 := (hr.fields f hf).hi_le
  have hwidth := hd.dataWidth_le
  rw [hone] at hlast
  rw [BitSpec.valueBits]
  omega

section Evaluation

variable {ds : List Declaration} {values : List Nat} {numbers : String → Option Nat}

theorem ranked_decimals (values : List Nat) : ∀ e ∈ values.map Expr.decimal, e.Ranked [] 0 :=
  List.forall_mem_map.2 fun _ _ => trivial

/-- A call of the macro for one word stands for the frame with the numbers at the bits of their
fields, if both macros are what their names stand for, and for nothing otherwise. -/
theorem evaluate_makeCall (hd : p.device.Sound) (hr : p.reg.Sound p.device.dataWidth)
    (hwriter : p.writer ∈ macros ds) (hmaker : p.maker ∈ macros ds) (hone : p.reg.wordCount = 1)
    (hnodup : p.params.Nodup) (haddress : p.address ∉ p.params)
    (hnumbers : Declares p.fieldEnum numbers) {a : Nat} (ha : numbers p.address = some a)
    (hlength : values.length = p.reg.fields.length) :
    evaluate ds numbers (callOf p.makeName (numerals values))
      = if Agree ds p.makeName ∧ Agree ds p.writeName then
        some (p.device.writeMask?.getD 0 ||| (a <<< p.device.dataWidth) ||| p.reg.combine values)
      else none := by
  by_cases hagree : Agree ds p.makeName
  · rw [Scope.evaluate_of_frameCall hwriter hmaker p.maker_ne_writer
      (expands_maker hr hmaker hagree hnodup haddress hlength) (ranked_filled hr values) ha
      (value_filled hr hnodup hnumbers hlength), combine_and_dataMask hd hr hone]
    simp only [hagree, true_and]
  · rw [if_neg fun h => hagree h.1]
    exact evaluate_of_call (expandIn_settled (settled_callOf hagree (ranked_decimals values)))
      (mem_calls [] p.makeName _) numbers

/-- A call of the macro for a longer value stands for the numbers at the bits of their fields, if
the macro is what its name stands for, and for nothing otherwise. -/
theorem evaluate_longCall (hr : p.reg.Sound p.device.dataWidth) (hlong : p.longMaker ∈ macros ds)
    (hnodup : p.params.Nodup) (hnumbers : Declares p.fieldEnum numbers)
    (hlength : values.length = p.reg.fields.length) :
    evaluate ds numbers (callOf p.longName (numerals values))
      = if Agree ds p.longName then some (p.reg.combine values) else none := by
  have hranked : (Expr.paren p.combined).Ranked p.params 0 := .inr (ranked_combined hr)
  have hvalue : ((Expr.paren p.combined).subst
      (Macro.argument? p.params (values.map Expr.decimal))).value numbers
        = some (p.reg.combine values) := value_filled hr hnodup hnumbers hlength
  rw [← hvalue]
  exact evaluate_call hlong hnodup (length_params hlength) (decimals_ne_nil hr hlength) hranked
    (ranked_decimals values) numbers

end Evaluation

/-- **Construction macros build the encoded register.** Take the macros of a header together. When
the parameters are all different and none of them is the address, numbers for the fields give: for a
longer register, these numbers at the bits of their fields; and for a register of one word, the
frame with them, which is the one that the device itself writes with the encoded fields. They do so
exactly if the header declares no other macro under the name of the macro, or of that for frames
when it is called; otherwise they have no value. A bit of the value is a bit of a number at its
place in the field; those beyond the width of the field are nowhere. -/
theorem makeMacro_builds {text header : String} (hp : p.Emitted text header)
    (hnodup : p.params.Nodup) (haddress : p.address ∉ p.params) :
    (∀ values b, (p.reg.combine values).testBit b ↔ ∃ x ∈ p.reg.fields.zip values,
      ∃ k, k < x.1.bits.size ∧ x.1.bits.place k = b ∧ x.2.testBit k) ∧
    ∃ ds, p.toScope.Prints header ds ∧ p.addressEnum ∈ ds ∧ p.writeMacro ∈ ds ∧
      (p.reg.wordCount = 1 → p.reg.isSingleValue = false →
        p.fieldEnum ∈ ds ∧ p.singleMacro ∈ ds ∧
        (p.address, .hex p.reg.addrLo) ∈ p.addressEnum.entries ∧
        ∀ numbers, Declares p.fieldEnum numbers →
          numbers p.address = (Literal.hex p.reg.addrLo).read →
        ∀ values, values.length = p.reg.fields.length →
          evaluate ds numbers (callOf p.makeName (numerals values))
            = (if Agree ds p.makeName ∧ Agree ds p.writeName then
                some (p.device.writeMask?.getD 0 ||| (p.reg.addrLo <<< p.device.dataWidth)
                  ||| p.reg.combine values)
              else none) ∧
          (p.reg.addrLo < capacity p.device.addrWidth →
            ∃ es, (p.reg.fields.zip values).mapM (fun x => x.1.encode x.2) = .ok es ∧
              p.device.writeMask?.getD 0 ||| (p.reg.addrLo <<< p.device.dataWidth)
                ||| p.reg.combine values = p.device.writeFrame p.reg.addrLo (unionOf es))) ∧
      (p.reg.wordCount ≠ 1 → 2 ≤ p.reg.fields.length →
        p.fieldEnum ∈ ds ∧ p.longMacro ∈ ds ∧
        ∀ numbers, Declares p.fieldEnum numbers →
        ∀ values, values.length = p.reg.fields.length →
          evaluate ds numbers (callOf p.longName (numerals values))
            = if Agree ds p.longName then some (p.reg.combine values) else none) := by
  have hd := hp.device_sound
  have hr := hp.reg_sound
  have hwrite := p.writeMacro_mem_layout
  refine ⟨p.reg.testBit_combine, p.toScope.layout, hp.prints, p.addressEnum_mem_layout, hwrite,
    ?_, ?_⟩
  · intro hone hlone
    obtain ⟨hfields, hmacro⟩ := mem_singleMacro hone hlone
    have hentry := mem_addressEnum_single hd hp.page_mem hp.reg_mem hone
    refine ⟨hp.mem_layout hfields, hp.mem_layout hmacro, hentry,
      fun numbers hnumbers hat values hlength => ⟨?_, fun haddr => ?_⟩⟩
    · have ha : numbers p.address = some p.reg.addrLo := hat.trans (Literal.read_eq (.hex _))
      exact evaluate_makeCall hd hr (mem_macros hwrite p.writer_eq)
        (mem_macros (hp.mem_layout hmacro) p.maker_eq) hone hnodup haddress hnumbers ha hlength
    · obtain ⟨es, hes, hunion⟩ := encode_combine hd hr hone values
      refine ⟨es, hes, ?_⟩
      rw [hunion, Device.writeFrame_eq hd haddr (combine_and_dataMask hd hr hone values)]
  · intro hmany hseveral
    obtain ⟨hfields, hmacro⟩ := mem_longMacro hmany hseveral
    refine ⟨hp.mem_layout hfields, hp.mem_layout hmacro, fun numbers hnumbers values hlength => ?_⟩
    exact evaluate_longCall hr (mem_macros (hp.mem_layout hmacro) p.longMaker_eq) hnodup hnumbers
      hlength

open Sample in
/-- The sample registers: the frame of one word with listed bits, given a number that is too wide
for its field, and the value of two words. -/
theorem makeMacro_builds_sample :
    ∃ ds, scope.Prints header ds ∧
      evaluate ds numbers (callOf ctrl.makeName (numerals [6, 1])) = some 0x11021 ∧
      evaluate ds numbers (callOf pll.longName (numerals [0xa, 0xbc])) = some 0xabc0 := by
  obtain ⟨-, ds, hprints, -, -, hsingle, -⟩ :=
    makeMacro_builds emitted_ctrl (by decide) (by decide)
  obtain ⟨-, ds', hprints', -, -, -, hlong⟩ :=
    makeMacro_builds emitted_pll (by decide) (by decide)
  obtain rfl : ds = ds' := hprints.eq_layout.trans hprints'.eq_layout.symm
  obtain ⟨-, -, -, hbuilds⟩ := hsingle (by decide) (by decide)
  obtain ⟨-, -, hbuildsLong⟩ := hlong (by decide) (by decide)
  have hagree : (Agree ds ctrl.makeName ∧ Agree ds ctrl.writeName) ∧ Agree ds pll.longName := by
    rw [hprints.eq_layout]
    decide +kernel
  refine ⟨ds, hprints, ?_, ?_⟩
  · rw [(hbuilds numbers declares_ctrl (by decide) [6, 1] rfl).1, if_pos hagree.1]
    decide
  · rw [hbuildsLong numbers declares_pll [0xa, 0xbc] rfl, if_pos hagree.2]
    decide

open Rival in
/-- A register can be called like the macro for frames. Then its own macro has no value, either: the
header declares it with the two parameters of a frame and with the one of its field. -/
theorem makeMacro_builds_fails :
    (Device.ofText text).result = .ok device ∧ ctrl.params.Nodup ∧ ctrl.address ∉ ctrl.params ∧
    ∃ ds, scope.Prints header ds ∧ ctrl.singleMacro ∈ ds ∧ Declares ctrl.fieldEnum numbers ∧
      numbers ctrl.address = (Literal.hex 0).read ∧
      evaluate ds numbers (callOf ctrl.makeName (numerals [1])) = none :=
  ⟨accepted, by decide, by decide, _, emitted_ctrl.prints,
    emitted_ctrl.mem_layout (mem_singleMacro (by decide) (by decide)).2, by decide, by decide,
    by decide +kernel⟩

end Header.Place

end RegisterMap
