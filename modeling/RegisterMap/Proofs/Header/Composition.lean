import RegisterMap.Proofs.Header.MakeMacro
import RegisterMap.Proofs.Header.WordMacro

/-!
# Composition — word macros on the value of a longer register

A longer register with several fields has a macro for its value and one for each of its words. The
value has the fields at their own bits, but a word macro expects it without the bits below the
lowest field. So the value is shifted before it is split; where no bits lie below the lowest field,
and only there, the macros fit together as they are.

## § What is here

* `Register.overlay` — the values of all fields, by one shift and one mask each;
* `Device.testBit_of_wordSlice` — two values with the same words have the same bits;
* `words_agree_iff` — when the words of a value are those of the value shifted up;
* `longCall`, `evaluate_plain`, `evaluate_moved` — a word macro on the value macro, as it is and
  moved down;
* `wordMacro_of_longMacro` — what the two macros give together.
-/

namespace RegisterMap

/-! ## § Values of all fields -/

namespace Register

variable {dataWidth : Nat} {r : Register}

/-- **overlay** — the values of all fields, each moved up to its lowest bit and cut to its mask. -/
def overlay (r : Register) (values : List Nat) : Nat :=
  unionOf (r.fields.zipWith (fun f v => (v <<< f.lo) &&& f.mask.toNat) values)

/-- Without lists of bits, moving and cutting puts every value to the bits of its field. -/
theorem overlay_eq_combine (hr : r.Sound dataWidth)
    (hranges : ∀ f ∈ r.fields, f.bits.isScattered = false) (values : List Nat) :
    r.overlay values = r.combine values := by
  unfold overlay combine
  rw [← List.map_uncurry_zip_eq_zipWith, ← List.map_uncurry_zip_eq_zipWith]
  refine congrArg unionOf (List.map_congr_left ?_)
  rintro ⟨f, v⟩ hx
  have hf : f ∈ r.fields := (List.of_mem_zip hx).1
  have hsound := hr.fields f hf
  show (v <<< f.bits.lo) &&& f.mask.toNat = f.bits.spread v
  rw [hsound.mask_eq]
  have hproper := hsound.proper
  have hrange := hranges f hf
  cases hbits : f.bits with
  | range hi lo =>
    rw [hbits] at hproper
    exact (BitSpec.spread_range hproper v).symm
  | list ps =>
    rw [hbits] at hrange
    cases hrange

/-- **greatest** — the greatest value of each field. -/
def greatest (r : Register) : List Nat :=
  r.fields.map fun f => lowOnes f.bits.size f.bits.size

/-- With the greatest values, all bits of the fields are set. -/
theorem testBit_combine_greatest (hr : r.Sound dataWidth) {b : Nat}
    (h : r.valueMask.contains b) : (r.combine r.greatest).testBit b := by
  obtain ⟨f, hf, k, hk, hplace⟩ := exists_place_of_contains hr h
  apply (testBit_combine r r.greatest b).2
  have hx : (f, lowOnes f.bits.size f.bits.size) ∈ r.fields.zip r.greatest := by
    have hzip : r.fields.zip r.greatest
        = r.fields.map fun f => (f, lowOnes f.bits.size f.bits.size) := by
      unfold greatest
      nth_rewrite 1 [← List.map_id r.fields]
      exact List.zip_map'
    rw [hzip]
    exact List.mem_map_of_mem hf
  refine ⟨_, hx, k, hk, hplace, ?_⟩
  rw [testBit_lowOnes, decide_eq_true_eq]
  omega

end Register

/-! ## § Words of a value -/

/-- Two values with the same words have the same bits in these words. -/
theorem Device.testBit_of_wordSlice {d : Device} {r : Register} (hwidth : 1 ≤ d.dataWidth)
    {x y : Nat} (h : ∀ u, u < r.wordCount → d.wordSlice r u x = d.wordSlice r u y) {b : Nat}
    (hb : b < d.dataWidth * r.wordCount) : x.testBit b ↔ y.testBit b := by
  obtain ⟨u, hu, hlow, hhigh⟩ := Device.exists_word_of_lt (r := r) hwidth hb
  have hplace : b - d.wordShift r u < d.dataWidth := by omega
  have hbit := congrArg (Nat.testBit · (b - d.wordShift r u)) (h u hu)
  have hiff := Bool.eq_iff_iff.1 hbit
  rw [Device.testBit_wordSlice, Device.testBit_wordSlice, Nat.add_sub_of_le hlow] at hiff
  constructor
  · intro hx
    exact (hiff.1 ⟨hplace, hx⟩).2
  · intro hy
    exact (hiff.2 ⟨hplace, hy⟩).2

namespace Header.Place

variable {p : Place}

/-- The words of a value are those of the value moved up by the lowest bit of all fields only if
there is nothing to move. -/
theorem words_agree_iff (hd : p.device.Sound) (hr : p.reg.Sound p.device.dataWidth) :
    (∀ values, values.length = p.reg.fields.length → ∀ u, u < p.reg.wordCount →
      p.device.wordSlice p.reg u
          ((p.reg.combine values <<< p.reg.valueOffset) &&& p.reg.valueMask.toNat)
        = p.device.wordSlice p.reg u (p.reg.combine values)) ↔ p.reg.valueOffset = 0 := by
  constructor
  · intro h
    -- With the greatest values, the lowest bit of all fields is set before the move but not after.
    have hlow := Register.contains_valueOffset hr
    have hset := Register.testBit_combine_greatest hr hlow
    have hlast := Register.lt_of_contains_valueMask hr hd.dataWidth_pos hlow
    have hwords := h p.reg.greatest (List.length_map _)
    have hmoved := (Device.testBit_of_wordSlice hd.dataWidth_pos hwords hlast).2 hset
    rw [Nat.testBit_and, Nat.testBit_shiftLeft, Nat.sub_self, Bool.and_eq_true,
      Bool.and_eq_true] at hmoved
    have hzero := Register.contains_of_testBit_combine hr hmoved.1.2
    exact Nat.le_zero.1 (Register.valueOffset_le_of_contains hr hzero)
  · intro hzero values hlength u hu
    have hbits : ∀ b, (p.reg.combine values).testBit b → p.reg.valueMask.contains b :=
      fun b => Register.contains_of_testBit_combine hr
    have hrestored := restore_value hr hbits
    rw [hzero, Nat.shiftRight_zero] at hrestored
    rw [hzero, hrestored]

/-! ## § One macro in the other -/

section Composed

variable {ds : List Declaration} {u a : Nat} {values : List Nat} {numbers : String → Option Nat}

/-- **longCall** — the macro for the value of a longer register, with numbers. -/
def longCall (p : Place) (values : List Nat) : List Token := callOf p.longName (numerals values)

/-- **downBy** — what shifts the tokens in front of it to the right. -/
def downBy (n : Nat) : List Token := [.operator .shiftRight, .number (Text.decimal n)]

/-- A call of the value macro gives way to the expression in parentheses. -/
theorem expands_longCall (hr : p.reg.Sound p.device.dataWidth) (hlong : p.longMaker ∈ macros ds)
    (hagree : Agree ds p.longName) (hnodup : p.params.Nodup)
    (hlength : values.length = p.reg.fields.length) :
    Expands (meaning? ds) (p.longCall values) (Expr.paren (p.filled values)).tokens := by
  have hranked : (Expr.paren p.combined).Ranked p.params 0 := .inr (ranked_combined hr)
  exact expands_call hlong hagree hnodup (length_params hlength) (decimals_ne_nil hr hlength)
    hranked (ranked_decimals values)

/-- On the value as it is, a word macro gives the frame of its word in the value moved up. -/
theorem evaluate_plain (hd : p.device.Sound) (hr : p.reg.Sound p.device.dataWidth)
    (hwriter : p.writer ∈ macros ds) (hlong : p.longMaker ∈ macros ds)
    (hsplitter : p.splitter u ∈ macros ds) (hlongName : Agree ds p.longName)
    (hwordName : Agree ds (p.wordName u)) (hnodup : p.params.Nodup)
    (hlength : values.length = p.reg.fields.length) (hnumbers : Declares p.fieldEnum numbers)
    (ha : numbers (p.address ++ wordSuffix u) = some a) :
    evaluate ds numbers (p.wordCall u (p.longCall values)) = if Agree ds p.writeName then
        some (p.device.writeMask?.getD 0 ||| (a <<< p.device.dataWidth)
          ||| p.device.wordSlice p.reg u
            ((p.reg.combine values <<< p.reg.valueOffset) &&& p.reg.valueMask.toNat))
      else none := by
  have hranked : (Expr.paren (p.filled values)).Ranked [] 0 := .inr (ranked_filled hr values)
  exact evaluate_of_wordCall hd hr hwriter hsplitter hwordName hranked
    (expands_longCall hr hlong hlongName hnodup hlength) ha
    (value_filled hr hnodup hnumbers hlength)

/-- On the value moved down by the lowest bit of all fields, it gives the frame of its word. -/
theorem evaluate_moved (hd : p.device.Sound) (hr : p.reg.Sound p.device.dataWidth)
    (hwriter : p.writer ∈ macros ds) (hlong : p.longMaker ∈ macros ds)
    (hsplitter : p.splitter u ∈ macros ds) (hlongName : Agree ds p.longName)
    (hwordName : Agree ds (p.wordName u)) (hnodup : p.params.Nodup)
    (hlength : values.length = p.reg.fields.length) (hnumbers : Declares p.fieldEnum numbers)
    (ha : numbers (p.address ++ wordSuffix u) = some a) :
    evaluate ds numbers (p.wordCall u (p.longCall values ++ downBy p.reg.valueOffset))
      = if Agree ds p.writeName then
        some (p.device.writeMask?.getD 0 ||| (a <<< p.device.dataWidth)
          ||| p.device.wordSlice p.reg u (p.reg.combine values))
      else none := by
  have hranked : (Expr.shiftRight (.paren (p.filled values))
      (.decimal p.reg.valueOffset)).Ranked [] 0 := by
    rw [Expr.Ranked]
    exact ⟨Nat.zero_le _, .inr (ranked_filled hr values), trivial⟩
  have hvalue : (Expr.shiftRight (.paren (p.filled values))
      (.decimal p.reg.valueOffset)).value numbers
        = some (p.reg.combine values >>> p.reg.valueOffset) := by
    have hparen : (Expr.paren (p.filled values)).value numbers = some (p.reg.combine values) :=
      value_filled hr hnodup hnumbers hlength
    rw [Expr.value, hparen, Expr.value, Operator.applyTo_some, Operator.apply]
  have hts : Expands (meaning? ds) (p.longCall values ++ downBy p.reg.valueOffset)
      (Expr.shiftRight (.paren (p.filled values)) (.decimal p.reg.valueOffset)).tokens :=
    (expands_longCall hr hlong hlongName hnodup hlength).append (.of_calls rfl) (by simp [downBy])
  have hbits : ∀ b, (p.reg.combine values).testBit b → p.reg.valueMask.contains b :=
    fun b => Register.contains_of_testBit_combine hr
  rw [evaluate_of_wordCall hd hr hwriter hsplitter hwordName hranked hts ha hvalue,
    restore_value hr hbits]

end Composed

/-! ## § What the two macros give -/

/-- **Word macros split the value macro.** Take the macros of a header together, where nothing else
is declared under the names of those that are called, and where the parameters for the fields
differ. On the value of a longer register, moved down by the lowest bit of all fields, the macro of
a word gives the frame that writes this word of the value. On the value as it is, it gives the word
of the value moved up by as much. The two are the same for all values and all words if and only if
the lowest bit of all fields is bit 0. -/
theorem wordMacro_of_longMacro {text header : String} (hp : p.Emitted text header)
    (hmany : p.reg.wordCount ≠ 1) (hfields : 2 ≤ p.reg.fields.length) :
    ∃ ds, p.toScope.Prints header ds ∧ p.addressEnum ∈ ds ∧ p.fieldEnum ∈ ds ∧
      p.writeMacro ∈ ds ∧ p.longMacro ∈ ds ∧
      (∀ u, u < p.reg.wordCount → p.wordMacro u ∈ ds ∧ ∃ a, p.reg.wordAddress u = .ok a ∧
        (p.address ++ wordSuffix u, .hex a) ∈ p.addressEnum.entries ∧
        ∀ numbers, Declares p.fieldEnum numbers →
          numbers (p.address ++ wordSuffix u) = (Literal.hex a).read →
        Agree ds p.writeName → Agree ds p.longName → Agree ds (p.wordName u) → p.params.Nodup →
        ∀ values, values.length = p.reg.fields.length →
          evaluate ds numbers (p.wordCall u (p.longCall values ++ downBy p.reg.valueOffset))
            = some (p.device.writeMask?.getD 0 ||| (a <<< p.device.dataWidth)
                ||| p.device.wordSlice p.reg u (p.reg.overlay values)) ∧
          evaluate ds numbers (p.wordCall u (p.longCall values))
            = some (p.device.writeMask?.getD 0 ||| (a <<< p.device.dataWidth)
                ||| p.device.wordSlice p.reg u
                  ((p.reg.overlay values <<< p.reg.valueOffset) &&& p.reg.valueMask.toNat))) ∧
      ((∀ values, values.length = p.reg.fields.length → ∀ u, u < p.reg.wordCount →
        p.device.wordSlice p.reg u
            ((p.reg.overlay values <<< p.reg.valueOffset) &&& p.reg.valueMask.toNat)
          = p.device.wordSlice p.reg u (p.reg.overlay values)) ↔ p.reg.valueOffset = 0) := by
  have hd := hp.device_sound
  have hr := hp.reg_sound
  have hwrite := p.writeMacro_mem_layout
  obtain ⟨henum, hlong⟩ := mem_longMacro hmany hfields
  have hranges := hp.constructible.resolve_left hmany
  have hoverlay : p.reg.overlay = p.reg.combine :=
    funext fun values => Register.overlay_eq_combine hr hranges values
  rw [hoverlay]
  refine ⟨p.toScope.layout, hp.prints, p.addressEnum_mem_layout, hp.mem_layout henum, hwrite,
    hp.mem_layout hlong, ?_, words_agree_iff hd hr⟩
  intro u hu
  obtain ⟨a, haddress, hmem, hword⟩ := Register.wordAddress_spec hr hu
  have hentry := mem_addressEnum_word hd hp.page_mem hp.reg_mem hmany hmem hword
  have hsplit := hp.mem_layout (mem_wordMacro hmany hu)
  refine ⟨hsplit, a, haddress, hentry, ?_⟩
  intro numbers hnumbers hat hwriteName hlongName hwordName hnodup values hlength
  have ha : numbers (p.address ++ wordSuffix u) = some a := hat.trans (Literal.read_eq (.hex a))
  have hwriter := mem_macros hwrite p.writer_eq
  have hlongMaker := mem_macros (hp.mem_layout hlong) p.longMaker_eq
  have hsplitter := mem_macros hsplit (p.splitter_eq u)
  constructor
  · rw [evaluate_moved hd hr hwriter hlongMaker hsplitter hlongName hwordName hnodup hlength
      hnumbers ha, if_pos hwriteName]
  · rw [evaluate_plain hd hr hwriter hlongMaker hsplitter hlongName hwordName hnodup hlength
      hnumbers ha, if_pos hwriteName]

open Sample in
/-- The sample register of two words, with both of its words from the values of its fields. -/
theorem wordMacro_of_longMacro_pll :
    ∃ ds, scope.Prints header ds ∧
      evaluate ds numbers
          (pll.wordCall 0 (pll.longCall [0xa, 0xbc] ++ downBy pll.reg.valueOffset))
        = some 0x130ab ∧
      evaluate ds numbers (pll.wordCall 0 (pll.longCall [0xa, 0xbc])) = some 0x130bc := by
  obtain ⟨ds, hprints, -, -, -, -, hwords, -⟩ :=
    wordMacro_of_longMacro emitted_pll (by decide) (by decide)
  obtain ⟨-, a, ha, -, hword⟩ := hwords 0 (by decide)
  obtain rfl : 0x30 = a := by
    have haddress : pll.reg.wordAddress 0 = .ok 0x30 := by decide
    exact Except.ok.inj (haddress.symm.trans ha)
  have hnumbers : numbers (pll.address ++ wordSuffix 0) = (Literal.hex 0x30).read := by
    decide
  have hagree : Agree ds pll.writeName ∧ Agree ds pll.longName ∧ Agree ds (pll.wordName 0) := by
    rw [hprints.eq_layout]
    decide +kernel
  obtain ⟨hmoved, hplain⟩ := hword numbers declares_pll hnumbers hagree.1 hagree.2.1 hagree.2.2
    (by decide) [0xa, 0xbc] rfl
  refine ⟨ds, hprints, ?_⟩
  rw [hmoved, hplain]
  decide

open Sample in
/-- The word macros do not split the value macro as it is: the upper word of the sample register is
written without the bits of its upper field. -/
theorem wordMacro_splits_longMacro_fails :
    pll.Emitted text header ∧ ∃ ds, scope.Prints header ds ∧ Declares pll.fieldEnum numbers ∧
      numbers (pll.address ++ wordSuffix 0) = (Literal.hex 0x30).read ∧
      pll.params = ["hi", "n"] ∧ pll.reg.wordAddress 0 = .ok 0x30 ∧
      evaluate ds numbers (pll.wordCall 0 (pll.longCall [1, 0])) = some 0x13000 ∧
      (pll.device.writeMask?.getD 0 ||| (0x30 <<< pll.device.dataWidth)
        ||| pll.device.wordSlice pll.reg 0 (pll.reg.overlay [1, 0])) = 0x13010 :=
  ⟨emitted_pll, _, emitted_pll.prints, declares_pll, by decide, by decide, by decide,
    by decide +kernel, by decide⟩

end Header.Place

end RegisterMap
