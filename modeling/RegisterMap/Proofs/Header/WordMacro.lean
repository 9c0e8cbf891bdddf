import RegisterMap.Proofs.Bus.Write
import RegisterMap.Proofs.Header.Frame

/-!
# Word macros — a register of several words, word by word

A register of several words has one macro for each of them. Its argument is the value of the
register without the bits below its lowest field; the macro shifts that value, in either direction,
until its word is at the bottom, masks it with the bits of the fields in this word, and puts it into
the frame that writes the address of the word.

## § What is here

* `value_slice` — the expression for a word, as a slice of the value;
* `splitter`, `wordCall`, `expands_wordCall` — the macro of a word, its calls, and what they expand
  to;
* `evaluate_of_wordCall`, `evaluate_wordCall` — the frame that comes out of it, for any argument;
* `wordMacro_splits` — given the value of a register, each macro gives the frame of its word, which
  is the word that writing the register puts on the bus.
-/

namespace RegisterMap.Header

namespace Place

/-! ## § Slices -/

variable {p : Place} {u : Nat}

/-- The value is shifted to the right as long as its lowest bit is below the word, and to the left
from there on. -/
theorem slice_cases (p : Place) (u : Nat) :
    (p.reg.valueOffset < p.device.wordShift p.reg u ∧
      p.slice u = .paren (.and (.paren (.shiftRight (.paren (.name "value"))
          (.decimal (p.device.wordShift p.reg u - p.reg.valueOffset))))
        (.hex (p.reg.valueMask.window (p.device.wordShift p.reg u) p.device.dataWidth)))) ∨
    (¬ p.reg.valueOffset < p.device.wordShift p.reg u ∧
      p.slice u = .paren (.and (.paren (.shiftLeft (.paren (.name "value"))
          (.decimal (p.reg.valueOffset - p.device.wordShift p.reg u))))
        (.hex (p.reg.valueMask.window (p.device.wordShift p.reg u) p.device.dataWidth)))) := by
  by_cases h : p.reg.valueOffset < p.device.wordShift p.reg u
  · refine .inl ⟨h, ?_⟩
    rw [Device.wordShift] at h
    simp only [slice, sliceAt, if_pos h]
    rfl
  · refine .inr ⟨h, ?_⟩
    rw [Device.wordShift] at h
    simp only [slice, sliceAt, if_neg h]
    rfl

theorem ranked_slice (p : Place) (u : Nat) : (p.slice u).Ranked ["value"] 0 := by
  rcases slice_cases p u with ⟨-, hslice⟩ | ⟨-, hslice⟩
  · rw [hslice]
    simp [Expr.Ranked, Expr.IsName, Operator.rank]
  · rw [hslice]
    simp [Expr.Ranked, Expr.IsName, Operator.rank]

/-- The only name in the expression for a word is that of the value. -/
theorem mem_tokens_slice {text : String} (h : .name text ∈ (p.slice u).tokens) :
    text = "value" := by
  rcases slice_cases p u with ⟨-, hslice⟩ | ⟨-, hslice⟩
  · simpa [hslice, Expr.tokens] using h
  · simpa [hslice, Expr.tokens] using h

/-- The expression for a word is the slice of its word in the value, once the value is moved back
above the lowest bit of all fields and only the bits of the fields are left. -/
theorem value_slice (hd : p.device.Sound) (hr : p.reg.Sound p.device.dataWidth) (u : Nat)
    (numbers : String → Option Nat) {x : Nat} (hx : numbers "value" = some x) :
    (p.slice u).value numbers = some (p.device.wordSlice p.reg u
      ((x <<< p.reg.valueOffset) &&& p.reg.valueMask.toNat)) := by
  -- Either way, bit `i` of the shifted value is the bit that belongs to bit `i` of the word.
  have hmask : ∀ y, (∀ i, y.testBit i
      = (x <<< p.reg.valueOffset).testBit (p.device.wordShift p.reg u + i)) →
      y &&& p.reg.valueMask.window (p.device.wordShift p.reg u) p.device.dataWidth
        = p.device.wordSlice p.reg u ((x <<< p.reg.valueOffset) &&& p.reg.valueMask.toNat) := by
    intro y hy
    apply eq_of_testBit_iff
    intro i
    rw [Device.testBit_wordSlice, Nat.testBit_and, Nat.testBit_and, Bool.and_eq_true,
      Bool.and_eq_true, Device.testBit_window_word hd hr, hy, ← BitMask.contains_eq_testBit]
    exact and_left_comm
  rcases slice_cases p u with ⟨hlow, hslice⟩ | ⟨hhigh, hslice⟩
  · have hmoved := hmask (x >>> (p.device.wordShift p.reg u - p.reg.valueOffset)) (by
      intro i
      have hindex : p.device.wordShift p.reg u - p.reg.valueOffset + i
          = p.device.wordShift p.reg u + i - p.reg.valueOffset := by omega
      rw [Nat.testBit_shiftRight, Nat.testBit_shiftLeft, hindex]
      simp
      omega)
    rw [hslice]
    simp only [Expr.value, hx, Operator.applyTo_some, Operator.apply, hmoved]
  · have hmoved := hmask (x <<< (p.reg.valueOffset - p.device.wordShift p.reg u)) (by
      intro i
      have hindex : i - (p.reg.valueOffset - p.device.wordShift p.reg u)
          = p.device.wordShift p.reg u + i - p.reg.valueOffset := by omega
      have hreach : p.reg.valueOffset - p.device.wordShift p.reg u ≤ i
          ↔ p.reg.valueOffset ≤ p.device.wordShift p.reg u + i := by omega
      rw [Nat.testBit_shiftLeft, Nat.testBit_shiftLeft, hindex, decide_eq_decide.2 hreach])
    rw [hslice]
    simp only [Expr.value, hx, Operator.applyTo_some, Operator.apply, hmoved]

/-! ## § The macro of a word -/

/-- **wordSuffix** — what the names of word `u` have after the name of the register. -/
def wordSuffix (u : Nat) : String := "_BY" ++ Text.decimal u

/-- **splitter** — the macro of word `u`. -/
def splitter (p : Place) (u : Nat) : Macro :=
  ⟨p.makeName ++ wordSuffix u, ["value"],
    callOf p.writeName [[.name (p.address ++ wordSuffix u)], (p.slice u).tokens]⟩

theorem splitter_eq (p : Place) (u : Nat) :
    Macro.ofDeclaration? (p.wordMacro u) = some (p.splitter u) := by
  simp [wordMacro, Macro.ofDeclaration?, splitter, Expr.tokens, callOf, separated, wordSuffix]

/-- **wordName** — the name of the macro of word `u`. -/
def wordName (p : Place) (u : Nat) : String := p.makeName ++ wordSuffix u

/-- **wordCall** — the macro of word `u` with some tokens. -/
def wordCall (p : Place) (u : Nat) (ts : List Token) : List Token := callOf (p.wordName u) [ts]

/-- The macro of a word is not the macro for frames, which has two parameters. -/
theorem splitter_ne_writer (p : Place) (u : Nat) : p.splitter u ≠ p.writer := by
  intro h
  have hparams : ["value"] = ["a", "v"] := congrArg Macro.params h
  simp at hparams

section Calls

variable {ds : List Declaration} {ts : List Token} {arg : Expr}

/-- A call of the macro of a word is a call of the macro for frames, with the argument in the slice
of the word. -/
theorem expands_wordCall (hsplitter : p.splitter u ∈ macros ds) (hagree : Agree ds (p.wordName u))
    (hts : Expands (meaning? ds) ts arg.tokens) :
    Expands (meaning? ds) (p.wordCall u ts) (p.frameCall (p.address ++ wordSuffix u)
      ((p.slice u).subst (Macro.argument? ["value"] [arg]))) := by
  -- Neither the macro for frames nor the address is the parameter.
  have hwrite : Macro.argument? ["value"] [arg.tokens] p.writeName = none := by
    apply Macro.argument?_eq_none
    rw [List.mem_singleton]
    exact ne_of_lastChar (by rw [lastChar_writeName]; decide)
  have haddress : Macro.argument? ["value"] [arg.tokens] (p.address ++ wordSuffix u) = none := by
    apply Macro.argument?_eq_none
    rw [List.mem_singleton]
    exact word_ne (t := "value") (c := 'e') rfl rfl
  have hslice := Macro.substitute_tokens (ranked_slice p u) [arg]
  have hbody : (p.splitter u).instantiate [arg.tokens]
      = some (p.frameCall (p.address ++ wordSuffix u)
        ((p.slice u).subst (Macro.argument? ["value"] [arg]))) := by
    rw [Macro.instantiate, if_pos ⟨List.pairwise_singleton _ _, rfl⟩, splitter,
      Macro.substitute_callOf hwrite, Scope.frameCall, ← hslice]
    simp only [List.map_cons, List.map_nil, substitute, List.flatMap_cons, List.flatMap_nil,
      haddress, Option.getD_none, List.append_nil]
  have hargs : Expands (meaning? ds) (separated [ts]) (separated [arg.tokens]) := hts
  exact expands_callOf (m := p.splitter u) (meaning?_eq_some hsplitter hagree) hargs
    (List.cons_ne_nil _ _) (List.forall_mem_singleton.2 arg.whole_tokens) hbody

variable {numbers : String → Option Nat} {a x : Nat}

/-- It stands for the frame of the word, if the macro for frames is what its name stands for. -/
theorem evaluate_of_wordCall (hd : p.device.Sound) (hr : p.reg.Sound p.device.dataWidth)
    (hwriter : p.writer ∈ macros ds) (hsplitter : p.splitter u ∈ macros ds)
    (hagree : Agree ds (p.wordName u)) (harg : arg.Ranked [] 0)
    (hts : Expands (meaning? ds) ts arg.tokens)
    (ha : numbers (p.address ++ wordSuffix u) = some a) (hx : arg.value numbers = some x) :
    evaluate ds numbers (p.wordCall u ts) = if Agree ds p.writeName then
        some (p.device.writeMask?.getD 0 ||| (a <<< p.device.dataWidth)
          ||| p.device.wordSlice p.reg u ((x <<< p.reg.valueOffset) &&& p.reg.valueMask.toNat))
      else none := by
  have hword : ((p.slice u).subst (Macro.argument? ["value"] [arg])).Ranked [] 0 :=
    Macro.ranked_filled (ranked_slice p u) (List.forall_mem_singleton.2 harg)
  -- The value of the slice, where the parameter has the number of the argument.
  have hvalue := value_slice hd hr u (fun text =>
    ((Macro.argument? ["value"] [arg] text).map (Expr.value numbers)).getD (numbers text)) hx
  rw [← Expr.value_subst] at hvalue
  rw [Scope.evaluate_of_frameCall hwriter hsplitter (p.splitter_ne_writer u)
    (expands_wordCall hsplitter hagree hts) hword ha hvalue, Device.wordSlice_and_dataMask hd]

/-- On an expression, a call of the macro of a word stands for the frame of the word, if both macros
are what their names stand for, and for nothing otherwise. -/
theorem evaluate_wordCall (hd : p.device.Sound) (hr : p.reg.Sound p.device.dataWidth)
    (hwriter : p.writer ∈ macros ds) (hsplitter : p.splitter u ∈ macros ds)
    (harg : arg.Ranked [] 0) (ha : numbers (p.address ++ wordSuffix u) = some a)
    (hx : arg.value numbers = some x) :
    evaluate ds numbers (p.wordCall u arg.tokens)
      = if Agree ds (p.wordName u) ∧ Agree ds p.writeName then
        some (p.device.writeMask?.getD 0 ||| (a <<< p.device.dataWidth)
          ||| p.device.wordSlice p.reg u ((x <<< p.reg.valueOffset) &&& p.reg.valueMask.toNat))
      else none := by
  by_cases hagree : Agree ds (p.wordName u)
  · rw [evaluate_of_wordCall hd hr hwriter hsplitter hagree harg
      (.of_calls (Expr.calls_tokens harg)) ha hx]
    simp only [hagree, true_and]
  · have hargs : ∀ e ∈ [arg], e.Ranked [] 0 := List.forall_mem_singleton.2 harg
    rw [if_neg fun h => hagree h.1]
    exact evaluate_of_call (expandIn_settled (settled_callOf hagree hargs))
      (mem_calls [] (p.wordName u) _) numbers

end Calls

/-! ## § The frames of all words -/

/-- A value with no bits outside of the register is its own part above the lowest field. -/
theorem restore_value {r : Nat} (hr : p.reg.Sound p.device.dataWidth)
    (hbits : ∀ b, r.testBit b → p.reg.valueMask.contains b) :
    ((r >>> p.reg.valueOffset) <<< p.reg.valueOffset) &&& p.reg.valueMask.toNat = r := by
  apply eq_of_testBit_iff
  intro b
  rw [Nat.testBit_and, Nat.testBit_shiftLeft, Nat.testBit_shiftRight,
    ← BitMask.contains_eq_testBit]
  simp only [Bool.and_eq_true, decide_eq_true_eq]
  constructor
  · rintro ⟨⟨hlow, hbit⟩, -⟩
    rwa [Nat.add_sub_of_le hlow] at hbit
  · intro hbit
    have hlow : p.reg.valueOffset ≤ b := Register.valueOffset_le_of_contains hr (hbits b hbit)
    refine ⟨⟨hlow, ?_⟩, hbits b hbit⟩
    rwa [Nat.add_sub_of_le hlow]

/-- **Word macros split a register.** Take the macros of a header together. For every value whose
bits are bits of the register, the macro of word `u`, called with the value above the lowest field,
gives the frame that writes word `u` of the value to the address of that word, exactly if the header
declares no other macro under its name or that of the macro for frames; otherwise it has no value.
If the value of the register has 128 bits, its word is the one that writing the register puts at
that address of a bus. -/
theorem wordMacro_splits {text header : String} (hp : p.Emitted text header)
    (hmany : p.reg.wordCount ≠ 1) (hu : u < p.reg.wordCount) :
    ∃ ds a, p.toScope.Prints header ds ∧ p.addressEnum ∈ ds ∧ p.writeMacro ∈ ds ∧
      p.wordMacro u ∈ ds ∧ p.reg.wordAddress u = .ok a ∧
      (p.address ++ wordSuffix u, .hex a) ∈ p.addressEnum.entries ∧
      ∀ numbers, numbers (p.address ++ wordSuffix u) = (Literal.hex a).read →
      ∀ r : Nat, (∀ b, r.testBit b → p.reg.valueMask.contains b) →
        evaluate ds numbers (p.wordCall u (Expr.decimal (r >>> p.reg.valueOffset)).tokens)
          = (if Agree ds (p.wordName u) ∧ Agree ds p.writeName then
              some (p.device.writeMask?.getD 0 ||| (a <<< p.device.dataWidth)
                ||| p.device.wordSlice p.reg u r)
            else none) ∧
        (r < capacity 128 → ∀ bus : Bus, (∀ addr ∈ p.reg.addresses, bus.isLocked addr = false) →
          (p.device.writeRegister p.reg r bus).1 = .ok () ∧
          (p.device.writeRegister p.reg r bus).2.word? a
            = some (p.device.wordSlice p.reg u r)) := by
  have hd := hp.device_sound
  have hr := hp.reg_sound
  have hwrite := p.writeMacro_mem_layout
  have hsplit := hp.mem_layout (mem_wordMacro hmany hu)
  obtain ⟨a, haddress, hmem, hword⟩ := Register.wordAddress_spec hr hu
  have hentry := mem_addressEnum_word hd hp.page_mem hp.reg_mem hmany hmem hword
  refine ⟨p.toScope.layout, a, hp.prints, p.addressEnum_mem_layout, hwrite, hsplit, haddress,
    hentry, ?_⟩
  intro numbers hnumbers r hbits
  constructor
  · have ha : numbers (p.address ++ wordSuffix u) = some a :=
      hnumbers.trans (Literal.read_eq (.hex a))
    have hranked : (Expr.decimal (r >>> p.reg.valueOffset)).Ranked [] 0 := trivial
    rw [evaluate_wordCall hd hr (mem_macros hwrite p.writer_eq)
      (mem_macros hsplit (p.splitter_eq u)) hranked ha rfl, restore_value hr hbits]
  · intro hvalue bus hfree
    obtain ⟨hok, hwords⟩ := Device.writeRegister_spec p.device p.reg r hfree
    refine ⟨hok, ?_⟩
    rw [hwords, if_pos hmem, Device.wordAt_eq hd hvalue hword]

open Sample in
/-- The lower word of the sample register, the lowest bits of which are free. -/
theorem wordMacro_splits_pll :
    ∃ ds, scope.Prints header ds ∧ evaluate ds numbers
        (pll.wordCall 1 (Expr.decimal (0xabc0 >>> pll.reg.valueOffset)).tokens) = some 0x131c0 := by
  obtain ⟨ds, a, hprints, -, -, -, ha, -, hsplits⟩ :=
    wordMacro_splits (u := 1) emitted_pll (by decide) (by decide)
  obtain rfl : 0x31 = a := by
    have haddress : pll.reg.wordAddress 1 = .ok 0x31 := by decide
    exact Except.ok.inj (haddress.symm.trans ha)
  have hnumbers : numbers (pll.address ++ wordSuffix 1) = (Literal.hex 0x31).read := by
    decide
  have hagree : Agree ds (pll.wordName 1) ∧ Agree ds pll.writeName := by
    rw [hprints.eq_layout]
    decide +kernel
  refine ⟨ds, hprints, ?_⟩
  rw [(hsplits numbers hnumbers 0xabc0 loop_holds).1, if_pos hagree]
  decide

open Rival in
/-- A register can be called like the macro for frames. Then no word of a longer register has a
frame: the header declares the macro that its macros call with two parameters and with one. -/
theorem wordMacro_splits_fails :
    (Device.ofText text).result = .ok device ∧ (∀ b, (0xabc0 : Nat).testBit b →
      pll.reg.valueMask.contains b) ∧
    ∃ ds, scope.Prints header ds ∧ pll.wordMacro 1 ∈ ds ∧
      numbers (pll.address ++ wordSuffix 1) = (Literal.hex 0x31).read ∧
      evaluate ds numbers (pll.wordCall 1 (Expr.decimal (0xabc0 >>> pll.reg.valueOffset)).tokens)
        = none :=
  ⟨accepted, Sample.loop_holds, _, emitted_pll.prints,
    emitted_pll.mem_layout (mem_wordMacro (by decide) (by decide)), by decide, by decide +kernel⟩

end Place

end RegisterMap.Header
