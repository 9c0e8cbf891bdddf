import RegisterMap.Proofs.Header.Declared
import RegisterMap.Proofs.Header.Expansion

/-!
# Frames of a header — the macro that writes

Every macro that constructs a register ends in the one macro for frames that write. Here is what
that macro stands for: the bits that all frames have, the address above the bits of a word, and the
word cut to its bits. Its calls stand for that as long as the header declares nothing else under its
name; otherwise they stand for nothing.

## § What is here

* `Device.Framed`, `writeFrame_eq_iff`, `readFrame_eq_iff` — the frames of the device itself, and
  when they have whole addresses;
* `value_frameBody` — the bits of all frames together with some terms;
* `writer`, `value_writeBody` — the macro for frames that write, and its body as a number;
* `frameCall` — a call of it on the name of an address and a word;
* `evaluate_frameCall`, `evaluate_of_frameCall` — what stands for the frame of a word.
-/

namespace RegisterMap

/-! ## § Frames of the device -/

namespace Device

variable {d : Device}

/-- **Framed** — the bits of an address beyond its width are set in all frames anyway. -/
def Framed (d : Device) (mask : Option Nat) (addr : Nat) : Prop :=
  ∀ b, d.addrWidth ≤ b → addr.testBit b → (mask.getD 0).testBit (d.dataWidth + b)

/-- An address of the bus has no such bits. -/
theorem framed_of_lt {addr : Nat} (mask : Option Nat) (haddr : addr < capacity d.addrWidth) :
    d.Framed mask addr := by
  intro b hb hbit
  rw [testBit_of_lt_capacity haddr hb] at hbit
  cases hbit

/-- A frame drops the bits of an address beyond its width, which changes nothing exactly when they
are set in all frames. -/
theorem addressBits_eq_iff (hd : d.Sound) (mask : Option Nat) (addr : Nat) {word : Nat}
    (hword : ∀ b, word.testBit (d.dataWidth + b) = false) :
    mask.getD 0 ||| (addr <<< d.dataWidth) ||| word = d.addressBits addr ||| word ||| mask.getD 0
      ↔ d.Framed mask addr := by
  have hwidth := hd.addrWidth_le
  have hkept : ∀ b, (addr &&& lowOnes 128 d.addrWidth).testBit b
      ↔ addr.testBit b ∧ b < d.addrWidth := by
    intro b
    rw [Nat.testBit_and, Bool.and_eq_true, testBit_lowOnes, decide_eq_true_eq]
    exact and_congr_right fun _ => by omega
  refine ⟨fun h b hb hbit => ?_, fun h => ?_⟩
  · have hset : (d.addressBits addr ||| word ||| mask.getD 0).testBit (d.dataWidth + b) := by
      simp [← h, Nat.testBit_shiftLeft, hbit]
    simp only [addressBits, Nat.testBit_or, Nat.testBit_shiftLeft, hword, Bool.or_eq_true,
      Bool.and_eq_true, Nat.add_sub_cancel_left, hkept] at hset
    rcases hset with (⟨-, -, hlow⟩ | hword') | hmask
    · omega
    · cases hword'
    · exact hmask
  · apply eq_of_testBit_iff
    intro i
    simp only [addressBits, Nat.testBit_or, Nat.testBit_shiftLeft, Bool.or_eq_true,
      Bool.and_eq_true, decide_eq_true_eq, hkept]
    refine ⟨?_, ?_⟩
    · intro hbit
      rcases hbit with (hmask | ⟨hplace, haddr⟩) | hword'
      · exact .inr hmask
      · by_cases hlow : i - d.dataWidth < d.addrWidth
        · exact .inl (.inl ⟨hplace, haddr, hlow⟩)
        · have hset := h (i - d.dataWidth) (Nat.not_lt.1 hlow) haddr
          rw [Nat.add_sub_of_le hplace] at hset
          exact .inr hset
      · exact .inl (.inr hword')
    · intro hbit
      rcases hbit with (⟨hplace, haddr, -⟩ | hword') | hmask
      · exact .inl (.inr ⟨hplace, haddr⟩)
      · exact .inr hword'
      · exact .inl (.inl hmask)

/-- A word of the bus is below the address. -/
theorem testBit_and_dataMask (d : Device) (word b : Nat) :
    (word &&& d.dataMask).testBit (d.dataWidth + b) = false := by
  simp [dataMask, testBit_lowOnes]

theorem writeFrame_eq_iff (hd : d.Sound) (addr word : Nat) :
    d.writeMask?.getD 0 ||| (addr <<< d.dataWidth) ||| (word &&& d.dataMask)
      = d.writeFrame addr word ↔ d.Framed d.writeMask? addr :=
  addressBits_eq_iff hd d.writeMask? addr (d.testBit_and_dataMask word)

theorem readFrame_eq_iff (hd : d.Sound) (addr : Nat) :
    d.readMask?.getD 0 ||| (addr <<< d.dataWidth) = d.readFrame addr
      ↔ d.Framed d.readMask? addr := by
  have hplain := addressBits_eq_iff hd d.readMask? addr fun _ => Nat.zero_testBit _
  rw [Nat.or_zero, Nat.or_zero] at hplain
  exact hplain

/-- Nothing is cut off from an address of the bus and a word of the bus in a frame. -/
theorem writeFrame_eq (hd : d.Sound) {addr word : Nat} (haddr : addr < capacity d.addrWidth)
    (hword : word &&& d.dataMask = word) :
    d.writeFrame addr word = d.writeMask?.getD 0 ||| (addr <<< d.dataWidth) ||| word := by
  have hframe := (writeFrame_eq_iff hd addr word).2 (framed_of_lt _ haddr)
  rw [← hframe, hword]

end Device

namespace Header

/-! ## § Bodies -/

section Body

variable {terms : List Expr}

/-- **frameBody** — the bits that all frames have, and some terms. -/
def frameBody (mask : Option Nat) (terms : List Expr) : Expr :=
  .paren (.or (Scope.maskTerms mask ++ terms))

theorem ranked_frameBody {params : List String} (mask : Option Nat) (hne : terms ≠ [])
    (hterms : Expr.RankedAll params terms) : (frameBody mask terms).Ranked params 0 := by
  have hall : Expr.RankedAll params (Scope.maskTerms mask ++ terms) := by
    cases mask with
    | none => exact hterms
    | some m => exact ⟨trivial, hterms⟩
  rw [frameBody, Expr.Ranked, Expr.Ranked]
  exact .inr ⟨Nat.zero_le _, by simp [hne], hall⟩

/-- The terms are added to the bits that all frames have. -/
theorem value_frameBody (mask : Option Nat) {numbers : String → Option Nat} {ns : List Nat}
    (hterms : Expr.values numbers terms = some ns) :
    (frameBody mask terms).value numbers = some (ns.foldl (· ||| ·) (mask.getD 0)) := by
  rw [frameBody, Expr.value, Expr.value]
  -- Without bits of all frames the expression has one term less.
  cases mask with
  | none => exact congrArg (Option.map unionOf) hterms
  | some m =>
    show (((Expr.hex m).value numbers).bind fun n =>
      (Expr.values numbers terms).map (n :: ·)).map unionOf = _
    rw [hterms]
    simp [Expr.value, unionOf]

end Body

namespace Scope

theorem value_addressTerm (s : Scope) {numbers : String → Option Nat} {addr : Nat}
    (ha : numbers "a" = some addr) :
    s.addressTerm.value numbers = some (addr <<< s.device.dataWidth) := by
  simp only [addressTerm, Expr.value, ha, Operator.applyTo_some, Operator.apply]

/-- **writeBody** — the body of the macro for frames that write. -/
def writeBody (s : Scope) : Expr :=
  .paren (.or (maskTerms s.device.writeMask? ++
    [s.addressTerm, .paren (.and (.paren (.name "v")) (.hex s.device.dataMask))]))

/-- **writer** — the macro for frames that write. -/
def writer (s : Scope) : Macro := ⟨s.writeName, ["a", "v"], s.writeBody.tokens⟩

theorem writer_eq (s : Scope) : Macro.ofDeclaration? s.writeMacro = some s.writer := rfl

theorem ranked_writeBody (s : Scope) : s.writeBody.Ranked ["a", "v"] 0 := by
  apply ranked_frameBody s.device.writeMask? (by simp)
  simp [addressTerm, Expr.RankedAll, Expr.Ranked, Expr.IsName, Operator.rank]

/-- The body is a frame: the bits of all frames, the address above a word, and the word. -/
theorem value_writeBody (s : Scope) {numbers : String → Option Nat} {addr word : Nat}
    (ha : numbers "a" = some addr) (hv : numbers "v" = some word) :
    s.writeBody.value numbers
      = some (s.device.writeMask?.getD 0 ||| (addr <<< s.device.dataWidth)
          ||| (word &&& s.device.dataMask)) := by
  have hword : (Expr.paren (.and (.paren (.name "v")) (.hex s.device.dataMask))).value numbers
      = some (word &&& s.device.dataMask) := by
    simp only [Expr.value, hv, Operator.applyTo_some, Operator.apply]
  have hterms : Expr.values numbers
      [s.addressTerm, .paren (.and (.paren (.name "v")) (.hex s.device.dataMask))]
      = some [addr <<< s.device.dataWidth, word &&& s.device.dataMask] := by
    rw [Expr.values, s.value_addressTerm ha, Expr.values, hword]
    rfl
  exact value_frameBody s.device.writeMask? hterms

/-- **written** — the body with an address and a word in it. -/
def written (s : Scope) (addr word : Expr) : Expr :=
  s.writeBody.subst (Macro.argument? ["a", "v"] [addr, word])

/-- The value of a frame with an address and a word in it. -/
theorem value_written (s : Scope) (addr word : Expr) {numbers : String → Option Nat} {a v : Nat}
    (ha : addr.value numbers = some a) (hv : word.value numbers = some v) :
    (s.written addr word).value numbers
      = some (s.device.writeMask?.getD 0 ||| (a <<< s.device.dataWidth)
          ||| (v &&& s.device.dataMask)) := by
  rw [written, Expr.value_subst]
  exact s.value_writeBody ha hv

/-! ## § Calls of the macro for frames -/

/-- **frameCall** — the macro for frames with the name of an address and a word. -/
def frameCall (s : Scope) (address : String) (word : Expr) : List Token :=
  callOf s.writeName [[.name address], word.tokens]

section Calls

variable {s : Scope} {ds : List Declaration} {address : String} {word : Expr}
  {numbers : String → Option Nat} {a v : Nat}

/-- A call of the macro for frames stands for the frame of its word, if its name stands for the
macro. -/
theorem evaluate_frameCall (hwriter : s.writer ∈ macros ds) (hword : word.Ranked [] 0)
    (ha : numbers address = some a) (hv : word.value numbers = some v) :
    evaluate ds numbers (s.frameCall address word) = if Agree ds s.writeName then
        some (s.device.writeMask?.getD 0 ||| (a <<< s.device.dataWidth)
          ||| (v &&& s.device.dataMask))
      else none := by
  rw [← s.value_written (.name address) word ha hv]
  exact evaluate_call hwriter (by decide) rfl (List.cons_ne_nil _ _) s.ranked_writeBody
    (ranked_operands address hword) numbers

/-- So does a call of another macro that gives way to such a call. -/
theorem evaluate_of_frameCall {m : Macro} (hwriter : s.writer ∈ macros ds) (hm : m ∈ macros ds)
    (hne : m ≠ s.writer) {ts : List Token}
    (hts : Expands (meaning? ds) ts (s.frameCall address word)) (hword : word.Ranked [] 0)
    (ha : numbers address = some a) (hv : word.value numbers = some v) :
    evaluate ds numbers ts = if Agree ds s.writeName then
        some (s.device.writeMask?.getD 0 ||| (a <<< s.device.dataWidth)
          ||| (v &&& s.device.dataMask))
      else none := by
  have hoperands := ranked_operands address hword
  split
  · rename_i hagree
    have hframe : Expands (meaning? ds) (s.frameCall address word)
        (s.written (.name address) word).tokens :=
      expands_call hwriter hagree (by decide) rfl (List.cons_ne_nil _ _) s.ranked_writeBody
        hoperands
    have hranked : (s.written (.name address) word).Ranked [] 0 :=
      Macro.ranked_filled s.ranked_writeBody hoperands
    have hexpand := expandIn_twice hm hwriter hne hts hframe
      (settled_of_calls (Expr.calls_tokens hranked))
    rw [evaluate_of_expandIn hexpand, Expr.value_read hranked]
    exact s.value_written (.name address) word ha hv
  · rename_i hagree
    exact evaluate_of_call (expandIn_once hm hts (settled_callOf hagree hoperands))
      (mem_calls [] s.writeName _) numbers

end Calls

end Scope

end Header

end RegisterMap
