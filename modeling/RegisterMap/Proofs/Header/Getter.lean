import RegisterMap.Proofs.Bits.Hex
import RegisterMap.Proofs.Device.Limits
import RegisterMap.Proofs.Header.Frame
import RegisterMap.Proofs.Header.Setter

/-!
# Getters — the expression that takes the value of a field

A header takes the value of a range with one mask and one shift, and the value of a list bit by bit,
the last position first. Both kinds give the same: the bits at the places of the field, for values
of any size. Together with the setter this is the codec once more, in the language of the header;
where a register value has room for a field, both give what the codec gives.

## § What is here

* `Getter.ranked_expr` — how a getter is read;
* `Getter.value_expr` — a getter collects the bits of the field;
* `evaluate_tokens` — the value of an expression by its tokens;
* `Place.field_expressions` — getter and setter of every accepted field, by the numbers that the
  header declares for it.
-/

namespace RegisterMap.Header

namespace Getter

variable {bits : BitSpec} {field : String} {x : Expr}

/-! ## § Reading -/

section Reading

variable {params : List String}

theorem ranked_bitTerm (hx : x.IsName ∨ x.Ranked params 0) (hmask : maskName field ∉ params)
    (position place rank : Nat) : (bitTerm field x position place).Ranked params rank := by
  simp [bitTerm, Expr.Ranked, Expr.IsName, Operator.rank]
  exact ⟨hx, hmask⟩

theorem rankedAll_mapIdx {f : Nat → Nat → Expr}
    (h : ∀ i p, (f i p).Ranked params (Operator.or.rank + 1)) (ps : List Nat) :
    Expr.RankedAll params (ps.mapIdx f) := by
  induction ps generalizing f with
  | nil => trivial
  | cons p ps ih =>
    rw [List.mapIdx_cons]
    exact ⟨h 0 p, ih fun i => h (i + 1)⟩

/-- A getter can stand anywhere. -/
theorem ranked_expr (hs : bits.Proper) (hx : x.IsName ∨ x.Ranked params 0)
    (hoffset : offsetName field ∉ params) (hmask : maskName field ∉ params) (rank : Nat) :
    (expr bits field x).Ranked params rank := by
  cases bits with
  | range hi lo =>
    simp [expr, Expr.Ranked, Expr.IsName, Operator.rank]
    exact ⟨⟨hx, hmask⟩, hoffset⟩
  | list ps =>
    have hne : bitTerms field x ps ≠ [] := by
      intro hnil
      have hlen := hs.1
      simp [bitTerms] at hnil
      simp [hnil] at hlen
    have hall : Expr.RankedAll params (bitTerms field x ps) :=
      rankedAll_mapIdx (fun i p => ranked_bitTerm hx hmask p i _) ps.reverse
    exact .inr ⟨Nat.zero_le _, hne, hall⟩

end Reading

/-! ## § Values -/

/-- The bits of a value at listed positions, the last one first, have their places from bit 0 on. -/
theorem testBit_unionOf_taken (m : Nat) (ps : List Nat) (k : Nat) :
    (unionOf (ps.reverse.mapIdx fun i p => ((m >>> p) &&& 1) <<< i)).testBit k
      ↔ k < ps.length ∧ m.testBit ((BitSpec.list ps).place k) := by
  -- Item `i` of the reversed list is the place of bit `i`.
  have hplace : ∀ (i : Nat) (hi : i < ps.reverse.length),
      ps.reverse[i] = (BitSpec.list ps).place i := by
    intro i hi
    rw [List.length_reverse] at hi
    have hlast : ps.length - 1 - i < ps.length := by omega
    rw [List.getElem_reverse, BitSpec.place, List.getD_eq_getElem?_getD,
      List.getElem?_eq_getElem hlast, Option.getD_some]
  rw [testBit_unionOf]
  constructor
  · rintro ⟨n, hn, hbit⟩
    obtain ⟨i, hi, rfl⟩ := List.mem_mapIdx.1 hn
    obtain ⟨rfl, hm⟩ := (BitSpec.testBit_moved _ _ _ _).1 hbit
    rw [hplace] at hm
    exact ⟨List.length_reverse ▸ hi, hm⟩
  · rintro ⟨hk, hm⟩
    have hi : k < ps.reverse.length := List.length_reverse.symm ▸ hk
    refine ⟨_, List.mem_mapIdx.2 ⟨k, hi, rfl⟩, (BitSpec.testBit_moved _ _ _ _).2 ⟨rfl, ?_⟩⟩
    rwa [hplace]

section Values

variable {numbers : String → Option Nat} {n : Nat}

theorem values_mapIdx {f : Nat → Nat → Expr} {g : Nat → Nat → Nat}
    (h : ∀ i p, (f i p).value numbers = some (g i p)) (ps : List Nat) :
    Expr.values numbers (ps.mapIdx f) = some (ps.mapIdx g) := by
  induction ps generalizing f g with
  | nil => rfl
  | cons p ps ih =>
    rw [List.mapIdx_cons, List.mapIdx_cons, Expr.values, h 0 p, ih fun i => h (i + 1)]
    rfl

/-- A getter collects the bits of the field and drops all other bits. -/
theorem value_expr (hs : bits.Proper) (hoffset : numbers (offsetName field) = some bits.lo)
    (hmask : numbers (maskName field) = some bits.mask.toNat) (hx : x.value numbers = some n) :
    (expr bits field x).value numbers = some (bits.collect n) := by
  cases bits with
  | range hi lo =>
    have hlo : numbers (offsetName field) = some lo := hoffset
    rw [BitSpec.collect_range hs]
    simp only [expr, Expr.value, hx, hlo, hmask, Operator.applyTo_some, Operator.apply]
  | list ps =>
    have hterm : ∀ i p, (bitTerm field x p i).value numbers
        = some ((((n &&& (BitSpec.list ps).mask.toNat) >>> p) &&& 1) <<< i) := by
      intro i p
      simp only [bitTerm, Expr.value, hx, hmask, Operator.applyTo_some, Operator.apply]
    have hterms : Expr.values numbers (bitTerms field x ps) = some _ :=
      values_mapIdx hterm ps.reverse
    simp only [expr, Expr.value, hterms, Option.map_some]
    apply congrArg some
    apply eq_of_testBit_iff
    intro k
    rw [testBit_unionOf_taken, BitSpec.testBit_collect, Nat.testBit_and, Bool.and_eq_true,
      ← BitMask.contains_eq_testBit, BitSpec.contains_mask hs]
    -- A place of the field is inside the mask, so the mask cuts nothing off.
    constructor
    · rintro ⟨hk, hbit, -⟩
      exact ⟨hk, hbit⟩
    · rintro ⟨hk, hbit⟩
      exact ⟨hk, hbit, k, hk, rfl⟩

end Values

end Getter

/-! ## § Expressions of a field -/

namespace Sample

/-- **mode** — the field of listed bits. -/
def mode : Field := field "MODE" (.list [5, 2]) 2

theorem mode_mem : mode ∈ ctrl.reg.fields := List.mem_cons_self

theorem numbers_mode : [numbers (offsetName "MODE"), numbers (maskName "MODE")]
    = (ctrl.fieldEntries mode).map fun e => e.2.read := by decide

end Sample

/-- Without macros, tokens of an expression stand for its value. -/
theorem evaluate_tokens {e : Expr} (h : e.Ranked [] 0) (numbers : String → Option Nat) :
    evaluate [] numbers e.tokens = e.value numbers := Expr.value_read h numbers

namespace Place

/-- The header gives the lowest bit of a field and its mask in base sixteen, the mask with all its
words. -/
theorem render_fieldEntries (p : Place) (f : Field) :
    (p.fieldEntries f).map (fun e => e.2.render) = ["0x" ++ Text.hex f.lo, "0x" ++ f.mask.hex] := by
  rw [BitMask.hex_eq]
  rfl

/-- **Getters and setters agree with the codec.** Take a field of an accepted description, any name,
and the numbers that the header gives for the lowest bit and the mask of the field. For each
expression that is worth a natural number, the getter is worth the bits of that number at the places
of the field, and the setter is worth the bits of that number moved to these places. For a field
that ends below bit 128 they are worth what the field decodes and encodes. The texts of both are the
tokens that are evaluated. -/
theorem field_expressions {p : Place} {text : String}
    (haccepted : (Device.ofText text).result = .ok p.device) (hpage : p.page ∈ p.device.pages)
    (hreg : p.reg ∈ p.page.regs) {f : Field} (hf : f ∈ p.reg.fields) {name : String}
    {numbers : String → Option Nat}
    (hnumbers : [numbers (offsetName name), numbers (maskName name)]
      = (p.fieldEntries f).map fun e => e.2.read)
    {x : Expr} (hx : x.Ranked [] 0) {n : Nat} (hn : x.value numbers = some n) :
    f.bits.width = .ok f.bits.size ∧
    (p.fieldEntries f).map (fun e => e.2.render) = ["0x" ++ Text.hex f.lo, "0x" ++ f.mask.hex] ∧
    Spells (Getter.expr f.bits name x).tokens (Getter.expr f.bits name x).render ∧
    Spells (Setter.expr f.bits name x).tokens (Setter.expr f.bits name x).render ∧
    ∃ got put, evaluate [] numbers (Getter.expr f.bits name x).tokens = some got ∧
      evaluate [] numbers (Setter.expr f.bits name x).tokens = some put ∧
      (∀ k, got.testBit k = true ↔ k < f.bits.size ∧ n.testBit (f.bits.place k) = true) ∧
      (∀ b, put.testBit b = true ↔
        ∃ k, k < f.bits.size ∧ f.bits.place k = b ∧ n.testBit k = true) ∧
      (f.bits.hi ≤ 127 → f.decode n = .ok got ∧ f.encode n = .ok put) := by
  have hd := Device.sound_of_ofText haccepted
  have hr := (hd.pages p.page hpage).regs p.reg hreg
  have hsound := hr.fields f hf
  have hproper := hsound.proper
  simp only [fieldEntries, List.map_cons, List.map_nil, Literal.read_eq, Literal.value,
    List.cons.injEq, and_true, hsound.mask_eq] at hnumbers
  obtain ⟨hoffset, hmask⟩ := hnumbers
  have hfree : ∀ s : String, s ∉ ([] : List String) := fun _ => List.not_mem_nil
  have hgetter := Getter.ranked_expr hproper (.inr hx) (hfree (offsetName name))
    (hfree (maskName name)) 0
  have hsetter := Setter.ranked_expr hproper (.inr hx) (hfree (offsetName name))
    (hfree (maskName name)) 0
  refine ⟨Register.Sound.width_eq hr hd.dataWidth_pos hd.dataWidth_le hf, p.render_fieldEntries f,
    Expr.spells_tokens _, Expr.spells_tokens _, f.bits.collect n, f.bits.spread n, ?_, ?_,
    f.bits.testBit_collect n, f.bits.testBit_spread n, ?_⟩
  · rw [evaluate_tokens hgetter, Getter.value_expr hproper hoffset hmask hn]
  · rw [evaluate_tokens hsetter, Setter.value_expr hproper hoffset hmask hn]
  · intro hhi
    have htop : f.bits.hi < BitSpec.valueBits := Nat.lt_succ_of_le hhi
    exact ⟨BitSpec.decode_eq_collect hproper htop n, BitSpec.encode_eq_spread hproper htop n⟩

/-- Listed bits are taken from a number and put to their places, by the numbers of the header. -/
theorem field_expressions_sample :
    evaluate [] Sample.numbers (Getter.expr Sample.mode.bits "MODE" (.decimal 6)).tokens = some 1 ∧
    evaluate [] Sample.numbers (Setter.expr Sample.mode.bits "MODE" (.decimal 6)).tokens
      = some 32 ∧
    Sample.mode.decode 6 = .ok 1 ∧ Sample.mode.encode 6 = .ok 32 := by
  have hgot : evaluate [] Sample.numbers
      (Getter.expr Sample.mode.bits "MODE" (.decimal 6)).tokens = some 1 := by decide
  have hput : evaluate [] Sample.numbers
      (Setter.expr Sample.mode.bits "MODE" (.decimal 6)).tokens = some 32 := by decide
  have hranked : (Expr.decimal 6).Ranked [] 0 := trivial
  have hvalue : (Expr.decimal 6).value Sample.numbers = some 6 := rfl
  obtain ⟨-, -, -, -, got, put, hget, hset, -, -, hcodec⟩ :=
    field_expressions (p := Sample.ctrl) Sample.accepted Sample.emitted_ctrl.page_mem
      Sample.emitted_ctrl.reg_mem Sample.mode_mem Sample.numbers_mode hranked hvalue
  obtain rfl : got = 1 := Option.some.inj (hget.symm.trans hgot)
  obtain rfl : put = 32 := Option.some.inj (hset.symm.trans hput)
  exact ⟨hgot, hput, hcodec (by decide)⟩

end Place

end RegisterMap.Header
