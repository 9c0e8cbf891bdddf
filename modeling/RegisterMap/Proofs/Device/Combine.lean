import Mathlib.Data.List.Pairwise
import RegisterMap.Proofs.Device.ValueMask

/-!
# Combined values — the value of a register of the values of its fields

The value of a register has the value of each field at the bits of this field. Fields that share no
bit do not disturb each other there, so each of them is decoded again, whatever the others hold.

## § What is here

* `Register.combine` — the values of all fields at their bits;
* `Register.encode_combine` — it is what the encoded fields add up to, where encoding drops nothing;
* `Field.Disjoint` — two fields without a common bit, as their masks tell;
* `Register.decodeFields_combine` — disjoint fields are decoded to their values again.
-/

namespace RegisterMap

open Outcome

namespace Register

variable {dataWidth : Nat} {r : Register} {values : List Nat}

/-- **combine** — the values of all fields at their bits. -/
def combine (r : Register) (values : List Nat) : Nat :=
  unionOf (r.fields.zipWith (fun f v => f.bits.spread v) values)

/-- A bit is set when it is the place of a bit of the value of a field. -/
theorem testBit_combine (r : Register) (values : List Nat) (b : Nat) :
    (r.combine values).testBit b ↔ ∃ x ∈ r.fields.zip values,
      ∃ k, k < x.1.bits.size ∧ x.1.bits.place k = b ∧ x.2.testBit k := by
  rw [combine, testBit_unionOf, ← List.map_uncurry_zip_eq_zipWith]
  constructor
  · rintro ⟨n, hn, hbit⟩
    obtain ⟨x, hx, rfl⟩ := List.mem_map.1 hn
    exact ⟨x, hx, (BitSpec.testBit_spread _ _ _).1 hbit⟩
  · rintro ⟨x, hx, hplace⟩
    exact ⟨_, List.mem_map_of_mem hx, (BitSpec.testBit_spread _ _ _).2 hplace⟩

/-- The value of a register has no bits outside of its fields. -/
theorem contains_of_testBit_combine (hr : r.Sound dataWidth) {b : Nat}
    (h : (r.combine values).testBit b) : r.valueMask.contains b := by
  obtain ⟨⟨f, v⟩, hx, k, hk, hplace, -⟩ := (r.testBit_combine values b).1 h
  have hf : f ∈ r.fields := (List.of_mem_zip hx).1
  have hsound := hr.fields f hf
  apply (r.contains_valueMask b).2
  refine ⟨f, hf, ?_⟩
  rw [hsound.mask_eq]
  exact (BitSpec.contains_mask hsound.proper b).2 ⟨k, hk, hplace⟩

/-- Fields inside the register value are encoded to the bits that they have in its value. -/
theorem encode_combine (hr : r.Sound dataWidth)
    (hhi : ∀ f ∈ r.fields, f.bits.hi < BitSpec.valueBits) (values : List Nat) :
    ∃ es, (r.fields.zip values).mapM (fun x => x.1.encode x.2) = .ok es ∧
      unionOf es = r.combine values := by
  refine ⟨r.fields.zipWith (fun f v => f.bits.spread v) values, ?_, rfl⟩
  rw [mapM_eq_ok, ← List.map_uncurry_zip_eq_zipWith, List.forall₂_map_right_iff, List.forall₂_same]
  intro x hx
  have hf : x.1 ∈ r.fields := (List.of_mem_zip hx).1
  exact BitSpec.encode_eq_spread (hr.fields x.1 hf).proper (hhi x.1 hf) x.2

/-- Inside the register value, no bit lies beyond the words or beyond the bits of a value. -/
theorem combine_lt (hr : r.Sound dataWidth) (hwidth : 1 ≤ dataWidth)
    (hhi : ∀ f ∈ r.fields, f.bits.hi < BitSpec.valueBits) (values : List Nat) :
    r.combine values < capacity (min BitSpec.valueBits (dataWidth * r.wordCount)) := by
  apply lt_capacity_of_testBit
  intro b hb
  apply Bool.eq_false_iff.2
  intro hbit
  have hlast := lt_of_contains_valueMask hr hwidth (contains_of_testBit_combine hr hbit)
  obtain ⟨x, hx, k, hk, rfl, -⟩ := (r.testBit_combine values b).1 hbit
  have hf : x.1 ∈ r.fields := (List.of_mem_zip hx).1
  have hhigh : x.1.bits.place k ≤ x.1.bits.hi :=
    BitSpec.place_le_hi (hr.fields x.1 hf).proper hk
  have htop := hhi x.1 hf
  omega

end Register

/-! ## § Disjoint fields -/

/-- **Disjoint** — two fields without a common bit. -/
def Field.Disjoint (f g : Field) : Prop := ∀ b, f.mask.contains b → ¬ g.mask.contains b

theorem Field.Disjoint.symm {f g : Field} (h : f.Disjoint g) : g.Disjoint f :=
  fun b hg hf => h b hf hg

/-- Fields are disjoint when the numbers of their masks are. -/
theorem Field.disjoint_iff {f g : Field} :
    f.Disjoint g ↔ f.mask.toNat &&& g.mask.toNat = 0 := by
  constructor
  · intro h
    apply Nat.eq_of_testBit_eq
    intro b
    rw [Nat.testBit_and, Nat.zero_testBit, ← BitMask.contains_eq_testBit,
      ← BitMask.contains_eq_testBit]
    cases hf : f.mask.contains b with
    | false => rfl
    | true => exact Bool.eq_false_iff.2 (h b hf)
  · intro h b hf hg
    have hbit : (f.mask.toNat &&& g.mask.toNat).testBit b = false := by
      rw [h]
      exact Nat.zero_testBit b
    rw [Nat.testBit_and, ← BitMask.contains_eq_testBit, ← BitMask.contains_eq_testBit, hf, hg]
      at hbit
    cases hbit

instance : DecidableRel Field.Disjoint := fun _ _ => decidable_of_iff _ Field.disjoint_iff.symm

namespace Register

variable {dataWidth : Nat} {r : Register} {values : List Nat}

/-- Of fields that are pairwise disjoint, two that share a bit are one, with one value. -/
theorem eq_of_common_place (hr : r.Sound dataWidth) (hdisjoint : r.fields.Pairwise Field.Disjoint)
    (hlength : values.length = r.fields.length) {x y : Field × Nat}
    (hx : x ∈ r.fields.zip values) (hy : y ∈ r.fields.zip values) {k l : Nat}
    (hk : k < x.1.bits.size) (hl : l < y.1.bits.size) (h : x.1.bits.place k = y.1.bits.place l) :
    x = y := by
  -- The pairs of fields and values are disjoint by their fields.
  have hzip : (r.fields.zip values).Pairwise fun x y => x.1.Disjoint y.1 := by
    rw [← List.pairwise_map (f := Prod.fst) (R := Field.Disjoint),
      List.map_fst_zip (Nat.le_of_eq hlength.symm)]
    exact hdisjoint
  have hsymm : Std.Symm fun x y : Field × Nat => x.1.Disjoint y.1 := ⟨fun _ _ hxy => hxy.symm⟩
  have hmask : ∀ z ∈ r.fields.zip values, ∀ m, m < z.1.bits.size →
      z.1.mask.contains (z.1.bits.place m) := by
    intro z hz m hm
    have hsound := hr.fields z.1 (List.of_mem_zip hz).1
    rw [hsound.mask_eq]
    exact (BitSpec.contains_mask hsound.proper _).2 ⟨m, hm, rfl⟩
  by_contra hne
  have hapart := hzip.forall hx hy hne
  exact hapart _ (hmask x hx k hk) (h ▸ hmask y hy l hl)

/-- A field that shares no bit with the others is decoded to its own value. -/
theorem decode_combine (hr : r.Sound dataWidth)
    (hhi : ∀ f ∈ r.fields, f.bits.hi < BitSpec.valueBits)
    (hdisjoint : r.fields.Pairwise Field.Disjoint) (hlength : values.length = r.fields.length)
    {x : Field × Nat} (hx : x ∈ r.fields.zip values) :
    x.1.decode (r.combine values) = .ok (x.2 % capacity x.1.bits.size) := by
  have hf : x.1 ∈ r.fields := (List.of_mem_zip hx).1
  have hproper := (hr.fields x.1 hf).proper
  have htop := hhi x.1 hf
  have hspan : x.1.bits.hi - x.1.bits.lo < BitSpec.valueBits := by omega
  have hsize := BitSpec.size_le_valueBits hproper hspan
  obtain ⟨d, hd, hbits⟩ :=
    BitSpec.decode_spec hproper (BitSpec.movable_of_span hproper hspan) (r.combine values)
  rw [Field.decode, hd]
  apply congrArg Except.ok
  apply eq_of_testBit_iff
  intro k
  rw [hbits, testBit_mod_capacity, testBit_combine, Bool.and_eq_true, decide_eq_true_eq]
  constructor
  · rintro ⟨-, hk, -, y, hy, l, hl, hplace, hbit⟩
    obtain rfl : x = y := eq_of_common_place hr hdisjoint hlength hx hy hk hl hplace.symm
    obtain rfl : l = k := BitSpec.place_injective hproper hl hk hplace
    exact ⟨hk, hbit⟩
  · rintro ⟨hk, hbit⟩
    have hhigh : x.1.bits.place k ≤ x.1.bits.hi := BitSpec.place_le_hi hproper hk
    exact ⟨by omega, hk, by omega, x, hx, k, hk, rfl, hbit⟩

/-- Disjoint fields are decoded to their values, each cut to the width of its field. -/
theorem decodeFields_combine (hr : r.Sound dataWidth)
    (hhi : ∀ f ∈ r.fields, f.bits.hi < BitSpec.valueBits)
    (hdisjoint : r.fields.Pairwise Field.Disjoint) (hlength : values.length = r.fields.length) :
    r.decodeFields (r.combine values)
      = .ok (r.fields.zipWith (fun f v => (f.name, v % capacity f.bits.size)) values) := by
  have hfields : (r.fields.zip values).map Prod.fst = r.fields :=
    List.map_fst_zip (Nat.le_of_eq hlength.symm)
  rw [decodeFields, mapM_eq_ok, ← List.map_uncurry_zip_eq_zipWith]
  nth_rewrite 1 [← hfields]
  rw [List.forall₂_map_left_iff, List.forall₂_map_right_iff, List.forall₂_same]
  intro x hx
  rw [decode_combine hr hhi hdisjoint hlength hx]
  rfl

end Register

end RegisterMap
