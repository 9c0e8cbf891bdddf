import RegisterMap.Proofs.Device.ValueMask

/-!
# The invariant of a device — what everything after the build relies on

Whoever works with a device finds its parts as they should be and checks none of them again: names
that a header can have, addresses in order, fields inside their words. Nothing here mentions how the
device is built; numbers and bits are compared as they are.

## § What is here

* `Field.Invariant`, `Register.Invariant`, `Page.Invariant`, `Device.Invariant` — what holds of each
  level;
* `BitMask.window_eq`, `BitMask.toNat_ones` — masks as numbers;
* `Field.Sound.invariant`, `Register.Sound.invariant` — the guarantees of a build give the
  invariant;
* `Device.invariant_of_ofText` — so every accepted description has it;
* `Tuner` — a device with words of 60 bits, a register of three of them, and the last address.
-/

namespace RegisterMap

/-! ## § Masks as numbers -/

namespace BitMask

/-- The lowest 64 bits are those of the number of the mask. -/
theorem window_eq (m : BitMask) : m.window 0 64 = m.toNat % capacity 64 := by
  rw [window_eq_mod m (by decide), Nat.shiftRight_zero, Nat.min_self]

/-- Ones in so many places are the greatest number of so many bits. -/
theorem toNat_ones (width : Nat) : (ones width).toNat = capacity width - 1 := by
  apply Nat.eq_of_testBit_eq
  intro i
  have hones := testBit_lowOnes width width i
  rw [lowOnes, Nat.min_self] at hones
  rw [← contains_eq_testBit, contains_ones, hones]

end BitMask

namespace BitSpec

/-- **Occupies** — a position is one of the bits of a field. -/
def Occupies : BitSpec → Nat → Prop
  | range hi lo, b => lo ≤ b ∧ b ≤ hi
  | list ps, b => b ∈ ps

/-- The mask holds the bits that the specification occupies. -/
theorem contains_mask_iff {s : BitSpec} (b : Nat) : s.mask.contains b = true ↔ s.Occupies b := by
  cases s with
  | range hi lo =>
    rw [mask, BitMask.contains_ofRange, decide_eq_true_eq, Occupies]
    omega
  | list ps =>
    rw [mask, BitMask.contains_ofBits, decide_eq_true_eq, Occupies]

/-- The mask of a range, moved down to bit 0, has ones in all its places. -/
theorem mask_range_shiftRight {hi lo : Nat} (h : lo ≤ hi) :
    (range hi lo).mask.toNat >>> lo = (BitMask.ones (range hi lo).size).toNat := by
  apply Nat.eq_of_testBit_eq
  intro i
  rw [Nat.testBit_shiftRight, ← BitMask.contains_eq_testBit, ← BitMask.contains_eq_testBit, mask,
    BitMask.contains_ofRange, BitMask.contains_ones, size, decide_eq_decide]
  omega

end BitSpec

/-! ## § Fields -/

/-- **Invariant** — a field of a register with so many bits. -/
structure Field.Invariant (bits : Nat) (f : Field) : Prop where
  name : IsName f.name
  /-- A range from high to low, or at least two different positions. -/
  proper : f.bits.Proper
  hi_lt : f.bits.hi < bits
  mask : ∀ b, f.mask.contains b = true ↔ f.bits.Occupies b
  /-- The greatest value has ones in all bits of the field. -/
  most : ∃ width, f.bits.width = .ok width ∧ f.maxValue.toNat = capacity width - 1
  /-- For a range these are the bits of its mask. -/
  most_range : ∀ hi lo, f.bits = .range hi lo → f.maxValue.toNat = f.mask.toNat >>> lo
  options : ∀ e ∈ f.options.entries, e.1 ≤ f.maxValue.toNat

/-- A field is as it should be when its register has words at all. -/
theorem Field.Sound.invariant {dataWidth words : Nat} {f : Field}
    (hf : f.Sound (Register.lastBit dataWidth words)) (hbits : 0 < dataWidth * words) :
    f.Invariant (dataWidth * words) := by
  obtain ⟨width, hwidth, hmost⟩ := BitSpec.maxValue_eq_ok.1 hf.most
  have hlast : f.bits.hi ≤ dataWidth * words - 1 := hf.hi_le
  exact
    { name := isIdentifier_iff.1 hf.identifier
      proper := hf.proper
      hi_lt := by omega
      mask := fun b => by rw [hf.mask_eq, BitSpec.contains_mask_iff]
      most := ⟨width, hwidth, by rw [← hmost, BitMask.toNat_ones]⟩
      most_range := by
        intro hi lo hrange
        have hproper := hf.proper
        rw [hf.mask_eq, ← hmost, BitSpec.eq_size_of_width hwidth]
        rw [hrange] at hproper ⊢
        exact (BitSpec.mask_range_shiftRight hproper).symm
      options := by
        -- The check looks at the lowest 64 bits only, which are never above the whole.
        intro e he
        have hle := hf.options_le e he
        rw [BitMask.window_eq] at hle
        exact Nat.le_trans hle (Nat.mod_le _ _) }

/-! ## § Registers -/

/-- **Invariant** — a register of words of the given width. -/
structure Register.Invariant (dataWidth : Nat) (r : Register) : Prop where
  name : IsName r.name
  ordered : r.addrLo ≤ r.addrHi
  words : 1 ≤ r.wordCount ∧ r.wordCount ≤ 9
  order : r.bigOrder = true → 2 ≤ r.wordCount
  inhabited : r.fields ≠ []
  descending : r.fields.Pairwise fun f g => g.lo ≤ f.lo
  fields : ∀ f ∈ r.fields, f.Invariant (dataWidth * r.wordCount)
  /-- No field reaches beyond the words. -/
  valueMask_lt : r.valueMask.toNat < capacity (dataWidth * r.wordCount)
  /-- The lowest bit of all fields is a bit of one of them. -/
  valueOffset_mem : r.valueMask.contains r.valueOffset = true
  valueOffset_le : ∀ b, r.valueMask.contains b = true → r.valueOffset ≤ b

theorem Register.Sound.invariant {dataWidth : Nat} {r : Register} (hr : r.Sound dataWidth)
    (hwidth : 1 ≤ dataWidth) : r.Invariant dataWidth where
  name := isIdentifier_iff.1 hr.identifier
  ordered := hr.ordered
  words := ⟨Nat.succ_pos _, hr.words_le⟩
  order := by
    intro hbig
    have hlt := hr.order hbig
    show 2 ≤ r.addrHi - r.addrLo + 1
    omega
  inhabited := hr.inhabited
  descending := hr.descending
  fields := fun f hf => (hr.fields f hf).invariant (Nat.mul_pos hwidth (Nat.succ_pos _))
  valueMask_lt := by
    apply lt_capacity_of_testBit
    intro b hb
    rw [← BitMask.contains_eq_testBit]
    apply Bool.eq_false_iff.2
    intro hbit
    have hlt := lt_of_contains_valueMask hr hwidth hbit
    omega
  valueOffset_mem := contains_valueOffset hr
  valueOffset_le := fun _ hb => valueOffset_le_of_contains hr hb

/-! ## § Devices -/

/-- **Invariant** — a page of registers with words of the given width. -/
structure Page.Invariant (dataWidth : Nat) (p : Page) : Prop where
  name : IsName p.name
  regs : ∀ r ∈ p.regs, r.Invariant dataWidth

/-- **Invariant** — a device as everything after the build relies on it. -/
structure Device.Invariant (d : Device) : Prop where
  addrWidth : 1 ≤ d.addrWidth ∧ d.addrWidth ≤ 64
  dataWidth : 1 ≤ d.dataWidth ∧ d.dataWidth ≤ 64
  pages : ∀ p ∈ d.pages, p.Invariant d.dataWidth

namespace Device

theorem Sound.invariant {d : Device} (hd : d.Sound) : d.Invariant where
  addrWidth := ⟨hd.addrWidth_pos, hd.addrWidth_le⟩
  dataWidth := ⟨hd.dataWidth_pos, hd.dataWidth_le⟩
  pages := fun p hp =>
    { name := isIdentifier_iff.1 (hd.pages p hp).identifier
      regs := fun r hr => ((hd.pages p hp).regs r hr).invariant hd.dataWidth_pos }

/-- Every description that is accepted gives a device with the invariant. -/
theorem invariant_of_ofText {text : String} {d : Device} (h : (ofText text).result = .ok d) :
    d.Invariant :=
  (sound_of_ofText h).invariant

end Device

/-! ## § A device with long words -/

namespace Tuner

/-- **text** — a device with a register of three words of 60 bits, whose fields are a range up to
bit 127 and single bits in two of its words, and a register without fields at the last address. -/
def text : String :=
  "name: Tuner\naddr_width: 64\ndata_width: \"60\"\nfield_prefix:\n- Page\npages:\n- name: Rf\n"
    ++ "  regs:\n  - name: LONG\n    addr: \"0x10:0x12\"\n    fields:\n    - name: MIX\n"
    ++ "      bits: \"0,61,3\"\n      opts:\n        7: all\n    - name: TOP\n"
    ++ "      bits: \"127:100\"\n  - name: LAST\n    addr: \"0xffffffffffffffff\"\n"
    ++ "x-mode:\n  0: idle\n  0x1: busy\n"

/-- **top** — the range of bits. -/
def top : Field := ⟨"TOP", "TOP", .range 127 100, BitMask.ofRange 100 28, .ones 28, {}⟩

/-- **mix** — the single bits. -/
def mix : Field :=
  ⟨"MIX", "MIX", .list [0, 61, 3], .ofBits [0, 61, 3], .ones 3, ⟨[(7, "all")]⟩⟩

/-- **long** — the register of three words. -/
def long : Register where
  name := "LONG"
  addrHi := 0x12
  addrLo := 0x10
  bigOrder := true
  fields := [top, mix]
  fieldIndex := .ofNames ["TOP", "MIX"]

/-- **last** — the register at the last address. -/
def last : Register where
  name := "LAST"
  addrHi := 0xffffffffffffffff
  addrLo := 0xffffffffffffffff
  bigOrder := false
  fields := [⟨"VALUE", "LAST", .range 59 0, BitMask.ofRange 0 60, .ones 60, {}⟩]
  fieldIndex := .ofNames ["VALUE"]

/-- **page** — the only page. -/
def page : Page := ⟨"Rf", [long, last], .ofNames ["LONG", "LAST"]⟩

/-- **device** — what the text describes. -/
def device : Device where
  name := "Tuner"
  desc := "Tuner"
  regPrefix := ""
  pagePrefix := false
  fieldPrefix := [.page]
  fieldMacros := false
  addrWidth := 64
  dataWidth := 60
  bus := {}
  pages := [page]
  tables := [⟨"mode", [("idle", 0), ("busy", 1)]⟩]
  flat := FlatEntry.ofPages false [page]
  pageIndex := .ofNames ["Rf"]
  flatIndex := .ofNames ["LONG_BY0", "LONG_BY1", "LONG_BY2", "LAST"]

theorem accepted : (Device.ofText text).result = .ok device :=
  Device.ofText_of_chars
    (Text.ofList_parts
      (Text.ofList_parts (Text.ofList_parts (Text.ofList_parts rfl rfl) rfl) rfl) rfl)
    (by decide +kernel)

theorem page_mem : page ∈ device.pages := List.mem_singleton_self page

theorem long_mem : long ∈ page.regs := List.mem_cons_self

theorem last_mem : last ∈ page.regs := List.mem_cons_of_mem _ (List.mem_singleton_self last)

end Tuner

/-- The device has a range across two words, listed bits, labels, and the last address there is. -/
theorem Device.invariant_tuner :
    (ofText Tuner.text).result = .ok Tuner.device ∧ Tuner.device.Invariant :=
  ⟨Tuner.accepted, invariant_of_ofText Tuner.accepted⟩

end RegisterMap
