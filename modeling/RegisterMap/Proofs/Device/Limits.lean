import RegisterMap.Proofs.Bits.Limits
import RegisterMap.Proofs.Device.Sound
import RegisterMap.Proofs.Draft.Register

/-!
# Limits of a device — which of its fields a register value can carry

A register may have 576 bits, a register value has 128. For a range that only means that the bits
beyond the value are dropped. A list of bits may be longer than the value, or reach further than the
value is long; such a field is accepted, but there is no value that can be encoded to it or decoded
from it. Here the fields of accepted descriptions are told apart, and with them the registers whose
values can be decoded.

## § What is here

* `Register.Sound.hi_small`, `Register.Sound.width_eq` — the fields of a register can be counted;
* `Register.decodeFields_within`, `Register.decodeFields_beyond` — a register is decoded when each
  of its fields is;
* `Device.codec_limits` — the operations on the values of accepted fields, on both sides of their
  limits;
* `Device.codec_total_fails` — the limits can be crossed.
-/

namespace RegisterMap

open Outcome

/-! ## § Registers -/

namespace Register

variable {dataWidth : Nat} {r : Register}

/-- All positions of the fields are far below what 32 bits can count. -/
theorem Sound.hi_small (hr : r.Sound dataWidth) (hlow : 1 ≤ dataWidth) (hhigh : dataWidth ≤ 64)
    {f : Field} (hf : f ∈ r.fields) : f.bits.hi + 1 < capacity 32 := by
  have hlast : f.bits.hi ≤ lastBit dataWidth r.wordCount := (hr.fields f hf).hi_le
  obtain ⟨-, hcap⟩ := lastBit_spec hlow hhigh r.wordCount_pos hr.words_le
  omega

theorem Sound.width_eq (hr : r.Sound dataWidth) (hlow : 1 ≤ dataWidth) (hhigh : dataWidth ≤ 64)
    {f : Field} (hf : f ∈ r.fields) : f.bits.width = .ok f.bits.size := by
  have hproper := (hr.fields f hf).proper
  have hsize := BitSpec.size_le hproper
  have hcap := hr.hi_small hlow hhigh hf
  exact BitSpec.width_of_size_lt hproper (by omega)

/-- A register is decoded to the values of its fields when each field can be decoded. -/
theorem decodeFields_within (hr : r.Sound dataWidth) (hlow : 1 ≤ dataWidth)
    (hhigh : dataWidth ≤ 64) (h : ∀ f ∈ r.fields, f.bits.CanDecode) (value : Nat) :
    ∃ xs, r.decodeFields value = .ok xs ∧
      List.Forall₂ (fun f x => x.1 = f.name ∧ f.bits.Decodes value x.2) r.fields xs := by
  apply exists_mapM_forall₂
  intro f hf
  obtain ⟨d, hd, hbits⟩ := BitSpec.decode_within (hr.fields f hf).proper
    (hr.hi_small hlow hhigh hf) (h f hf) value
  exact ⟨(f.name, d), bind_eq_ok.2 ⟨d, hd, rfl⟩, rfl, hbits⟩

/-- A field that cannot be decoded leaves the whole register undecoded. -/
theorem decodeFields_beyond (hr : r.Sound dataWidth) (hlow : 1 ≤ dataWidth)
    (hhigh : dataWidth ≤ 64) (h : ∃ f ∈ r.fields, ¬ f.bits.CanDecode) (value : Nat) :
    r.decodeFields value = .error .rightShift := by
  cases hresult : r.decodeFields value with
  | ok xs =>
    obtain ⟨f, hf, hbeyond⟩ := h
    obtain ⟨x, hx⟩ := exists_mapM_iff.1 ⟨xs, hresult⟩ f hf
    obtain ⟨d, hd, -⟩ := bind_eq_ok.1 hx
    have hfail := BitSpec.decode_beyond (hr.fields f hf).proper hbeyond value
    rw [Field.decode, hfail] at hd
    cases hd
  | error fault =>
    obtain ⟨before, f, after, hfields, -, hfault⟩ := mapM_eq_error.1 hresult
    have hf : f ∈ r.fields := by simp [hfields]
    -- The first field that fails does so in the only way there is.
    rcases bind_eq_error.1 hfault with hfail | ⟨d, -, hpure⟩
    · have hproper := (hr.fields f hf).proper
      by_cases hwithin : f.bits.CanDecode
      · obtain ⟨d, hd, -⟩ :=
          BitSpec.decode_within hproper (hr.hi_small hlow hhigh hf) hwithin value
        rw [Field.decode, hd] at hfail
        cases hfail
      · rw [Field.decode, BitSpec.decode_beyond hproper hwithin] at hfail
        cases hfail
        rfl
    · cases hpure

end Register

/-! ## § Devices -/

namespace Device

variable {d : Device} {r : Register}

/-- **The limits of the codec.** Each field of an accepted description has a width that can be
counted. A value is encoded to it, with all its bits that have a place in a register value, unless
the field is a list with more bits than a value; and decoded from it, unless the field is a list
that spans more positions than a value has bits, which is the narrower limit. Beyond these limits
each value is a fault, and so it is for the fields of a register together. -/
theorem codec_limits {text : String} (haccepted : (ofText text).result = .ok d) {page : Page}
    (hpage : page ∈ d.pages) (hreg : r ∈ page.regs) :
    (∀ f ∈ r.fields, f.bits.width = .ok f.bits.size ∧ (f.bits.CanDecode → f.bits.CanEncode) ∧
      (f.bits.CanEncode → ∀ v, ∃ e, f.encode v = .ok e ∧ f.bits.Encodes v e) ∧
      (¬ f.bits.CanEncode → ∀ v, f.encode v = .error .rightShift) ∧
      (f.bits.CanDecode → ∀ v, ∃ x, f.decode v = .ok x ∧ f.bits.Decodes v x) ∧
      (¬ f.bits.CanDecode → ∀ v, f.decode v = .error .rightShift)) ∧
    ((∀ f ∈ r.fields, f.bits.CanDecode) → ∀ v, ∃ xs, r.decodeFields v = .ok xs ∧
      List.Forall₂ (fun f x => x.1 = f.name ∧ f.bits.Decodes v x.2) r.fields xs) ∧
    ((∃ f ∈ r.fields, ¬ f.bits.CanDecode) → ∀ v, r.decodeFields v = .error .rightShift) := by
  have hd := sound_of_ofText haccepted
  have hr := (hd.pages page hpage).regs r hreg
  have hlow := hd.dataWidth_pos
  have hhigh := hd.dataWidth_le
  refine ⟨fun f hf => ?_, Register.decodeFields_within hr hlow hhigh,
    Register.decodeFields_beyond hr hlow hhigh⟩
  have hproper := (hr.fields f hf).proper
  have hsmall := hr.hi_small hlow hhigh hf
  exact ⟨hr.width_eq hlow hhigh hf, fun h => h.canEncode hproper,
    BitSpec.encode_within hproper hsmall,
    BitSpec.encode_beyond hproper, BitSpec.decode_within hproper hsmall,
    BitSpec.decode_beyond hproper⟩

end Device

/-! ## § A field that spans too much -/

namespace Wide

/-- **text** — a device with a register of three words of 60 bits, whose field has the lowest bit
and one that is 128 places above. -/
def text : String :=
  "name: Wide\naddr_width: 8\ndata_width: 60\npages:\n- name: Main\n  regs:\n  - name: ODD\n"
    ++ "    addr: \"2:0\"\n    fields:\n    - name: SPAN\n      bits: \"128,0\"\n"

/-- **span** — the two bits. -/
def span : Field := ⟨"SPAN", "SPAN", .list [128, 0], .ofBits [128, 0], .ones 2, {}⟩

/-- **odd** — the register of three words. -/
def odd : Register where
  name := "ODD"
  addrHi := 2
  addrLo := 0
  bigOrder := false
  fields := [span]
  fieldIndex := .ofNames ["SPAN"]

/-- **page** — the only page. -/
def page : Page := ⟨"Main", [odd], .ofNames ["ODD"]⟩

/-- **device** — what the text describes. -/
def device : Device where
  name := "Wide"
  desc := "Wide"
  regPrefix := ""
  pagePrefix := false
  fieldPrefix := []
  fieldMacros := false
  addrWidth := 8
  dataWidth := 60
  bus := {}
  pages := [page]
  tables := []
  flat := FlatEntry.ofPages false [page]
  pageIndex := .ofNames ["Main"]
  flatIndex := .ofNames ["ODD_BY2", "ODD_BY1", "ODD_BY0"]

theorem accepted : (Device.ofText text).result = .ok device :=
  Device.ofText_of_chars (Text.ofList_parts rfl rfl) (by decide +kernel)

theorem page_mem : page ∈ device.pages := List.mem_singleton_self page

theorem odd_mem : odd ∈ page.regs := List.mem_singleton_self odd

theorem span_mem : span ∈ odd.fields := List.mem_singleton_self span

theorem span_proper : span.bits.Proper := ⟨by decide, by decide⟩

theorem span_canEncode : span.bits.CanEncode := fun _ => by decide

theorem span_not_canDecode : ¬ span.bits.CanDecode := fun h => absurd (h rfl) (by decide)

end Wide

namespace Device

/-- Two bits at opposite ends of three words can be encoded, but no value can be decoded. -/
theorem codec_limits_wide :
    (ofText Wide.text).result = .ok Wide.device ∧
    (∀ v, ∃ e, Wide.span.encode v = .ok e ∧ Wide.span.bits.Encodes v e) ∧
    (∀ v, Wide.span.decode v = .error .rightShift) ∧
    ∀ v, Wide.odd.decodeFields v = .error .rightShift := by
  obtain ⟨hfields, -, hall⟩ := codec_limits Wide.accepted Wide.page_mem Wide.odd_mem
  obtain ⟨-, -, hencode, -, -, hdecode⟩ := hfields Wide.span Wide.span_mem
  exact ⟨Wide.accepted, hencode Wide.span_canEncode, hdecode Wide.span_not_canDecode,
    hall ⟨Wide.span, Wide.span_mem, Wide.span_not_canDecode⟩⟩

/-- It is not so that each value can be encoded to and decoded from each accepted field. -/
theorem codec_total_fails : ¬ ∀ (text : String) (d : Device) (page : Page) (r : Register),
    (ofText text).result = .ok d → page ∈ d.pages → r ∈ page.regs → ∀ v, v < capacity 128 →
      (∀ f ∈ r.fields, (∃ e, f.encode v = .ok e) ∧ ∃ x, f.decode v = .ok x) ∧
      ∃ xs, r.decodeFields v = .ok xs := by
  intro h
  obtain ⟨hfields, -⟩ := h Wide.text Wide.device Wide.page Wide.odd Wide.accepted Wide.page_mem
    Wide.odd_mem 1 (by decide)
  obtain ⟨-, x, hx⟩ := hfields Wide.span Wide.span_mem
  have hfail : Wide.span.decode 1 = .error .rightShift :=
    BitSpec.decode_beyond Wide.span_proper Wide.span_not_canDecode 1
  rw [hfail] at hx
  cases hx

end Device

end RegisterMap
