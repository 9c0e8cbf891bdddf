import RegisterMap.Proofs.Device.Namespace
import RegisterMap.Proofs.Draft.Device

/-!
# Faults of arithmetic — the one description that cannot be counted

Every number of a build is small, because it is checked before it is used: a register has at most
nine words of at most 64 bits, and a field lies inside its register. One number is used before its
check, the count of the addresses of a register. It is a fault when a register has all addresses
there are, and no other description comes to a fault of arithmetic.

## § What is here

* `exists_of_bind_eq_arithmetic` — a check of the data is passed before such a fault;
* `Scalar.SpansAll`, `Device.Overflows` — the addresses that cannot be counted, and the drafts
  whose build comes to them;
* `AddressRange.ofScalar_of_ends` and its three cases — when addresses are accepted, too many, or
  beyond counting;
* `Field.ofDraft_ne_arithmetic`, `Device.settingsOf_ne_arithmetic` — parts without such a fault;
* `Register.build_eq_arithmetic`, `Page.build_eq_arithmetic`, `Device.build_eq_arithmetic` — the
  parts with it, level by level;
* `Device.arithmetic_faults` — the descriptions with it.
-/

namespace RegisterMap

open Outcome

/-! ## § Checks of the data -/

/-- What a check of the data reports is no fault of arithmetic, so such a fault comes after the
check, and the check is passed. -/
theorem exists_of_bind_eq_arithmetic {ε α β : Type} {x : Except ε α} {f : ε → SchemaFault}
    {g : α → Except BuildFault β} {fault : ArithmeticFault}
    (h : (x.mapError (fun e => BuildFault.schema (f e)) >>= g) = .error (.arithmetic fault)) :
    ∃ a, x = .ok a ∧ g a = .error (.arithmetic fault) := by
  rcases bind_eq_error.1 h with hx | ⟨a, hx, hg⟩
  · obtain ⟨cause, -, hcause⟩ := mapError_eq_error.1 hx
    cases hcause
  · exact ⟨a, mapError_eq_ok.1 hx, hg⟩

/-! ## § Addresses -/

/-- **SpansAll** — ends with all addresses from one to the other. -/
def Draft.Scalar.SpansAll (s : Scalar) : Prop :=
  ∃ first last, s.Ends first last ∧ Nat.dist first last + 1 = capacity 64

namespace AddressRange

variable {register : String} {s : Draft.Scalar} {first last : Nat}

/-- Ends that can be read only have to be near enough. -/
theorem ofScalar_of_ends (hends : s.Ends first last) :
    ofScalar register s = checkLength register (ofEnds first last) := by
  rw [ofScalar, (readEnds_chars_eq_ok register).2 hends]
  rfl

/-- A range of more than nine words is too wide, when its words can be counted. -/
theorem checkLength_of_long {r : AddressRange} (h : 9 < r.wordCount)
    (hcap : r.wordCount < capacity 64) :
    checkLength register r = .error (.tooWide register r.wordCount 9) := by
  have hcount : checkedAdd 64 (r.hi - r.lo) 1 = .ok r.wordCount := checkedAdd_eq_ok.2 ⟨rfl, hcap⟩
  exact bind_eq_error.2 (.inr ⟨r.wordCount, mapError_eq_ok.2 hcount, if_pos h⟩)

/-- A range whose words cannot be counted is a fault. -/
theorem checkLength_of_all {r : AddressRange} (h : capacity 64 ≤ r.wordCount) :
    checkLength register r = .error (.arithmetic .addition) := by
  have hcount : checkedAdd 64 (r.hi - r.lo) 1 = .error .addition :=
    checkedAdd_eq_error.2 ⟨rfl, h⟩
  exact bind_eq_error.2 (.inl (mapError_eq_error.2 ⟨.addition, hcount, rfl⟩))

/-- Two ends of nine words at most are accepted, ends that are further apart are too wide, and the
ends of all addresses are a fault. -/
theorem ofScalar_cases (register : String) (hends : s.Ends first last) :
    (Nat.dist first last ≤ 8 → ofScalar register s = .ok (ofEnds first last)) ∧
    (8 < Nat.dist first last → Nat.dist first last + 1 < capacity 64 →
      ofScalar register s = .error (.tooWide register (Nat.dist first last + 1) 9)) ∧
    (Nat.dist first last + 1 = capacity 64 →
      ofScalar register s = .error (.arithmetic .addition)) := by
  have hcount := wordCount_ofEnds first last
  refine ⟨?_, ?_, ?_⟩
  · intro hnear
    exact (ofScalar_eq_ok register).2 ⟨first, last, hends, hnear, rfl⟩
  · intro hfar hcap
    rw [ofScalar_of_ends hends, ← hcount]
    exact checkLength_of_long (by omega) (by omega)
  · intro hall
    rw [ofScalar_of_ends hends]
    exact checkLength_of_all (by omega)

/-- No two addresses have more than all addresses between them. -/
theorem dist_lt (hends : s.Ends first last) : Nat.dist first last < capacity 64 := by
  obtain ⟨hfirst, hlast⟩ := hends.lt
  unfold Nat.dist
  omega

/-- Addresses are a fault of arithmetic when they span all that there are. -/
theorem ofScalar_eq_arithmetic {fault : ArithmeticFault} :
    ofScalar register s = .error (.arithmetic fault) ↔ fault = .addition ∧ s.SpansAll := by
  constructor
  · intro h
    obtain ⟨ends, hread, hlength⟩ := exists_of_bind_eq_arithmetic h
    have hends : s.Ends ends.1 ends.2 := (readEnds_chars_eq_ok register).1 hread
    rcases bind_eq_error.1 hlength with hcount | ⟨words, -, hwords⟩
    · obtain ⟨cause, hcause, hsame⟩ := mapError_eq_error.1 hcount
      cases hsame
      obtain ⟨hfault, hcap⟩ := checkedAdd_eq_error.1 hcause
      have hdist := dist_lt hends
      have hwords := wordCount_ofEnds ends.1 ends.2
      rw [wordCount] at hwords
      exact ⟨hfault, ends.1, ends.2, hends, by omega⟩
    · split at hwords
      · cases hwords
      · cases hwords
  · rintro ⟨rfl, first, last, hends, hall⟩
    exact (ofScalar_cases register hends).2.2 hall

end AddressRange

/-! ## § Fields -/

namespace Field

variable {register : String} {last : Nat} {d : Draft.Field}

theorem bitsOf_ne_arithmetic (fault : ArithmeticFault) :
    bitsOf register last d ≠ .error (.arithmetic fault) := by
  intro h
  obtain ⟨spec, -, hcheck⟩ := exists_of_bind_eq_arithmetic h
  split at hcheck <;> cases hcheck

/-- The width of a field is counted when the field is known to lie in its register. -/
theorem ofDraft_ne_arithmetic (hlast : last + 1 < capacity 32) (fault : ArithmeticFault) :
    ofDraft register last d ≠ .error (.arithmetic fault) := by
  intro h
  obtain ⟨_, -, h⟩ := exists_of_bind_eq_arithmetic h
  rcases bind_eq_error.1 h with hbits | ⟨bits, hbits, h⟩
  · exact bitsOf_ne_arithmetic fault hbits
  obtain ⟨hparse, hhi⟩ := bitsOf_eq_ok.1 hbits
  have hproper := BitSpec.proper_of_parse hparse
  have hsize := BitSpec.size_le hproper
  have hwidth : bits.width = .ok bits.size := BitSpec.width_of_size_lt hproper (by omega)
  have hmost : bits.maxValue = .ok (.ones bits.size) :=
    BitSpec.maxValue_eq_ok.2 ⟨bits.size, hwidth, rfl⟩
  rcases bind_eq_error.1 h with hfail | ⟨width, -, h⟩
  · rw [hwidth] at hfail
    cases hfail
  rcases bind_eq_error.1 h with hfail | ⟨most, -, h⟩
  · rw [hmost] at hfail
    cases hfail
  obtain ⟨entries, -, hpure⟩ := exists_of_bind_eq_arithmetic h
  cases hpure

end Field

/-! ## § Registers and pages -/

/-- **Overflows** — a register with a name and with all addresses there are. -/
structure Draft.Register.Overflows (r : Draft.Register) : Prop where
  name : IsName r.name
  spans : r.addr.SpansAll

/-- **Overflows** — a page with a name whose first register that is not valid is one of these. -/
structure Draft.Page.Overflows (dataWidth : Nat) (p : Draft.Page) : Prop where
  name : IsName p.name
  reg : ∃ before r after, p.regs = before ++ r :: after ∧ (∀ x ∈ before, x.Valid dataWidth) ∧
    r.Overflows

section Levels

variable {dataWidth : Nat} (hlow : 1 ≤ dataWidth) (hhigh : dataWidth ≤ 64)
  {fault : ArithmeticFault}
include hlow hhigh

/-- A register comes to a fault of arithmetic by its addresses only. -/
theorem Register.build_eq_arithmetic {d : Draft.Register} :
    (build dataWidth d).result = .error (.arithmetic fault) ↔
      fault = .addition ∧ d.Overflows := by
  simp only [build, Logged.result_bind, Logged.result_ofExcept, Logged.result_mapM,
    Logged.result_pure, Field.result_build]
  constructor
  · intro h
    rcases bind_eq_error.1 h with hrange | ⟨range, hrange, h⟩
    · obtain ⟨_, hname, haddr⟩ := exists_of_bind_eq_arithmetic hrange
      obtain ⟨hfault, hspans⟩ := AddressRange.ofScalar_eq_arithmetic.1 haddr
      exact ⟨hfault, checkIdentifier_eq_ok.1 hname, hspans⟩
    · -- With addresses that are accepted, the fields are those of a register that is not too long.
      rcases bind_eq_error.1 h with hfields | ⟨fields, -, hpure⟩
      · obtain ⟨_, -, haddr⟩ := bind_eq_ok.1 hrange
        have hwords := (AddressRange.sound_of_ofScalar haddr).words_le
        obtain ⟨-, hcap⟩ := lastBit_spec hlow hhigh (Nat.succ_pos _) hwords
        obtain ⟨before, f, after, -, -, hf⟩ := mapM_eq_error.1 hfields
        exact absurd hf (Field.ofDraft_ne_arithmetic hcap fault)
      · cases hpure
  · rintro ⟨rfl, hname, hspans⟩
    have haddr : AddressRange.ofScalar d.name d.addr = .error (.arithmetic .addition) :=
      AddressRange.ofScalar_eq_arithmetic.2 ⟨rfl, hspans⟩
    have hident : checkIdentifier "register" d.name = .ok () := checkIdentifier_eq_ok.2 hname
    exact bind_eq_error.2 (.inl (bind_eq_error.2 (.inr ⟨(), mapError_eq_ok.2 hident, haddr⟩)))

theorem Page.build_eq_arithmetic {d : Draft.Page} :
    (build dataWidth d).result = .error (.arithmetic fault) ↔
      fault = .addition ∧ d.Overflows dataWidth := by
  simp only [build, Logged.result_bind, Logged.result_ofExcept, Logged.result_mapM,
    Logged.result_pure]
  constructor
  · intro h
    obtain ⟨_, hname, h⟩ := exists_of_bind_eq_arithmetic h
    rcases bind_eq_error.1 h with hregs | ⟨regs, -, hpure⟩
    · obtain ⟨before, r, after, hsplit, hbefore, hr⟩ := mapM_eq_error.1 hregs
      obtain ⟨hfault, hspans⟩ := (Register.build_eq_arithmetic hlow hhigh).1 hr
      exact ⟨hfault, checkIdentifier_eq_ok.1 hname, before, r, after, hsplit,
        fun x hx => (Register.exists_build_iff hlow hhigh).1 (hbefore x hx), hspans⟩
    · cases hpure
  · rintro ⟨rfl, hname, before, r, after, hsplit, hbefore, hr⟩
    have hident : checkIdentifier "page" d.name = .ok () := checkIdentifier_eq_ok.2 hname
    refine bind_eq_error.2 (.inr ⟨(), mapError_eq_ok.2 hident, bind_eq_error.2 (.inl ?_)⟩)
    exact mapM_eq_error.2 ⟨before, r, after, hsplit,
      fun x hx => (Register.exists_build_iff hlow hhigh).2 (hbefore x hx),
      (Register.build_eq_arithmetic hlow hhigh).2 ⟨rfl, hr⟩⟩

end Levels

/-! ## § Devices -/

/-- **Overflows** — a draft with settings that are accepted, whose first page that is not valid
has a register with all addresses there are. -/
structure Draft.Device.Overflows (d : Draft.Device) : Prop where
  addrWidth : ∃ w, d.addrWidth.Means w ∧ 1 ≤ w ∧ w ≤ 64
  dataWidth : ∃ w, d.dataWidth.Means w ∧ 1 ≤ w ∧ w ≤ 64 ∧ ∃ before p after,
    d.pages = before ++ p :: after ∧ (∀ x ∈ before, x.Valid w) ∧ p.Overflows w
  fieldPrefix : ∀ s ∈ d.fieldPrefix, ∃ t ∈ NamePart.texts, Text.equalsIgnoringAsciiCase s t = true
  bus : ∀ b ∈ d.bus, b.Valid

theorem BusBinding.ofDraft_ne_arithmetic (d : Draft.Bus) (fault : ArithmeticFault) :
    ofDraft d ≠ .error (.arithmetic fault) := by
  intro h
  obtain ⟨write, -, h⟩ := exists_of_bind_eq_arithmetic h
  obtain ⟨read, -, h⟩ := exists_of_bind_eq_arithmetic h
  split at h <;> cases h

namespace Device

theorem settingsOf_ne_arithmetic (d : Draft.Device) (fault : ArithmeticFault) :
    settingsOf d ≠ .error (.arithmetic fault) := by
  intro h
  obtain ⟨addrWidth, -, h⟩ := exists_of_bind_eq_arithmetic h
  obtain ⟨dataWidth, -, h⟩ := exists_of_bind_eq_arithmetic h
  obtain ⟨_, -, h⟩ := exists_of_bind_eq_arithmetic h
  obtain ⟨_, -, h⟩ := exists_of_bind_eq_arithmetic h
  obtain ⟨parts, -, h⟩ := exists_of_bind_eq_arithmetic h
  rcases bind_eq_error.1 h with hbus | ⟨bus, -, hpure⟩
  · obtain ⟨b, -, hb⟩ := option_mapM_eq_error hbus
    exact BusBinding.ofDraft_ne_arithmetic b fault hb
  · cases hpure

/-- A device comes to a fault of arithmetic by a register with all addresses, when nothing before
that register is a fault. -/
theorem build_eq_arithmetic {draft : Draft.Device} {fault : ArithmeticFault} :
    (build draft).result = .error (.arithmetic fault) ↔
      fault = .addition ∧ draft.Overflows := by
  simp only [build, Logged.result_bind, Logged.result_ofExcept, Logged.result_mapM,
    Logged.result_pure]
  constructor
  · intro h
    rcases bind_eq_error.1 h with hsettings | ⟨s, hsettings, h⟩
    · exact absurd hsettings (settingsOf_ne_arithmetic draft fault)
    obtain ⟨haddr, ⟨hmeans, hlow, hhigh⟩, hprefix, hbus⟩ := settingsOf_spec.1 ⟨s, hsettings, rfl⟩
    rcases bind_eq_error.1 h with hpages | ⟨pages, -, h⟩
    · obtain ⟨before, p, after, hsplit, hbefore, hp⟩ := mapM_eq_error.1 hpages
      obtain ⟨hfault, hoverflows⟩ := (Page.build_eq_arithmetic hlow hhigh).1 hp
      have hvalid : ∀ x ∈ before, x.Valid s.dataWidth := fun x hx =>
        (Page.exists_build_iff hlow hhigh).1 (hbefore x hx)
      exact ⟨hfault, haddr, ⟨s.dataWidth, hmeans, hlow, hhigh, before, p, after, hsplit, hvalid,
        hoverflows⟩, hprefix, hbus⟩
    -- After the pages, words have one name or tables are malformed, and nothing is counted.
    rcases bind_eq_error.1 h with hflat | ⟨t, -, h⟩
    · obtain ⟨before, e, after, -, hconflict, -⟩ := FlatEntry.conflict_of_error hflat
      cases hconflict
    obtain ⟨tables, -, hpure⟩ := exists_of_bind_eq_arithmetic h
    cases hpure
  · rintro ⟨rfl, haddr, ⟨w, hmeans, hlow, hhigh, before, p, after, hsplit, hbefore, hp⟩, hprefix,
      hbus⟩
    obtain ⟨s, hsettings, rfl⟩ := settingsOf_spec.2 ⟨haddr, ⟨hmeans, hlow, hhigh⟩, hprefix, hbus⟩
    refine bind_eq_error.2 (.inr ⟨s, hsettings, bind_eq_error.2 (.inl ?_)⟩)
    exact mapM_eq_error.2 ⟨before, p, after, hsplit,
      fun x hx => (Page.exists_build_iff hlow hhigh).2 (hbefore x hx),
      (Page.build_eq_arithmetic hlow hhigh).2 ⟨rfl, hp⟩⟩

/-- **Faults of arithmetic.** A description comes to such a fault when it can be read, its settings
are accepted, and the first register that is not valid has a name and all addresses there are. The
fault is an addition then, and nothing else can be one: ends that can be read are accepted when they
are nine words at most and too wide otherwise, unless they are the ends of all addresses; and the
sizes of a register that is accepted are far below what is used to count them. -/
theorem arithmetic_faults (text : String) :
    (∀ fault, (ofText text).result = .error (.arithmetic fault) ↔
      fault = .addition ∧ ∃ draft, Draft.Device.ofText text = .ok draft ∧ draft.Overflows) ∧
    (∀ (register : String) (addr : Draft.Scalar) (first last : Nat), addr.Ends first last →
      (Nat.dist first last ≤ 8 →
        AddressRange.ofScalar register addr = .ok (AddressRange.ofEnds first last)) ∧
      (8 < Nat.dist first last → Nat.dist first last + 1 < capacity 64 →
        AddressRange.ofScalar register addr
          = .error (.tooWide register (Nat.dist first last + 1) 9)) ∧
      (Nat.dist first last + 1 = capacity 64 →
        AddressRange.ofScalar register addr = .error (.arithmetic .addition))) ∧
    ∀ (register : String) (addr : Draft.Scalar) (r : AddressRange),
      AddressRange.ofScalar register addr = .ok r → r.Sound ∧ ∀ width, 1 ≤ width → width ≤ 64 →
        1 ≤ width * r.wordCount ∧ width * r.wordCount < capacity 32 := by
  refine ⟨?_, fun register addr first last => AddressRange.ofScalar_cases register, ?_⟩
  · intro fault
    simp only [ofText, Logged.result_bind, Logged.result_ofExcept]
    constructor
    · intro h
      obtain ⟨draft, hread, hbuild⟩ := exists_of_bind_eq_arithmetic h
      obtain ⟨hfault, hoverflows⟩ := build_eq_arithmetic.1 hbuild
      exact ⟨hfault, draft, hread, hoverflows⟩
    · rintro ⟨hfault, draft, hread, hoverflows⟩
      have hbuild := build_eq_arithmetic.2 ⟨hfault, hoverflows⟩
      exact bind_eq_error.2 (.inr ⟨draft, mapError_eq_ok.2 hread, hbuild⟩)
  · intro register addr r hr
    have hsound := AddressRange.sound_of_ofScalar hr
    refine ⟨hsound, fun width hlow hhigh => ?_⟩
    have hpos : 1 ≤ r.wordCount := Nat.succ_pos _
    obtain ⟨hbits, hcap⟩ := Register.lastBit_spec hlow hhigh hpos hsound.words_le
    omega

end Device

/-! ## § A register with all addresses -/

namespace Full

/-- **text** — a device whose only register goes from the first address to the last one. -/
def text : String :=
  "name: Full\naddr_width: 64\ndata_width: 8\npages:\n- name: Main\n  regs:\n  - name: R\n"
    ++ "    addr: \"0:0xffffffffffffffff\"\n"

/-- **isAddition** — a build that comes to a sum that does not fit. -/
def isAddition : Except BuildFault Device → Bool
  | .error (.arithmetic .addition) => true
  | _ => false

theorem eq_of_isAddition {x : Except BuildFault Device} (h : isAddition x = true) :
    x = .error (.arithmetic .addition) := by
  unfold isAddition at h
  split at h
  · rfl
  · cases h

theorem rejected : (Device.ofText text).result = .error (.arithmetic .addition) := by
  have htext : text = String.ofList _ := Text.ofList_parts rfl rfl
  rw [Device.ofText, htext, Draft.Device.ofText_ofList]
  exact eq_of_isAddition (by decide +kernel)

/-- **addresses** — the two ends. -/
def addresses : Draft.Scalar := .text "0:0xffffffffffffffff"

theorem ends : addresses.Ends 0 0xffffffffffffffff :=
  (AddressRange.readEnds_chars_eq_ok "R").1 (toOption_eq_some.1 (by decide +kernel))

end Full

namespace Device

/-- A register from the first address to the last one is such a fault. -/
theorem arithmetic_faults_full :
    (∃ draft, Draft.Device.ofText Full.text = .ok draft ∧ draft.Overflows) ∧
    AddressRange.ofScalar "R" Full.addresses = .error (.arithmetic .addition) := by
  obtain ⟨hfaults, hends, -⟩ := arithmetic_faults Full.text
  obtain ⟨-, hdraft⟩ := (hfaults .addition).1 Full.rejected
  exact ⟨hdraft, (hends "R" Full.addresses _ _ Full.ends).2.2 (by decide +kernel)⟩

/-- It is not so that no build comes to a fault of arithmetic, and neither that all ends which are
too far apart are reported as too wide. -/
theorem arithmetic_never_fails :
    (¬ ∀ (text : String) (fault : ArithmeticFault),
      (ofText text).result ≠ .error (.arithmetic fault)) ∧
    ¬ ∀ (register : String) (addr : Draft.Scalar) (first last : Nat), addr.Ends first last →
      8 < Nat.dist first last → AddressRange.ofScalar register addr
        = .error (.tooWide register (Nat.dist first last + 1) 9) := by
  constructor
  · intro hnone
    exact hnone Full.text .addition Full.rejected
  · intro hwide
    have hfar : 8 < Nat.dist 0 0xffffffffffffffff := by decide +kernel
    have hall : Nat.dist 0 0xffffffffffffffff + 1 = capacity 64 := by decide +kernel
    have hresult := hwide "R" Full.addresses _ _ Full.ends hfar
    rw [(AddressRange.ofScalar_cases "R" Full.ends).2.2 hall] at hresult
    cases hresult

end Device

end RegisterMap
