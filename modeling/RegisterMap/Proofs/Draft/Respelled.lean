import RegisterMap.Proofs.Device.Build
import RegisterMap.Proofs.Draft.Scalar
import RegisterMap.Proofs.Text.Trim

/-!
# Spellings of a number — a description does not depend on which one it has

The widths, the masks and the addresses of a description are numbers or texts. A build asks each of
them for its number at one place, and finds the same number however it is written: in any base, with
blanks around it, with underscores between its digits or inside the mark of its base. From there on
it goes the same way, to the same device or to the same fault, and writes the same log.

An address is read from its text even when it is a number, and the text is split at colons before.
No number is written with a colon, so the detour leads to the number again.

## § What is here

* `Text.spells_iff` — the spellings of a number, said without reading them;
* `Scalar.Alike` — scalars that mean one number;
* `Register.Respelled`, `Page.Respelled`, `Bus.Respelled`, `Device.Respelled` — descriptions that
  differ in the spelling of their numbers only;
* `natural_eq_of_alike`, `ofScalar_eq_of_alike` — the two places where a build reads a number;
* `Device.spellings_interchangeable` — the builds of such descriptions are the same.
-/

namespace RegisterMap

open Outcome

/-! ## § Spellings -/

/-- A text spells a number when what stands between its outer blanks is, without underscores and in
small letters, the mark of a base, a plus sign or none, and digits of this base for the number. -/
theorem Text.spells_iff {cs : List Char} {n : Nat} : Spells cs n ↔ n < capacity 64 ∧
    ∃ core, Trims cs core ∧ ∃ m ∈ Integer.marks, ∃ plus, (plus = [] ∨ plus = ['+']) ∧
      ∃ digits, (core.filter (· ≠ '_')).map Char.toLower = m.1 ++ (plus ++ digits) ∧
        Denotes m.2 digits n := by
  rw [Spells]
  refine and_congr_right fun _ => ?_
  constructor
  · intro h
    exact ⟨trim cs, trims_trim cs, h⟩
  · rintro ⟨core, hcore, h⟩
    obtain rfl := trims_iff.1 hcore
    exact h

namespace Draft

/-- **Alike** — scalars that are the same, or mean the same number. -/
inductive Scalar.Alike : Scalar → Scalar → Prop where
  | same (s : Scalar) : Alike s s
  | number {s t : Scalar} {n : Nat} (left : s.Means n) (right : t.Means n) : Alike s t

/-- **Respelled** — registers that differ in the spelling of their address only. -/
def Register.Respelled (d e : Register) : Prop :=
  ∃ addr, d.addr.Alike addr ∧ { d with addr } = e

/-- **Respelled** — pages whose registers differ in the spelling of their addresses only. -/
def Page.Respelled (d e : Page) : Prop :=
  ∃ regs, List.Forall₂ Register.Respelled d.regs regs ∧ { d with regs } = e

/-- **Respelled** — bindings of a bus that differ in the spelling of their masks only. -/
def Bus.Respelled (d e : Bus) : Prop :=
  ∃ writeMask readMask, Option.Rel Scalar.Alike d.writeMask writeMask ∧
    Option.Rel Scalar.Alike d.readMask readMask ∧ { d with writeMask, readMask } = e

/-- **Respelled** — devices that differ in the spelling of their widths, masks and addresses
only. -/
def Device.Respelled (d e : Device) : Prop :=
  ∃ addrWidth dataWidth bus pages, d.addrWidth.Alike addrWidth ∧ d.dataWidth.Alike dataWidth ∧
    Option.Rel Bus.Respelled d.bus bus ∧ List.Forall₂ Page.Respelled d.pages pages ∧
    { d with addrWidth, dataWidth, bus, pages } = e

/-! ## § Where numbers are read -/

/-- A scalar that means a number names it as both ends of an address. -/
theorem Scalar.Means.ends {s : Scalar} {n : Nat} (h : s.Means n) : s.Ends n n := by
  cases s with
  | number k => exact ⟨h, rfl⟩
  | text s => exact .inl ⟨h, rfl⟩

theorem Scalar.natural_eq_of_alike {s t : Scalar} (h : s.Alike t) (what : String) :
    s.natural what = t.natural what := by
  cases h with
  | same => rfl
  | number hs ht => rw [natural_eq_ok.2 hs, natural_eq_ok.2 ht]

end Draft

/-- An address that means a number is this number, whether it is read as one or as a text. -/
theorem AddressRange.ofScalar_eq_of_alike {s t : Draft.Scalar} (h : s.Alike t) (register : String) :
    ofScalar register s = ofScalar register t := by
  cases h with
  | same => rfl
  | number hs ht =>
    rw [ofScalar, ofScalar, (readEnds_chars_eq_ok register).2 hs.ends,
      (readEnds_chars_eq_ok register).2 ht.ends]

/-! ## § What is built -/

/-- The addresses are all that a register takes from the spelling. -/
theorem Register.build_eq_of_respelled (dataWidth : Nat) {d e : Draft.Register}
    (h : d.Respelled e) : build dataWidth d = build dataWidth e := by
  obtain ⟨addr, haddr, rfl⟩ := h
  have hrange : rangeOf d = rangeOf { d with addr } := by
    rw [rangeOf, rangeOf, AddressRange.ofScalar_eq_of_alike haddr]
  rw [build, build, hrange]
  rfl

theorem Page.build_eq_of_respelled (dataWidth : Nat) {d e : Draft.Page} (h : d.Respelled e) :
    build dataWidth d = build dataWidth e := by
  obtain ⟨regs, hregs, rfl⟩ := h
  have hbuilt : d.regs.mapM (Register.build dataWidth) = regs.mapM (Register.build dataWidth) :=
    mapM_eq_of_forall₂ (f := Register.build dataWidth)
      (fun _ _ => Register.build_eq_of_respelled dataWidth) hregs
  simp only [build, hbuilt]

theorem BusBinding.ofDraft_eq_of_respelled {d e : Draft.Bus} (h : d.Respelled e) :
    ofDraft d = ofDraft e := by
  obtain ⟨writeMask, readMask, hwrite, hread, rfl⟩ := h
  have hmask : ∀ (what : String) {o o' : Option Draft.Scalar},
      Option.Rel Draft.Scalar.Alike o o' →
        o.mapM (Draft.Scalar.natural what) = o'.mapM (Draft.Scalar.natural what) := fun what =>
    option_mapM_eq_of_rel (f := Draft.Scalar.natural what)
      fun _ _ hs => Draft.Scalar.natural_eq_of_alike hs what
  simp only [ofDraft, hmask _ hwrite, hmask _ hread]

namespace Device

theorem settingsOf_eq_of_respelled {draft draft' : Draft.Device} (h : draft.Respelled draft') :
    settingsOf draft = settingsOf draft' := by
  obtain ⟨addrWidth, dataWidth, bus, pages, haddr, hdata, hbus, -, rfl⟩ := h
  have hbinding : draft.bus.mapM BusBinding.ofDraft = bus.mapM BusBinding.ofDraft :=
    option_mapM_eq_of_rel (f := BusBinding.ofDraft)
      (fun _ _ => BusBinding.ofDraft_eq_of_respelled) hbus
  simp only [settingsOf, Draft.Scalar.natural_eq_of_alike haddr,
    Draft.Scalar.natural_eq_of_alike hdata, hbinding]

/-- The same device or the same fault is built, with the same log. -/
theorem build_eq_of_respelled {draft draft' : Draft.Device} (h : draft.Respelled draft') :
    build draft = build draft' := by
  have hsettings := settingsOf_eq_of_respelled h
  obtain ⟨addrWidth, dataWidth, bus, pages, -, -, -, hpages, rfl⟩ := h
  have hbuilt : ∀ width,
      draft.pages.mapM (Page.build width) = pages.mapM (Page.build width) := fun width =>
    mapM_eq_of_forall₂ (f := Page.build width)
      (fun _ _ => Page.build_eq_of_respelled width) hpages
  rw [build, hsettings]
  simp only [hbuilt]
  rfl

/-- **Spellings are interchangeable.** A text is read as a number of 64 bits exactly when it spells
this number: between its blanks, without underscores and in small letters, it is the mark of a base
or none, a plus sign or none, and digits of this base that stand for the number. Every other text is
not read. A text that is read means the same as the number that it is read as, and descriptions
whose widths, masks and addresses mean the same numbers are built alike: to the same device or with
the same fault, and with the same log. -/
theorem spellings_interchangeable :
    (∀ (s : String) (n : Nat), Text.readInteger s.toList = some n ↔ n < 2 ^ 64 ∧
      ∃ core, Text.Trims s.toList core ∧
        ∃ m ∈ [([], 10), (['0', 'x'], 16), (['0', 'o'], 8), (['0', 'b'], 2)],
        ∃ plus, (plus = [] ∨ plus = ['+']) ∧
        ∃ digits, (core.filter (· ≠ '_')).map Char.toLower = m.1 ++ (plus ++ digits) ∧
          Text.Denotes m.2 digits n) ∧
    (∀ s : String, Text.readInteger s.toList = none ↔ ∀ n, ¬ Text.Spells s.toList n) ∧
    (∀ (k : UInt64) (s : String), Text.readInteger s.toList = some k.toNat →
      (Draft.Scalar.number k).Alike (.text s)) ∧
    ∀ draft draft' : Draft.Device, draft.Respelled draft' → build draft = build draft' := by
  refine ⟨fun s n => ?_, fun s => ?_, fun k s hread => ?_, fun draft draft' =>
    build_eq_of_respelled⟩
  · exact Text.readInteger_eq_some_iff.trans Text.spells_iff
  · rw [Option.eq_none_iff_forall_ne_some]
    exact forall_congr' fun n => not_congr Text.readInteger_eq_some_iff
  · exact .number rfl (Text.readInteger_eq_some_iff.1 hread)

end Device

/-! ## § A description in two spellings -/

namespace Dial

/-- **draft** — a device with one register, whose numbers are written in some way. -/
def draft (addrWidth dataWidth mask addr : Draft.Scalar) : Draft.Device where
  name := "Dial"
  desc := none
  regPrefix := ""
  pagePrefix := false
  fieldPrefix := []
  fieldMacros := false
  addrWidth
  dataWidth
  bus := some ⟨none, none, some mask, none⟩
  pages := [⟨"Main", [⟨"CTRL", addr, none⟩]⟩]
  extra := []

/-- **plain** — all numbers are written as such. -/
def plain : Draft.Device := draft (.number 8) (.number 16) (.number 32768) (.number 16)

/-- **spelled** — the same numbers as texts, in four bases. -/
def spelled : Draft.Device :=
  draft (.text " 0B1_000 ") (.text "0_X+1_0") (.text "0o10_0000") (.text "_+16")

end Dial

/-- A number may have an underscore inside the mark of its base, and a sign behind it. Written in
such ways, the description still gives a device, and the same one. -/
theorem Device.spellings_interchangeable_dial :
    Text.readInteger "0_X+1_0".toList = some 16 ∧ Dial.plain.Respelled Dial.spelled ∧
    build Dial.plain = build Dial.spelled ∧ ∃ d, (build Dial.spelled).result = .ok d := by
  obtain ⟨-, -, halike, hbuild⟩ := spellings_interchangeable
  have hwidth := halike 8 " 0B1_000 " (by decide +kernel)
  have hwords := halike 16 "0_X+1_0" (by decide +kernel)
  have hmask := halike 32768 "0o10_0000" (by decide +kernel)
  have haddr := halike 16 "_+16" (by decide +kernel)
  have hsame : Dial.plain.Respelled Dial.spelled :=
    ⟨_, _, _, _, hwidth, hwords, .some ⟨_, _, .some hmask, .none, rfl⟩,
      .cons ⟨_, .cons ⟨_, haddr, rfl⟩ .nil, rfl⟩ .nil, rfl⟩
  have hsome : (build Dial.plain).result.toOption.isSome = true := by decide +kernel
  obtain ⟨d, hd⟩ := Option.isSome_iff_exists.1 hsome
  have hequal := hbuild _ _ hsame
  refine ⟨by decide +kernel, hsame, hequal, d, ?_⟩
  rw [← hequal]
  exact toOption_eq_some.1 hd

end RegisterMap
