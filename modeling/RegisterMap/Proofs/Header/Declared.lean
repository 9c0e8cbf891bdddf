import RegisterMap.Proofs.Device.Words
import RegisterMap.Proofs.Header.Name
import RegisterMap.Proofs.Header.Written

/-!
# Declared — what a header has for a register

A header that is generated at all has everything for every register: the declarations of the bus,
and those of the register where it stands. This module names the ones that construct a register, and
finds the address of each word among the addresses that the header declares.

## § What is here

* `mem_singleMacro`, `mem_longMacro`, `mem_wordMacro` — the declarations that construct a register;
* `mem_addressEnum_single`, `mem_addressEnum_word` — the addresses of its words;
* `Place.Emitted` — a register of an accepted description with a header;
* `Sample`, `Rival` — two devices: one without clashes, and one that declares a macro twice.
-/

namespace RegisterMap.Header

/-! ## § Declarations of the bus -/

theorem Scope.addressEnum_mem_layout (s : Scope) : s.addressEnum ∈ s.layout :=
  List.mem_append_left _ (List.mem_append_left _ (by simp))

theorem Scope.writeMacro_mem_layout (s : Scope) : s.writeMacro ∈ s.layout :=
  List.mem_append_left _ (List.mem_append_left _ (by simp))

theorem Scope.readMacro_mem_layout (s : Scope) : s.readMacro ∈ s.layout :=
  List.mem_append_left _ (List.mem_append_left _ (by simp))

/-! ## § Declarations of a register -/

namespace Place

variable {p : Place}

/-- A register that is no lone value has the lowest bits and masks of its fields. -/
theorem fieldEnum_mem_declared (hvalue : p.reg.isValueOnly = false) : p.fieldEnum ∈ p.declared :=
  List.mem_append_left _ (mem_introduction.2 (.inr (.inr ⟨hvalue, .inr (.inl rfl)⟩)))

/-- A register of one word that is not a lone value has a macro for its frame. -/
theorem mem_singleMacro (hone : p.reg.wordCount = 1) (hlone : p.reg.isSingleValue = false) :
    p.fieldEnum ∈ p.declared ∧ p.singleMacro ∈ p.declared := by
  have hvalue : p.reg.isValueOnly = false := by
    rw [Register.isSingleValue, hone] at hlone
    simpa using hlone
  exact ⟨fieldEnum_mem_declared hvalue,
    List.mem_append_right _ (mem_construction.2 (.inl ⟨hone, hvalue, rfl⟩))⟩

/-- A longer register has a macro for each of its words. -/
theorem mem_wordMacro (hmany : p.reg.wordCount ≠ 1) {u : Nat} (hu : u < p.reg.wordCount) :
    p.wordMacro u ∈ p.declared :=
  List.mem_append_right _ (mem_construction.2 (.inr ⟨hmany, .inr ⟨u, hu, rfl⟩⟩))

/-- A longer register with several fields has a macro for its whole value. -/
theorem mem_longMacro (hmany : p.reg.wordCount ≠ 1) (hfields : 2 ≤ p.reg.fields.length) :
    p.fieldEnum ∈ p.declared ∧ p.longMacro ∈ p.declared :=
  ⟨fieldEnum_mem_declared (isValueOnly_of_length hfields),
    List.mem_append_right _ (mem_construction.2 (.inr ⟨hmany, .inl ⟨hfields, rfl⟩⟩))⟩

/-! ## § Addresses -/

/-- The header declares the address of a register of one word under its identifier. -/
theorem mem_addressEnum_single (hd : p.device.Sound) (hpage : p.page ∈ p.device.pages)
    (hreg : p.reg ∈ p.page.regs) (hone : p.reg.wordCount = 1) :
    (p.address, Literal.hex p.reg.addrLo) ∈ p.addressEnum.entries := by
  obtain ⟨e, he, hname, haddr⟩ := Device.exists_entry_single hd hpage hreg hone
  refine List.mem_map.2 ⟨e, he, ?_⟩
  rw [hname, haddr]
  rfl

/-- The header declares the address of each word of a longer register under its identifier. -/
theorem mem_addressEnum_word (hd : p.device.Sound) (hpage : p.page ∈ p.device.pages)
    (hreg : p.reg ∈ p.page.regs) (hmany : p.reg.wordCount ≠ 1) {u a : Nat}
    (ha : a ∈ p.reg.addresses) (hu : p.reg.significance? a = some u) :
    (p.address ++ ("_BY" ++ Text.decimal u), Literal.hex a) ∈ p.addressEnum.entries := by
  obtain ⟨e, he, hname, haddr⟩ := Device.exists_entry_word hd hpage hreg hmany ha hu
  refine List.mem_map.2 ⟨e, he, ?_⟩
  rw [hname, haddr, Device.registerIdent, address, Device.registerIdent]
  simp only [String.append_assoc]
  rfl

/-! ## § Emitted registers -/

/-- **Emitted** — a register of an accepted description for which a header is generated. -/
structure Emitted (p : Place) (text header : String) : Prop where
  accepted : (Device.ofText text).result = .ok p.device
  generated : (generate p.device p.title).result = .ok header
  page_mem : p.page ∈ p.device.pages
  reg_mem : p.reg ∈ p.page.regs

namespace Emitted

variable {text header : String}

theorem device_sound (h : p.Emitted text header) : p.device.Sound :=
  Device.sound_of_ofText h.accepted

theorem reg_sound (h : p.Emitted text header) : p.reg.Sound p.device.dataWidth :=
  (h.device_sound.pages p.page h.page_mem).regs p.reg h.reg_mem

theorem prints (h : p.Emitted text header) : p.toScope.Prints header p.toScope.layout :=
  prints_of_generate h.generated

theorem mem_places (h : p.Emitted text header) : p ∈ p.toScope.places :=
  Scope.mem_places.2 ⟨rfl, h.page_mem, h.reg_mem⟩

theorem constructible (h : p.Emitted text header) : p.Constructible :=
  (generate_eq_ok.1 h.generated).1 p h.mem_places

/-- The header has the declarations of the register. -/
theorem mem_layout (h : p.Emitted text header) {d : Declaration} (hd : d ∈ p.declared) :
    d ∈ p.toScope.layout :=
  List.mem_append_right _ (List.mem_flatMap.2 ⟨p, h.mem_places, hd⟩)

end Emitted

end Place

/-! ## § Two small devices -/

namespace Sample

/-- **text** — a device with two registers: one word with listed bits, and two words whose lowest
bits are free. -/
def text : String :=
  "name: Sample\naddr_width: 8\ndata_width: 8\nbus:\n  wr_mask: 0x10000\npages:\n- name: Main\n"
    ++ "  regs:\n  - name: CTRL\n    addr: 0x10\n    fields:\n    - name: EN\n      bits: 0\n"
    ++ "    - name: MODE\n      bits: \"5,2\"\n  - name: PLL\n    addr: \"0x30:0x31\"\n"
    ++ "    fields:\n    - name: N\n      bits: \"11:4\"\n    - name: HI\n      bits: \"15:12\"\n"

/-- **field** — a field without labels. -/
def field (name : String) (bits : BitSpec) (width : Nat) : Field :=
  ⟨name, name, bits, bits.mask, .ones width, {}⟩

/-- **control** — the register of one word. -/
def control : Register where
  name := "CTRL"
  addrHi := 0x10
  addrLo := 0x10
  bigOrder := false
  fields := [field "MODE" (.list [5, 2]) 2, field "EN" (.range 0 0) 1]
  fieldIndex := .ofNames ["MODE", "EN"]

/-- **loop** — the register of two words. -/
def loop : Register where
  name := "PLL"
  addrHi := 0x31
  addrLo := 0x30
  bigOrder := true
  fields := [field "HI" (.range 15 12) 4, field "N" (.range 11 4) 8]
  fieldIndex := .ofNames ["HI", "N"]

/-- A value with bits of its fields only. -/
theorem loop_holds : ∀ b, (0xabc0 : Nat).testBit b → loop.valueMask.contains b := by
  intro b hb
  have hinside : 0xabc0 = 0xabc0 &&& loop.valueMask.toNat := by decide
  rw [hinside, Nat.testBit_and, Bool.and_eq_true] at hb
  rw [BitMask.contains_eq_testBit]
  exact hb.2

/-- **page** — the only page. -/
def page : Page := ⟨"Main", [control, loop], .ofNames ["CTRL", "PLL"]⟩

/-- **device** — what the text describes. -/
def device : Device where
  name := "Sample"
  desc := "Sample"
  regPrefix := ""
  pagePrefix := false
  fieldPrefix := []
  fieldMacros := false
  addrWidth := 8
  dataWidth := 8
  bus := { mask := some (.write 0x10000) }
  pages := [page]
  tables := []
  flat := FlatEntry.ofPages false [page]
  pageIndex := .ofNames ["Main"]
  flatIndex := .ofNames ["CTRL", "PLL_BY0", "PLL_BY1"]

/-- **header** — the header of the device. -/
def header : String :=
  "enum dev_regs_t \x7b\n    CTRL = 0x10,\n    PLL_BY0 = 0x30,\n    PLL_BY1 = 0x31,\n\x7d;\n"
    ++ "#define MAKE_DEV_REG_WR(a, v) (0x10000 | ((a) << 8) | ((v) & 0xff))\n"
    ++ "#define MAKE_DEV_REG_RD(a) (((a) << 8))\n"
    ++ "// Register R16 [0x10] -- CTRL\n\n"
    ++ "enum ctrl_fields_t \x7b\n    MODE_OFF = 0x2,\n    MODE_MSK = 0x24,\n    EN_OFF = 0x0,\n"
    ++ "    EN_MSK = 0x1,\n\x7d;\n"
    ++ "#define MAKE_DEV_CTRL(mode, en) MAKE_DEV_REG_WR(CTRL, \\\n"
    ++ "    ((((((mode) >> 1) & 0x1) << 5) | ((((mode) >> 0) & 0x1) << 2)) & MODE_MSK) |  \\\n"
    ++ "    (((en) << EN_OFF) & EN_MSK))\n"
    ++ "// Register R48 [0x30] -- PLL\n\n"
    ++ "enum pll_fields_t \x7b\n    HI_OFF = 0xc,\n    HI_MSK = 0xf000,\n    N_OFF = 0x4,\n"
    ++ "    N_MSK = 0xff0,\n\x7d;\n"
    ++ "#define MAKE_DEV_PLL_LONG(hi, n) ( \\\n    (((hi) << HI_OFF) & HI_MSK) |  \\\n"
    ++ "    (((n) << N_OFF) & N_MSK))\n"
    ++ "#define MAKE_DEV_PLL_BY0(value) MAKE_DEV_REG_WR(PLL_BY0, (((value) >> 4) & 0xff))\n"
    ++ "#define MAKE_DEV_PLL_BY1(value) MAKE_DEV_REG_WR(PLL_BY1, (((value) << 4) & 0xf0))\n"

/-- **numbers** — the names of the header with their numbers. -/
def numbers (name : String) : Option Nat :=
  [("CTRL", 0x10), ("PLL_BY0", 0x30), ("PLL_BY1", 0x31), ("MODE_OFF", 2), ("MODE_MSK", 0x24),
    ("EN_OFF", 0), ("EN_MSK", 1), ("HI_OFF", 12), ("HI_MSK", 0xf000), ("N_OFF", 4),
    ("N_MSK", 0xff0)].lookup name

theorem accepted : (Device.ofText text).result = .ok device :=
  Device.ofText_of_chars (Text.ofList_parts (Text.ofList_parts (Text.ofList_parts rfl rfl) rfl) rfl)
    (by decide +kernel)

theorem generated : (generate device ⟨"dev"⟩).result = .ok header := by decide +kernel

/-- **scope** — the device with its header. -/
def scope : Scope := ⟨device, ⟨"dev"⟩⟩

/-- **ctrl** — the register of one word where it stands. -/
def ctrl : Place := ⟨scope, page, control⟩

/-- **pll** — the register of two words where it stands. -/
def pll : Place := ⟨scope, page, loop⟩

theorem emitted_ctrl : ctrl.Emitted text header :=
  ⟨accepted, generated, by decide, by decide⟩

theorem emitted_pll : pll.Emitted text header :=
  ⟨accepted, generated, by decide, by decide⟩

theorem declares_ctrl : Declares ctrl.fieldEnum numbers := by decide

theorem declares_pll : Declares pll.fieldEnum numbers := by decide

end Sample

namespace Rival

/-- **text** — a device with a register that is called like the macro for frames, beside the longer
register of the sample. -/
def text : String :=
  "name: Rival\naddr_width: 8\ndata_width: 8\npages:\n- name: Main\n  regs:\n  - name: REG_WR\n"
    ++ "    addr: 0\n    fields:\n    - name: RUN\n      bits: 0\n  - name: PLL\n"
    ++ "    addr: \"0x30:0x31\"\n    fields:\n    - name: N\n      bits: \"11:4\"\n"
    ++ "    - name: HI\n      bits: \"15:12\"\n"

/-- **control** — the register with that name. -/
def control : Register where
  name := "REG_WR"
  addrHi := 0
  addrLo := 0
  bigOrder := false
  fields := [Sample.field "RUN" (.range 0 0) 1]
  fieldIndex := .ofNames ["RUN"]

/-- **page** — the only page. -/
def page : Page := ⟨"Main", [control, Sample.loop], .ofNames ["REG_WR", "PLL"]⟩

/-- **device** — what the text describes. -/
def device : Device where
  name := "Rival"
  desc := "Rival"
  regPrefix := ""
  pagePrefix := false
  fieldPrefix := []
  fieldMacros := false
  addrWidth := 8
  dataWidth := 8
  bus := {}
  pages := [page]
  tables := []
  flat := FlatEntry.ofPages false [page]
  pageIndex := .ofNames ["Main"]
  flatIndex := .ofNames ["REG_WR", "PLL_BY0", "PLL_BY1"]

/-- **header** — the header of the device, where a macro is redefined. -/
def header : String :=
  "enum dev_regs_t \x7b\n    REG_WR = 0x0,\n    PLL_BY0 = 0x30,\n    PLL_BY1 = 0x31,\n\x7d;\n"
    ++ "#define MAKE_DEV_REG_WR(a, v) (((a) << 8) | ((v) & 0xff))\n"
    ++ "#define MAKE_DEV_REG_RD(a) (((a) << 8))\n"
    ++ "// Register R0 [0x0] -- REG_WR\n\n"
    ++ "enum reg_wr_fields_t \x7b\n    RUN_OFF = 0x0,\n    RUN_MSK = 0x1,\n\x7d;\n"
    ++ "#define MAKE_DEV_REG_WR(run) MAKE_DEV_REG_WR(REG_WR, \\\n"
    ++ "    (((run) << RUN_OFF) & RUN_MSK))\n"
    ++ "// Register R48 [0x30] -- PLL\n\n"
    ++ "enum pll_fields_t \x7b\n    HI_OFF = 0xc,\n    HI_MSK = 0xf000,\n    N_OFF = 0x4,\n"
    ++ "    N_MSK = 0xff0,\n\x7d;\n"
    ++ "#define MAKE_DEV_PLL_LONG(hi, n) ( \\\n    (((hi) << HI_OFF) & HI_MSK) |  \\\n"
    ++ "    (((n) << N_OFF) & N_MSK))\n"
    ++ "#define MAKE_DEV_PLL_BY0(value) MAKE_DEV_REG_WR(PLL_BY0, (((value) >> 4) & 0xff))\n"
    ++ "#define MAKE_DEV_PLL_BY1(value) MAKE_DEV_REG_WR(PLL_BY1, (((value) << 4) & 0xf0))\n"

/-- **numbers** — the names of the header with their numbers. -/
def numbers (name : String) : Option Nat :=
  [("REG_WR", 0), ("PLL_BY0", 0x30), ("PLL_BY1", 0x31), ("RUN_OFF", 0), ("RUN_MSK", 1),
    ("HI_OFF", 12), ("HI_MSK", 0xf000), ("N_OFF", 4), ("N_MSK", 0xff0)].lookup name

theorem accepted : (Device.ofText text).result = .ok device :=
  Device.ofText_of_chars (Text.ofList_parts (Text.ofList_parts (Text.ofList_parts rfl rfl) rfl) rfl)
    (by decide +kernel)

theorem generated : (generate device ⟨"dev"⟩).result = .ok header := by decide +kernel

/-- **scope** — the device with its header. -/
def scope : Scope := ⟨device, ⟨"dev"⟩⟩

/-- **ctrl** — the register that is called like the macro where it stands. -/
def ctrl : Place := ⟨scope, page, control⟩

/-- **pll** — the register of two words where it stands. -/
def pll : Place := ⟨scope, page, Sample.loop⟩

theorem emitted_ctrl : ctrl.Emitted text header :=
  ⟨accepted, generated, by decide, by decide⟩

theorem emitted_pll : pll.Emitted text header :=
  ⟨accepted, generated, by decide, by decide⟩

end Rival

end RegisterMap.Header
