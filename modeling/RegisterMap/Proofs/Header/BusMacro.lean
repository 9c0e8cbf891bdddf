import RegisterMap.Proofs.Header.Frame

/-!
# Bus macros — the frames of a header and those of its device

A header has one macro for frames that write and one for frames that read. Both put the address that
they are given above the bits of a word as it is, whereas the device drops the bits of an address
beyond its width. So the two have the same frames for the addresses of the bus; for a longer address
they do only if the bits that are dropped are set in all frames.

## § What is here

* `reader`, `readCall`, `evaluate_readCall` — the macro for frames that read, and its calls;
* `bus_macros` — both on the addresses that the header declares, against the frames of the device;
* `bus_macros_fail` — they are not always the same.
-/

namespace RegisterMap.Header

namespace Scope

/-! ## § The macro that reads -/

/-- **readBody** — the body of the macro for frames that read. -/
def readBody (s : Scope) : Expr := frameBody s.device.readMask? [s.addressTerm]

/-- **reader** — the macro for frames that read. -/
def reader (s : Scope) : Macro := ⟨s.readName, ["a"], s.readBody.tokens⟩

theorem reader_eq (s : Scope) : Macro.ofDeclaration? s.readMacro = some s.reader := rfl

theorem ranked_readBody (s : Scope) : s.readBody.Ranked ["a"] 0 := by
  apply ranked_frameBody s.device.readMask? (by simp)
  simp [addressTerm, Expr.RankedAll, Expr.Ranked, Expr.IsName, Operator.rank]

/-- The body is a frame without a word. -/
theorem value_readBody (s : Scope) {numbers : String → Option Nat} {addr : Nat}
    (ha : numbers "a" = some addr) :
    s.readBody.value numbers
      = some (s.device.readMask?.getD 0 ||| (addr <<< s.device.dataWidth)) := by
  have hterms : Expr.values numbers [s.addressTerm] = some [addr <<< s.device.dataWidth] := by
    rw [Expr.values, s.value_addressTerm ha]
    rfl
  exact value_frameBody s.device.readMask? hterms

/-- **readCall** — the macro for frames that read with the name of an address. -/
def readCall (s : Scope) (address : String) : List Token := callOf s.readName [[.name address]]

/-- A call of it stands for the frame of the address, if its name stands for the macro. -/
theorem evaluate_readCall {s : Scope} {ds : List Declaration} {numbers : String → Option Nat}
    {address : String} {a : Nat} (hreader : s.reader ∈ macros ds)
    (ha : numbers address = some a) :
    evaluate ds numbers (s.readCall address) = if Agree ds s.readName then
        some (s.device.readMask?.getD 0 ||| (a <<< s.device.dataWidth))
      else none := by
  have hvalue : (s.readBody.subst (Macro.argument? ["a"] [.name address])).value numbers
      = some (s.device.readMask?.getD 0 ||| (a <<< s.device.dataWidth)) := by
    rw [Expr.value_subst]
    exact s.value_readBody ha
  rw [← hvalue]
  exact evaluate_call hreader (by decide) rfl (List.cons_ne_nil _ _) s.ranked_readBody
    (ranked_variable address) numbers

end Scope

/-! ## § The macros against the device -/

/-- **Bus macros.** In the header of an accepted description each entry of the flat table has its
address under its identifier. Take the macros of the header together. If nothing else is declared
under its name, the macro for frames that write, called with that identifier and a word, gives the
bits of all frames with the whole address and the bits of the word; and the macro for frames that
read gives those with the whole address. These are the frames of the device, for any word, exactly
when the bits of the address beyond its width are set in all frames; so they are for every address
that has no such bits. -/
theorem bus_macros {text header : String} {d : Device} {title : HeaderName}
    (haccepted : (Device.ofText text).result = .ok d)
    (hgenerated : (generate d title).result = .ok header) :
    let s : Scope := ⟨d, title⟩
    ∃ ds, s.Prints header ds ∧ s.addressEnum ∈ ds ∧ s.writeMacro ∈ ds ∧ s.readMacro ∈ ds ∧
      ∀ e ∈ d.flat, (d.registerIdent e.name, .hex e.addr) ∈ s.addressEnum.entries ∧
        ∀ numbers, numbers (d.registerIdent e.name) = (Literal.hex e.addr).read →
          (Agree ds s.writeName → ∀ v, ∃ frame,
            evaluate ds numbers (s.frameCall (d.registerIdent e.name) (.decimal v)) = some frame ∧
              frame = (d.writeMask?.getD 0 ||| (e.addr <<< d.dataWidth) ||| (v &&& d.dataMask)) ∧
              (frame = d.writeFrame e.addr v ↔ d.Framed d.writeMask? e.addr)) ∧
          (Agree ds s.readName → ∃ frame,
            evaluate ds numbers (s.readCall (d.registerIdent e.name)) = some frame ∧
              frame = (d.readMask?.getD 0 ||| (e.addr <<< d.dataWidth)) ∧
              (frame = d.readFrame e.addr ↔ d.Framed d.readMask? e.addr)) ∧
          (e.addr < capacity d.addrWidth →
            d.Framed d.writeMask? e.addr ∧ d.Framed d.readMask? e.addr) := by
  intro s
  have hd := Device.sound_of_ofText haccepted
  have hwrite := s.writeMacro_mem_layout
  have hread := s.readMacro_mem_layout
  refine ⟨s.layout, prints_of_generate hgenerated, s.addressEnum_mem_layout, hwrite, hread,
    fun e he => ⟨List.mem_map_of_mem he, ?_⟩⟩
  intro numbers hnumbers
  have ha : numbers (d.registerIdent e.name) = some e.addr :=
    hnumbers.trans (Literal.read_eq (.hex e.addr))
  refine ⟨fun hagree v => ⟨_, ?_, rfl, Device.writeFrame_eq_iff hd e.addr v⟩,
    fun hagree => ⟨_, ?_, rfl, Device.readFrame_eq_iff hd e.addr⟩, fun haddr => ?_⟩
  · have hword : (Expr.decimal v).Ranked [] 0 := trivial
    rw [Scope.evaluate_frameCall (mem_macros hwrite s.writer_eq) hword ha rfl, if_pos hagree]
  · rw [Scope.evaluate_readCall (mem_macros hread s.reader_eq) ha, if_pos hagree]
  · exact ⟨Device.framed_of_lt _ haddr, Device.framed_of_lt _ haddr⟩

open Sample in
/-- The register of one word in the sample header, the address of which is one of the bus. -/
theorem bus_macros_ctrl :
    ∃ ds, scope.Prints header ds ∧
      evaluate ds numbers (scope.frameCall "CTRL" (.decimal 0x1ab))
        = some (device.writeFrame 0x10 0x1ab) ∧
      evaluate ds numbers (scope.readCall "CTRL") = some (device.readFrame 0x10) := by
  obtain ⟨ds, hprints, -, -, -, hentries⟩ := bus_macros accepted generated
  have hentry : (⟨"CTRL", 0x10, none, 0, 0⟩ : FlatEntry) ∈ device.flat := by decide
  obtain ⟨-, hframes⟩ := hentries _ hentry
  obtain ⟨hwrite, hread, hfits⟩ := hframes numbers (by decide)
  obtain ⟨hwriteFits, hreadFits⟩ := hfits (by decide)
  have hlayout := hprints.eq_layout
  have hwriteName : Agree ds scope.writeName := by
    rw [hlayout]
    decide +kernel
  have hreadName : Agree ds scope.readName := by
    rw [hlayout]
    decide +kernel
  obtain ⟨written, hwritten, -, hwrittenFrame⟩ := hwrite hwriteName 0x1ab
  obtain ⟨read, hread, -, hreadFrame⟩ := hread hreadName
  exact ⟨ds, hprints, hwritten.trans (congrArg some (hwrittenFrame.2 hwriteFits)),
    hread.trans (congrArg some (hreadFrame.2 hreadFits))⟩

namespace Narrow

/-- **text** — a device with a register beyond the addresses of its bus. -/
def text : String :=
  "name: Narrow\naddr_width: 4\ndata_width: 8\npages:\n- name: Main\n  regs:\n  - name: FAR\n"
    ++ "    addr: 0x10\n"

/-- **far** — its register. -/
def far : Register where
  name := "FAR"
  addrHi := 0x10
  addrLo := 0x10
  bigOrder := false
  fields := [⟨"VALUE", "FAR", .range 7 0, BitMask.ofRange 0 8, .ones 8, {}⟩]
  fieldIndex := .ofNames ["VALUE"]

/-- **device** — what the text describes. -/
def device : Device where
  name := "Narrow"
  desc := "Narrow"
  regPrefix := ""
  pagePrefix := false
  fieldPrefix := []
  fieldMacros := false
  addrWidth := 4
  dataWidth := 8
  bus := {}
  pages := [⟨"Main", [far], .ofNames ["FAR"]⟩]
  tables := []
  flat := [⟨"FAR", 0x10, none, 0, 0⟩]
  pageIndex := .ofNames ["Main"]
  flatIndex := .ofNames ["FAR"]

theorem accepted : (Device.ofText text).result = .ok device :=
  Device.ofText_of_chars (Text.ofList_parts rfl rfl) (by decide +kernel)

/-- **scope** — the device with a header. -/
def scope : Scope := ⟨device, ⟨"dev"⟩⟩

/-- **header** — the header of the device. -/
def header : String :=
  "enum dev_regs_t \x7b\n    FAR = 0x10,\n\x7d;\n"
    ++ "#define MAKE_DEV_REG_WR(a, v) (((a) << 8) | ((v) & 0xff))\n"
    ++ "#define MAKE_DEV_REG_RD(a) (((a) << 8))\n"
    ++ "// Register R16 [0x10] -- FAR\n\n"

theorem generated : (generate device ⟨"dev"⟩).result = .ok header := by decide +kernel

/-- **numbers** — the only name of the header with its number. -/
def numbers (name : String) : Option Nat := [("FAR", 0x10)].lookup name

end Narrow

open Narrow in
/-- The macros and the device do not have the same frames for every register: with addresses of four
bits, a register at `0x10` is at `0x0` for the device, and at `0x10` in the frames of its header. -/
theorem bus_macros_fail :
    (Device.ofText text).result = .ok device ∧ ∃ ds, scope.Prints header ds ∧
      numbers "FAR" = (Literal.hex 0x10).read ∧
      evaluate ds numbers (scope.frameCall "FAR" (.decimal 1)) = some 0x1001 ∧
      device.writeFrame 0x10 1 = 0x1 ∧
      evaluate ds numbers (scope.readCall "FAR") = some 0x1000 ∧ device.readFrame 0x10 = 0 :=
  ⟨accepted, _, prints_of_generate generated, by decide, by decide +kernel, by decide,
    by decide +kernel, by decide⟩

end RegisterMap.Header
