import RegisterMap.Device.Build.FlatTable
import RegisterMap.Device.Build.Register
import RegisterMap.Device.Build.ValueTable

/-!
# Building a device of a draft

The parts are checked from the outside to the inside: widths, name parts and the bus first, then
page after page, then the flat table and the value tables. The first fault ends the build.
-/

namespace RegisterMap

/-- **build** — a page of registers with words of the given width. -/
def Page.build (dataWidth : Nat) (d : Draft.Page) : Logged BuildFault Page := do
  Logged.ofExcept ((checkIdentifier "page" d.name).mapError .schema)
  let regs ← d.regs.mapM (Register.build dataWidth)
  pure ⟨d.name, regs, NameIndex.ofNames (regs.map Register.name)⟩

/-- **ofDraft** — the binding of a bus. At most one direction has a mask. -/
def BusBinding.ofDraft (d : Draft.Bus) : Except BuildFault BusBinding := do
  let write ← (d.writeMask.mapM (Draft.Scalar.natural "bus.wr_mask")).mapError .schema
  let read ← (d.readMask.mapM (Draft.Scalar.natural "bus.rd_mask")).mapError .schema
  match write, read with
  | some _, some _ => .error (.conflict .bothMasks)
  | some m, none => .ok ⟨d.kind, d.path, some (.write m)⟩
  | none, some m => .ok ⟨d.kind, d.path, some (.read m)⟩
  | none, none => .ok ⟨d.kind, d.path, none⟩

namespace Device

/-- **Settings** — what a device has beside its pages and tables. -/
structure Settings where
  addrWidth : Nat
  dataWidth : Nat
  fieldPrefix : List NamePart
  bus : BusBinding
  deriving DecidableEq, Repr

/-- **checkWidth** — a width from 1 to 64. -/
def checkWidth (what : String) (width : Nat) : Except SchemaFault Unit :=
  if 1 ≤ width ∧ width ≤ 64 then .ok () else .error (.badWidth what width)

/-- **settingsOf** — the settings of a draft. -/
def settingsOf (d : Draft.Device) : Except BuildFault Settings := do
  let addrWidth ← (d.addrWidth.natural "addr_width").mapError .schema
  let dataWidth ← (d.dataWidth.natural "data_width").mapError .schema
  (checkWidth "addr_width" addrWidth).mapError .schema
  (checkWidth "data_width" dataWidth).mapError .schema
  let fieldPrefix ← (d.fieldPrefix.mapM NamePart.ofText).mapError .schema
  let bus ← (d.bus.mapM BusBinding.ofDraft)
  .ok ⟨addrWidth, dataWidth, fieldPrefix, bus.getD {}⟩

/-- **build** — the device of a draft. -/
def build (d : Draft.Device) : Logged BuildFault Device := do
  let s ← Logged.ofExcept (settingsOf d)
  let pages ← d.pages.mapM (Page.build s.dataWidth)
  let (flat, flatIndex) ← FlatEntry.build d.pagePrefix pages
  let tables ← Logged.ofExcept ((ValueTable.build d.extra).mapError .schema)
  pure
    { name := d.name
      desc := d.desc.getD d.name
      regPrefix := d.regPrefix
      pagePrefix := d.pagePrefix
      fieldPrefix := s.fieldPrefix
      fieldMacros := d.fieldMacros
      addrWidth := s.addrWidth
      dataWidth := s.dataWidth
      bus := s.bus
      pages
      tables
      flat
      pageIndex := NameIndex.ofNames (pages.map Page.name)
      flatIndex }

/-- **ofText** — the device that the first document of a text describes. -/
def ofText (text : String) : Logged BuildFault Device := do
  let draft ← Logged.ofExcept ((Draft.Device.ofText text).mapError fun f => .schema (.document f))
  build draft

end Device

end RegisterMap
