import RegisterMap.Yaml.Reader

/-!
# Drafts — descriptions as they are written

A draft has the shape of a description, but nothing in it has been checked: names may be anything,
numbers may be texts, and fields may lie anywhere.

## § Reading

A document is read in the order of its text. Fields with fixed names come once at most; the device
keeps all other keys with their values, pages, registers, fields and the bus pass over them.
-/

namespace RegisterMap.Draft

/-- **Scalar** — a number of 64 bits, or a text that may spell one. -/
inductive Scalar where
  | number (n : UInt64)
  | text (s : String)
  deriving DecidableEq, Repr

/-- **Field** — a field as it is written. -/
structure Field where
  name : String
  desc : Option String
  bits : Scalar
  opts : Option (List (Yaml.Value × Yaml.Value))

/-- **Register** — a register as it is written. -/
structure Register where
  name : String
  addr : Scalar
  fields : Option (List Field)

/-- **Page** — a page as it is written. -/
structure Page where
  name : String
  regs : List Register

/-- **Bus** — the binding of a bus as it is written. -/
structure Bus where
  kind : Option String
  path : Option String
  writeMask : Option Scalar
  readMask : Option Scalar

/-- **Device** — a device as it is written. -/
structure Device where
  name : String
  desc : Option String
  regPrefix : String
  pagePrefix : Bool
  fieldPrefix : List String
  fieldMacros : Bool
  addrWidth : Scalar
  dataWidth : Scalar
  bus : Option Bus
  pages : List Page
  /-- Keys that have no meaning of their own, with their values, in the order of the text. -/
  extra : List (Yaml.Value × Yaml.Value)

open Yaml (Node Reader Value)
open Yaml.Reader

/-! ## § Scalars -/

/-- **ofValue?** — a value as a number or a text. -/
def Scalar.ofValue? : Value → Option Scalar
  | .number n => n.natural.map fun k => .number (UInt64.ofNat k)
  | .text s => some (.text s)
  | _ => none

/-- **readScalar** — a number or a text. -/
def readScalar (depth : Nat) (n : Node) : Reader Scalar := do
  match Scalar.ofValue? (← value .forLater depth n) with
  | some s => pure s
  | none => fail (.noVariant "RawScalar")

/-! ## § Fields -/

/-- **FieldParts** — what has been read of a field. -/
structure FieldParts where
  name : Option String := none
  desc : Option (Option String) := none
  bits : Option Scalar := none
  opts : Option (Option (List (Value × Value))) := none

/-- **readFieldPart** — one entry of a field. -/
def readFieldPart (depth : Nat) (p : FieldParts) (key : String) (n : Node) : Reader FieldParts :=
  match key with
  | "name" => do pure { p with name := ← once key p.name (text n) }
  | "desc" => do pure { p with desc := ← once key p.desc (optional text n) }
  | "bits" => do pure { p with bits := ← once key p.bits (readScalar depth n) }
  | "opts" => do pure { p with opts := ← once key p.opts (optional (mapping depth) n) }
  | _ => do
    ignore n
    pure p

/-- **readField** — a field. -/
def readField (depth : Nat) (n : Node) : Reader Field := do
  let p ← fields "struct RawField" {} readFieldPart depth n
  let name ← required "name" p.name
  let bits ← required "bits" p.bits
  pure ⟨name, p.desc.join, bits, p.opts.join⟩

/-! ## § Registers -/

/-- **RegisterParts** — what has been read of a register. -/
structure RegisterParts where
  name : Option String := none
  addr : Option Scalar := none
  fields : Option (Option (List Field)) := none

/-- **readRegisterPart** — one entry of a register. -/
def readRegisterPart (depth : Nat) (p : RegisterParts) (key : String) (n : Node) :
    Reader RegisterParts :=
  match key with
  | "name" => do pure { p with name := ← once key p.name (text n) }
  | "addr" => do pure { p with addr := ← once key p.addr (readScalar depth n) }
  | "fields" => do
    pure { p with fields := ← once key p.fields (optional (sequence readField depth) n) }
  | _ => do
    ignore n
    pure p

/-- **readRegister** — a register. -/
def readRegister (depth : Nat) (n : Node) : Reader Register := do
  let p ← fields "struct RawReg" {} readRegisterPart depth n
  let name ← required "name" p.name
  let addr ← required "addr" p.addr
  pure ⟨name, addr, p.fields.join⟩

/-! ## § Pages -/

/-- **PageParts** — what has been read of a page. -/
structure PageParts where
  name : Option String := none
  regs : Option (List Register) := none

/-- **readPagePart** — one entry of a page. -/
def readPagePart (depth : Nat) (p : PageParts) (key : String) (n : Node) : Reader PageParts :=
  match key with
  | "name" => do pure { p with name := ← once key p.name (text n) }
  | "regs" => do pure { p with regs := ← once key p.regs (sequence readRegister depth n) }
  | _ => do
    ignore n
    pure p

/-- **readPage** — a page. -/
def readPage (depth : Nat) (n : Node) : Reader Page := do
  let p ← fields "struct RawPage" {} readPagePart depth n
  let name ← required "name" p.name
  let regs ← required "regs" p.regs
  pure ⟨name, regs⟩

/-! ## § The bus -/

/-- **BusParts** — what has been read of the binding of a bus. -/
structure BusParts where
  kind : Option (Option String) := none
  path : Option (Option String) := none
  writeMask : Option (Option Scalar) := none
  readMask : Option (Option Scalar) := none

/-- **readBusPart** — one entry of the binding of a bus. The path has two names. -/
def readBusPart (depth : Nat) (p : BusParts) (key : String) (n : Node) : Reader BusParts :=
  match key with
  | "type" => do pure { p with kind := ← once key p.kind (optional text n) }
  | "path" | "usdr_path" => do pure { p with path := ← once "path" p.path (optional text n) }
  | "wr_mask" => do
    pure { p with writeMask := ← once key p.writeMask (optional (readScalar depth) n) }
  | "rd_mask" => do
    pure { p with readMask := ← once key p.readMask (optional (readScalar depth) n) }
  | _ => do
    ignore n
    pure p

/-- **readBus** — the binding of a bus. -/
def readBus (depth : Nat) (n : Node) : Reader Bus := do
  let p ← fields "struct RawBus" {} readBusPart depth n
  pure ⟨p.kind.join, p.path.join, p.writeMask.join, p.readMask.join⟩

/-! ## § The device -/

/-- **DeviceParts** — what has been read of a device; the extra entries come last one first. -/
structure DeviceParts where
  name : Option String := none
  desc : Option (Option String) := none
  regPrefix : Option String := none
  pagePrefix : Option Bool := none
  fieldPrefix : Option (List String) := none
  fieldMacros : Option Bool := none
  addrWidth : Option Scalar := none
  dataWidth : Option Scalar := none
  bus : Option (Option Bus) := none
  pages : Option (List Page) := none
  extra : List (Value × Value) := []

/-- **readDevicePart** — one entry of a device. -/
def readDevicePart (depth : Nat) (p : DeviceParts) (key : String) (n : Node) :
    Reader DeviceParts :=
  match key with
  | "name" => do pure { p with name := ← once key p.name (text n) }
  | "desc" => do pure { p with desc := ← once key p.desc (optional text n) }
  | "reg_prefix" => do pure { p with regPrefix := ← once key p.regPrefix (text n) }
  | "page_prefix" => do pure { p with pagePrefix := ← once key p.pagePrefix (bool n) }
  | "field_prefix" => do
    pure { p with fieldPrefix := ← once key p.fieldPrefix (sequence (fun _ => text) depth n) }
  | "field_macros" => do pure { p with fieldMacros := ← once key p.fieldMacros (bool n) }
  | "addr_width" => do pure { p with addrWidth := ← once key p.addrWidth (readScalar depth n) }
  | "data_width" => do pure { p with dataWidth := ← once key p.dataWidth (readScalar depth n) }
  | "bus" => do pure { p with bus := ← once key p.bus (optional (readBus depth) n) }
  | "pages" => do pure { p with pages := ← once key p.pages (sequence readPage depth n) }
  | _ => do pure { p with extra := (.text key, ← value .forLater depth n) :: p.extra }

/-- **readExtra** — the extra entries of a device, when no key is there twice. -/
def readExtra (p : DeviceParts) : Reader (List (Value × Value)) :=
  if (Value.mapping p.extra.reverse).distinctKeys then pure p.extra.reverse
  else unreadable .repeatedKey

/-- **readDevice** — a device. -/
def readDevice (n : Node) : Reader Device := do
  let p ← fields "struct RawTop" {} readDevicePart maxDepth n
  let name ← required "name" p.name
  let addrWidth ← required "addr_width" p.addrWidth
  let dataWidth ← required "data_width" p.dataWidth
  let pages ← required "pages" p.pages
  let extra ← readExtra p
  pure
    { name, addrWidth, dataWidth, pages, extra
      desc := p.desc.join
      regPrefix := p.regPrefix.getD ""
      pagePrefix := p.pagePrefix.getD false
      fieldPrefix := p.fieldPrefix.getD []
      fieldMacros := p.fieldMacros.getD false
      bus := p.bus.join }

/-- **ofText** — the draft in the first document of a text. -/
def Device.ofText (text : String) : Except Yaml.ReadFault Device :=
  run readDevice (Yaml.Document.ofText text.toList)

end RegisterMap.Draft
