import RegisterMap.Device.Register

/-!
# Devices — pages of registers behind a bus

A device has pages, pages have registers. Beside the tree stands the *flat table*, one entry for
each word that has an address, and the value tables that the whole device shares.

## § Frames

The bus carries frames: an address above the bits of one data word, and for a write the word. One
direction may have bits that are set in each of its frames.
-/

namespace RegisterMap

/-- **Page** — a group of registers with a name. -/
structure Page where
  name : String
  regs : List Register
  /-- The places of the registers by name. -/
  regIndex : NameIndex
  deriving DecidableEq, Repr

/-- **register** — the first register of the page with the name. -/
def Page.register (p : Page) (name : String) : Except Missing Register :=
  match p.regIndex.find? p.regs name with
  | some r => .ok r
  | none => .error (.register p.name name)

/-- **ValueTable** — labels with values, for the whole device. -/
structure ValueTable where
  name : String
  /-- Labels and their values in the order of declaration. -/
  entries : List (String × Nat)
  deriving DecidableEq, Repr

/-- **FlatEntry** — one word that has an address. -/
structure FlatEntry where
  /-- The name of the register; words of a longer register have `_BY` and their number after it. -/
  name : String
  addr : Nat
  /-- The number of the word, when its register has several. -/
  word : Option Nat
  /-- The place of its page in the device. -/
  page : Nat
  /-- The place of its register on the page. -/
  reg : Nat
  deriving DecidableEq, Repr

/-- **NamePart** — what may stand before the name of a field. -/
inductive NamePart where
  /-- The name of the page in capitals. -/
  | page
  /-- The name of the register in capitals. -/
  | register
  /-- The lowest address of the register, in base sixteen. -/
  | address
  deriving DecidableEq, Repr

/-- **FrameMask** — bits that are set in all frames of one direction. -/
inductive FrameMask where
  | write (mask : Nat)
  | read (mask : Nat)
  deriving DecidableEq, Repr

/-- **BusBinding** — how the device is reached. -/
structure BusBinding where
  kind : Option String := none
  path : Option String := none
  mask : Option FrameMask := none
  deriving DecidableEq, Repr

/-- **Device** — the whole register map. -/
structure Device where
  name : String
  desc : String
  regPrefix : String
  pagePrefix : Bool
  fieldPrefix : List NamePart
  fieldMacros : Bool
  addrWidth : Nat
  dataWidth : Nat
  bus : BusBinding
  pages : List Page
  tables : List ValueTable
  flat : List FlatEntry
  /-- The places of the pages by name. -/
  pageIndex : NameIndex
  /-- The places of the entries of the flat table by name. -/
  flatIndex : NameIndex
  deriving DecidableEq, Repr

/-- **canonicalName** — the name of a register in the flat table, after that of its page if so
asked. -/
def canonicalName (pagePrefix : Bool) (page : Page) (reg : Register) : String :=
  if pagePrefix then Text.upper page.name ++ "_" ++ reg.name else reg.name

namespace Device

/-! ## § Lookup -/

/-- **page** — the first page with the name. -/
def page (d : Device) (name : String) : Except Missing Page :=
  match d.pageIndex.find? d.pages name with
  | some p => .ok p
  | none => .error (.page name)

/-- **entry** — the entry of the flat table with the name. -/
def entry (d : Device) (name : String) : Except Missing FlatEntry :=
  match d.flatIndex.find? d.flat name with
  | some e => .ok e
  | none => .error (.entry name)

/-- **registerName** — the name of a register in the flat table of the device. -/
def registerName (d : Device) (page : Page) (reg : Register) : String :=
  canonicalName d.pagePrefix page reg

/-- **registerCount** — the number of registers on all pages. -/
def registerCount (d : Device) : Nat := (d.pages.flatMap Page.regs).length

/-! ## § Frames -/

/-- **dataMask** — the bits of one data word. -/
def dataMask (d : Device) : Nat := lowOnes 64 d.dataWidth

/-- **writeMask?** — the bits that are set in all frames that write. -/
def writeMask? (d : Device) : Option Nat :=
  match d.bus.mask with
  | some (.write m) => some m
  | _ => none

/-- **readMask?** — the bits that are set in all frames that read. -/
def readMask? (d : Device) : Option Nat :=
  match d.bus.mask with
  | some (.read m) => some m
  | _ => none

/-- **addressBits** — an address where it stands in a frame; bits beyond its width are dropped. -/
def addressBits (d : Device) (addr : Nat) : Nat :=
  (addr &&& lowOnes 128 d.addrWidth) <<< d.dataWidth

/-- **writeFrame** — the frame that writes a word to an address. -/
def writeFrame (d : Device) (addr word : Nat) : Nat :=
  d.addressBits addr ||| (word &&& d.dataMask) ||| d.writeMask?.getD 0

/-- **readFrame** — the frame that reads an address. -/
def readFrame (d : Device) (addr : Nat) : Nat := d.addressBits addr ||| d.readMask?.getD 0

end Device

end RegisterMap
