import RegisterMap.Device.Build.Address
import RegisterMap.Device.Build.Field

/-!
# Registers of a description

A register takes its words from its address and its fields from the draft; without fields it gets
one that is called `VALUE` and has all its bits. Fields are put in descending order of their lowest
bits, and fields with the same lowest bit keep their order.
-/

namespace RegisterMap.Register

/-- **insertField** — a field before the first one that does not start above it. -/
def insertField (f : Field) : List Field → List Field
  | [] => [f]
  | g :: gs => if g.lo ≤ f.lo then f :: g :: gs else g :: insertField f gs

/-- **sortFields** — the fields in descending order of their lowest bits. -/
def sortFields : List Field → List Field
  | [] => []
  | f :: fs => insertField f (sortFields fs)

/-- **wholeField** — the field of all bits of a register without fields. -/
def wholeField (register : String) (last : Nat) : Draft.Field :=
  ⟨"VALUE", some register, .text (Text.decimal last ++ ":0"), none⟩

/-- **draftFields** — the fields of a register whose last bit is `last`. -/
def draftFields (d : Draft.Register) (last : Nat) : List Draft.Field :=
  match d.fields with
  | some (f :: fs) => f :: fs
  | _ => [wholeField d.name last]

/-- **lastBit** — the last bit of so many words. -/
def lastBit (dataWidth words : Nat) : Nat := dataWidth * words - 1

/-- **ofFields** — a register with its fields in order. -/
def ofFields (name : String) (r : AddressRange) (fields : List Field) : Register :=
  let sorted := sortFields fields
  { name
    addrHi := r.hi
    addrLo := r.lo
    bigOrder := r.bigOrder
    fields := sorted
    fieldIndex := NameIndex.ofNames (sorted.map Field.name) }

/-- **rangeOf** — the addresses of a register with a proper name. -/
def rangeOf (d : Draft.Register) : Except BuildFault AddressRange := do
  (checkIdentifier "register" d.name).mapError .schema
  AddressRange.ofScalar d.name d.addr

/-- **build** — a register of words of the given width. -/
def build (dataWidth : Nat) (d : Draft.Register) : Logged BuildFault Register := do
  let r ← Logged.ofExcept (rangeOf d)
  let last := lastBit dataWidth r.wordCount
  let fields ← (draftFields d last).mapM (Field.build d.name r.hi last)
  pure (ofFields d.name r fields)

end RegisterMap.Register
