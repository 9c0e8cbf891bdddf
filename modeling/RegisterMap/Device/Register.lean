import RegisterMap.Bits.Codec
import RegisterMap.NameIndex
import RegisterMap.Text.LetterCase

/-!
# Registers — fields at bit positions, words at addresses

A register is one word or a few words at consecutive addresses that hold one value. Its fields stand
in descending order of their lowest bits.

## § Word order

Words are counted by significance, the most significant one is word 0. It has the highest address,
or the lowest one in a register of *big order*.
-/

namespace RegisterMap

/-- **Missing** — nothing has the name that is looked up. -/
inductive Missing where
  | page (name : String)
  | register (of name : String)
  | field (of name : String)
  /-- No entry of the flat table. -/
  | entry (name : String)
  deriving DecidableEq, Repr

/-- **message** — the text of a failed lookup. -/
def Missing.message : Missing → String
  | .page name => "page `" ++ name ++ "` not found"
  | .register of name => "register `" ++ of ++ "::" ++ name ++ "` not found"
  | .field of name => "field `" ++ of ++ "::" ++ name ++ "` not found"
  | .entry name => "register `" ++ name ++ "` not found"

/-! ## § Fields -/

/-- **Options** — labels of some values of a field, in the order of their declaration. -/
structure Options where
  entries : List (Nat × String) := []
  deriving DecidableEq, Repr

/-- **label?** — the first label that is declared for a value. -/
def Options.label? (o : Options) (value : Nat) : Option String := o.entries.lookup value

/-- **Field** — bits of a register with a name. -/
structure Field where
  name : String
  desc : String
  bits : BitSpec
  /-- The bits of the field in its register. -/
  mask : BitMask
  /-- The greatest value of the field. -/
  maxValue : BitMask
  options : Options
  deriving DecidableEq, Repr

namespace Field

/-- **lo** — the lowest bit of the field. -/
def lo (f : Field) : Nat := f.bits.lo

/-- **encode** — what the field adds to the value of its register. -/
def encode (f : Field) (dense : Nat) : Except ArithmeticFault Nat := f.bits.encode dense

/-- **decode** — the dense value of the field in the value of its register. -/
def decode (f : Field) (register : Nat) : Except ArithmeticFault Nat := f.bits.decode register

end Field

/-! ## § Registers -/

/-- **Register** — the fields at the addresses from `addrLo` to `addrHi`. -/
structure Register where
  name : String
  addrHi : Nat
  addrLo : Nat
  /-- The lowest address holds the most significant word. -/
  bigOrder : Bool
  fields : List Field
  /-- The places of the fields by name. -/
  fieldIndex : NameIndex
  deriving DecidableEq, Repr

namespace Register

/-- **maxWordCount** — the most words that a register may span. -/
def maxWordCount : Nat := 9

/-- **wordCount** — the number of its words. -/
def wordCount (r : Register) : Nat := r.addrHi - r.addrLo + 1

/-- **addresses** — the addresses of its words in ascending order. -/
def addresses (r : Register) : List Nat := (List.range (r.addrHi + 1 - r.addrLo)).map (r.addrLo + ·)

/-- **field** — the first field with the name. -/
def field (r : Register) (name : String) : Except Missing Field :=
  match r.fieldIndex.find? r.fields name with
  | some f => .ok f
  | none => .error (.field r.name name)

/-- **wordAddress** — the address of word `u`. -/
def wordAddress (r : Register) (u : Nat) : Except ArithmeticFault Nat :=
  if r.bigOrder then checkedAdd 64 r.addrLo u else checkedSub r.addrHi u

/-- **significance?** — which word stands at an address. -/
def significance? (r : Register) (addr : Nat) : Option Nat :=
  if addr < r.addrLo ∨ r.addrHi < addr then none
  else if r.bigOrder then some (addr - r.addrLo)
  else some (r.addrHi - addr)

/-- **isValueOnly** — the only field is called `VALUE`, in any case of letters. -/
def isValueOnly (r : Register) : Bool :=
  match r.fields with
  | [f] => Text.equalsIgnoringAsciiCase f.name "value"
  | _ => false

/-- **isSingleValue** — one word whose only field is called `VALUE`. -/
def isSingleValue (r : Register) : Bool := r.wordCount == 1 && r.isValueOnly

/-- **valueMask** — the bits of all fields. -/
def valueMask (r : Register) : BitMask := r.fields.foldl (fun m f => m.union f.mask) BitMask.empty

/-- **valueOffset** — the lowest bit of all fields. -/
def valueOffset (r : Register) : Nat := ((r.fields.map Field.lo).min?).getD 0

/-- **decodeFields** — the dense values of all fields in the value of the register. -/
def decodeFields (r : Register) (value : Nat) : Except ArithmeticFault (List (String × Nat)) :=
  r.fields.mapM fun f => do .ok (f.name, ← f.decode value)

end Register

end RegisterMap
