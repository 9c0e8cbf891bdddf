import RegisterMap.Device.Build.Name
import RegisterMap.Device.Build.Scalar
import RegisterMap.Log

/-!
# Fields of a description

A field has an identifier as its name, bits inside its register, and labels for values that fit into
its bits. Without a description of its own it is described by its name.
-/

namespace RegisterMap.Field

/-- **optionOf** — one labelled value of a field with the greatest value `most`. -/
def optionOf (what : String) (width : Nat) (most : BitMask) (entry : Yaml.Value × Yaml.Value) :
    Except SchemaFault (Nat × String) := do
  let value ← naturalOf what entry.1
  if most.window 0 64 < value then .error (.optionTooLarge what value width)
  else
    let label ← labelOf what entry.2
    .ok (value, label)

/-- **bitsOf** — the bits of a field in a register whose last bit is `last`. -/
def bitsOf (register : String) (last : Nat) (d : Draft.Field) : Except BuildFault BitSpec := do
  let bits ← (BitSpec.ofChars (Text.trim d.bits.chars)).mapError
    fun f => .schema (.badBits register d.name f)
  if last < bits.hi then .error (.beyondRegister register d.name bits.hi last) else .ok bits

/-- **ofDraft** — a field of a register whose last bit is `last`. -/
def ofDraft (register : String) (last : Nat) (d : Draft.Field) : Except BuildFault Field := do
  (checkIdentifier (register ++ " field") d.name).mapError .schema
  let bits ← bitsOf register last d
  let width ← bits.width.mapError .arithmetic
  let maxValue ← bits.maxValue.mapError .arithmetic
  let what := register ++ "::" ++ d.name ++ " opts"
  let entries ← ((d.opts.getD []).mapM (optionOf what width maxValue)).mapError .schema
  .ok
    { name := d.name
      desc := d.desc.getD d.name
      bits
      mask := bits.mask
      maxValue
      options := ⟨entries⟩ }

/-- **summary** — a field in one line of the log: the address of its register, its name, bits and
mask. -/
def summary (register : String) (addr : Nat) (f : Field) : String :=
  Text.padLeft '0' 8 (Text.hex addr) ++ " " ++ Text.padRight 32 (register ++ "::" ++ f.name)
    ++ " BITS [" ++ f.bits.render ++ "] MSK " ++ Text.padLeft '0' 8 f.mask.hex

/-- **build** — a field of a register at an address, and its line of the log. -/
def build (register : String) (addr last : Nat) (d : Draft.Field) : Logged BuildFault Field := do
  let f ← Logged.ofExcept (ofDraft register last d)
  Logged.write .debug .description (f.summary register addr)
  pure f

end RegisterMap.Field
