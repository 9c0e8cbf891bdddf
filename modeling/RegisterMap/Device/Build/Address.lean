import RegisterMap.Device.Build.Scalar
import RegisterMap.Device.Register

/-!
# Addresses of a register

An address is one number, or two with a colon between them: the first one belongs to the most
significant word, the second one to the least significant. When the first is the lower one, the
register has big order.
-/

namespace RegisterMap

/-- **AddressRange** — the addresses of a register and the order of its words. -/
structure AddressRange where
  hi : Nat
  lo : Nat
  bigOrder : Bool
  deriving DecidableEq, Repr

namespace AddressRange

/-- **readAddress** — one address of the text. -/
def readAddress (register : String) (text part : List Char) : Except SchemaFault Nat :=
  match Text.readInteger part with
  | some n => .ok n
  | none => .error (.badAddress register (String.ofList text))

/-- **readEnds** — the first and the last address that a text names. -/
def readEnds (register : String) (text : List Char) : Except SchemaFault (Nat × Nat) :=
  match Text.splitOn ':' text with
  | [single] => do
    let a ← readAddress register text single
    .ok (a, a)
  | [first, second] => do
    let a ← readAddress register text first
    let b ← readAddress register text second
    .ok (a, b)
  | _ => .error (.badAddress register (String.ofList text))

/-- **ofEnds** — the range from the most significant to the least significant address. -/
def ofEnds (first last : Nat) : AddressRange :=
  if first < last then ⟨last, first, true⟩ else ⟨first, last, false⟩

/-- **checkLength** — a range of not too many words. -/
def checkLength (register : String) (r : AddressRange) : Except BuildFault AddressRange := do
  let words ← (checkedAdd 64 (r.hi - r.lo) 1).mapError .arithmetic
  if Register.maxWordCount < words then .error (.tooWide register words Register.maxWordCount)
  else .ok r

/-- **ofScalar** — the addresses of a register. -/
def ofScalar (register : String) (addr : Draft.Scalar) : Except BuildFault AddressRange := do
  let ends ← (readEnds register addr.chars).mapError .schema
  checkLength register (ofEnds ends.1 ends.2)

/-- **wordCount** — the number of addresses. -/
def wordCount (r : AddressRange) : Nat := r.hi - r.lo + 1

end AddressRange

end RegisterMap
