import RegisterMap.Device.Fault
import RegisterMap.Draft
import RegisterMap.Text.Integer

/-!
# Numbers and labels of a description

Widths and masks are numbers or texts that spell one. The keys of a value table are numbers or such
texts too, its labels are texts, numbers or truth values.
-/

namespace RegisterMap

/-- **chars** — a scalar as a text; a number in base ten. -/
def Draft.Scalar.chars : Draft.Scalar → List Char
  | .number n => Nat.toDigits 10 n.toNat
  | .text s => s.toList

/-- **natural** — the number of a scalar; `what` says whose it is. -/
def Draft.Scalar.natural (what : String) : Draft.Scalar → Except SchemaFault Nat
  | .number n => .ok n.toNat
  | .text s =>
    match Text.readInteger s.toList with
    | some n => .ok n
    | none => .error (.notInteger what s)

/-- **naturalOf** — the number of a key. -/
def naturalOf (what : String) : Yaml.Value → Except SchemaFault Nat
  | .number n =>
    match n.natural with
    | some k => .ok k
    | none => .error (.notNatural what n)
  | .text s =>
    match Text.readInteger s.toList with
    | some n => .ok n
    | none => .error (.notInteger what s)
  | v => .error (.expectedInteger what v)

/-- **labelOf** — the text of a label. -/
def labelOf (what : String) : Yaml.Value → Except SchemaFault String
  | .text s => .ok s
  | .number n => .ok n.render
  | .bool b => .ok (if b then "true" else "false")
  | v => .error (.expectedLabel what v)

end RegisterMap
