import Mathlib.Data.Nat.Dist
import RegisterMap.Device.Build.Scalar
import RegisterMap.Proofs.Bits.Place
import RegisterMap.Proofs.Device.Name
import RegisterMap.Proofs.Text.Integer

/-!
# Valid drafts — which descriptions should be accepted

A description that can be read is valid when its names, numbers, bits and labels are what they
should be. This is said here level by level, without the order in which a build looks at them and
without the device that comes of it.

## § What is here

* `Scalar.Means`, `Scalar.Ends`, `IsKey`, `IsLabel`, `Labels` — numbers, addresses, and entries of
  tables;
* `Field.Valid`, `Register.Valid`, `Page.Valid`, `Bus.Valid` — the parts of a description;
* `Device.HasName` — the name of a word, where it stands;
* `Device.Valid` — the whole description.
-/

namespace RegisterMap

/-! ## § Numbers, addresses and labels -/

/-- **Means** — a number of 64 bits, or a text that spells one. -/
def Draft.Scalar.Means : Scalar → Nat → Prop
  | .number k, n => n = k.toNat
  | .text s, n => Text.Spells s.toList n

/-- **Ends** — one address, which is both ends, or two addresses with a colon between them. -/
def Draft.Scalar.Ends : Scalar → Nat → Nat → Prop
  | .number k, first, last => first = k.toNat ∧ last = first
  | .text s, first, last => (Text.Spells s.toList first ∧ last = first) ∨
    ∃ a b, s.toList = a ++ ':' :: b ∧ Text.Spells a first ∧ Text.Spells b last

/-- **IsKey** — an integer of 64 bits that is not negative, or a text that spells one. -/
def Yaml.Value.IsKey : Yaml.Value → Nat → Prop
  | .number (.integer i), n => i = n ∧ n < capacity 64
  | .text s, n => Text.Spells s.toList n
  | _, _ => False

/-- **IsLabel** — a text, a number or a truth value. -/
def Yaml.Value.IsLabel : Yaml.Value → Prop
  | .text _ => True
  | .number _ => True
  | .bool _ => True
  | _ => False

/-- **Labels** — the text of a label. -/
def Yaml.Value.Labels : Yaml.Value → String → Prop
  | .text s, label => label = s
  | .number n, label => label = n.render
  | .bool b, label => label = if b then "true" else "false"
  | _, _ => False

namespace Draft

/-! ## § Fields, registers and pages -/

/-- **Valid** — a field of a register with so many bits: its text gives bits inside the register,
and its labels are for values that these bits can hold. -/
structure Field.Valid (bits : Nat) (f : Field) : Prop where
  name : IsName f.name
  place : ∃ spec, BitSpec.parse (String.ofList f.bits.chars) = .ok spec ∧ spec.hi ≤ bits - 1 ∧
    ∀ e ∈ f.opts.getD [], (∃ n, e.1.IsKey n ∧ n ≤ capacity spec.size - 1) ∧ e.2.IsLabel

/-- **Valid** — a register with words of the given width: its ends are not too far apart, and its
fields are in its words. -/
structure Register.Valid (dataWidth : Nat) (r : Register) : Prop where
  name : IsName r.name
  words : ∃ first last, r.addr.Ends first last ∧ Nat.dist first last ≤ 8 ∧
    ∀ f ∈ r.fields.getD [], f.Valid (dataWidth * (Nat.dist first last + 1))

/-- **Valid** — a page of registers with words of the given width. -/
structure Page.Valid (dataWidth : Nat) (p : Page) : Prop where
  name : IsName p.name
  regs : ∀ r ∈ p.regs, r.Valid dataWidth

/-- **Valid** — the binding of a bus with a mask for one direction at most. -/
structure Bus.Valid (b : Bus) : Prop where
  writeMask : ∀ m ∈ b.writeMask, ∃ n, m.Means n
  readMask : ∀ m ∈ b.readMask, ∃ n, m.Means n
  single : b.writeMask = none ∨ b.readMask = none

/-! ## § The names of words -/

/-- **wordName** — the name of word `k` of a register of so many words, after that of its page if so
asked. -/
def wordName (pagePrefix : Bool) (page : Page) (reg : Register) (words k : Nat) : String :=
  (if pagePrefix then Text.upper page.name ++ "_" ++ reg.name else reg.name)
    ++ if words = 1 then "" else "_BY" ++ Text.decimal k

/-- **HasName** — word `k` of register `j` on page `i` has the name. -/
def Device.HasName (d : Device) (i j k : Nat) (name : String) : Prop :=
  ∃ page reg first last, d.pages[i]? = some page ∧ page.regs[j]? = some reg ∧
    reg.addr.Ends first last ∧ k < Nat.dist first last + 1 ∧
    name = wordName d.pagePrefix page reg (Nat.dist first last + 1) k

/-! ## § Descriptions -/

/-- **Valid** — a description that should be accepted. -/
structure Device.Valid (d : Device) : Prop where
  addrWidth : ∃ w, d.addrWidth.Means w ∧ 1 ≤ w ∧ w ≤ 64
  dataWidth : ∃ w, d.dataWidth.Means w ∧ 1 ≤ w ∧ w ≤ 64 ∧ ∀ p ∈ d.pages, p.Valid w
  fieldPrefix : ∀ s ∈ d.fieldPrefix, ∃ t ∈ NamePart.texts, Text.equalsIgnoringAsciiCase s t = true
  bus : ∀ b ∈ d.bus, b.Valid
  /-- No two words have one name. -/
  names : ∀ i j k i' j' k' name, d.HasName i j k name → d.HasName i' j' k' name →
    i = i' ∧ j = j' ∧ k = k'
  /-- A key after `x-` names a table of labels. -/
  tables : ∀ e ∈ d.extra, ∀ name, e.1 = .text ("x-" ++ name) →
    ∃ entries, e.2 = .mapping entries ∧ ∀ x ∈ entries, (∃ n, x.1.IsKey n) ∧ x.2.IsLabel

end Draft

end RegisterMap
