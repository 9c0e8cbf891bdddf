import RegisterMap.Bus
import RegisterMap.Device.Basic

/-!
# Transfers — whole registers over a bus

A register is read and written word by word in ascending order of its addresses. Values have 128
bits; in a longer register the words above them are read and dropped, and written as zero.
-/

namespace RegisterMap

/-- **Transfer** — accesses to a bus, up to the first one that fails. -/
abbrev Transfer (α : Type) := Bus → Except BusFault α × Bus

namespace Transfer

/-- **each** — one transfer after another for the items of a list. -/
def each {α β : Type} (f : α → Transfer β) : List α → Transfer (List β)
  | [], b => (.ok [], b)
  | a :: as, b =>
    match f a b with
    | (.error e, b) => (.error e, b)
    | (.ok x, b) =>
      match each f as b with
      | (.error e, b) => (.error e, b)
      | (.ok xs, b) => (.ok (x :: xs), b)

end Transfer

namespace Device

/-- **wordShift** — where word `u` of a register starts in its value. -/
def wordShift (d : Device) (r : Register) (u : Nat) : Nat := d.dataWidth * (r.wordCount - 1 - u)

/-- **wordPart** — what the word at an address adds to the value of a register. -/
def wordPart (d : Device) (r : Register) (addr word : Nat) : Nat :=
  match r.significance? addr with
  | some u => shiftLeft BitSpec.valueBits (word &&& d.dataMask) (d.wordShift r u)
  | none => 0

/-- **wordAt** — the word of a value that belongs to an address of a register. -/
def wordAt (d : Device) (r : Register) (value addr : Nat) : Nat :=
  match r.significance? addr with
  | some u => shiftRight BitSpec.valueBits value (d.wordShift r u) % capacity 64 &&& d.dataMask
  | none => 0

/-- **readPart** — one word of a register, as a part of its value. -/
def readPart (d : Device) (r : Register) (addr : Nat) : Transfer Nat := fun b =>
  let (word, b) := b.read addr
  (word.map (d.wordPart r addr), b)

/-- **readRegister** — the value of a register. -/
def readRegister (d : Device) (r : Register) : Transfer Nat := fun b =>
  let (parts, b) := Transfer.each (d.readPart r) r.addresses b
  (parts.map fun ps => ps.foldl (· ||| ·) 0, b)

/-- **writeRegister** — a value in the words of a register. -/
def writeRegister (d : Device) (r : Register) (value : Nat) : Transfer Unit := fun b =>
  let (done, b) := Transfer.each (fun addr => Bus.write addr (d.wordAt r value addr)) r.addresses b
  (done.map fun _ => (), b)

/-- **readWord** — an address with its word. -/
def readWord (d : Device) (addr : Nat) : Transfer (Nat × Nat) := fun b =>
  let (word, b) := b.read addr
  (word.map fun w => (addr, w &&& d.dataMask), b)

/-- **dumpPage** — all words of a page with their addresses. -/
def dumpPage (d : Device) (p : Page) : Transfer (List (Nat × Nat)) :=
  Transfer.each d.readWord (p.regs.flatMap Register.addresses)

end Device

end RegisterMap
