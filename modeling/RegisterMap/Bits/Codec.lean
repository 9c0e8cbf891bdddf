import RegisterMap.Bits.Spec

/-!
# Bit codec — between a field's value and its bits in the register

A field has a *dense* value, packed from bit 0 on. In a register the bits of that value stand at the
positions of the field; `scatter` and `gather` move them there and back relative to the lowest
position, `encode` and `decode` within the whole register.

## § Size

Register values have 128 bits, and what lies beyond is dropped. For a bit of a list, moving it by
128 places or more is a fault.
-/

namespace RegisterMap.BitSpec

/-- **valueBits** — the number of bits of a register value. -/
def valueBits : Nat := 128

/-- **bit** — the value with one bit set. -/
def bit (position : Nat) : Nat := shiftLeft valueBits 1 position

theorem testBit_bit (position b : Nat) :
    (bit position).testBit b = (decide (b < valueBits) && decide (b = position)) := by
  rw [bit, testBit_shiftLeft, Bool.eq_iff_iff]
  simp only [Bool.and_eq_true, decide_eq_true_eq, Nat.testBit_one_eq_true_iff_self_eq_zero]
  omega

/-- **scatterBits** — the bits of a dense value at listed positions, relative to `lo`. -/
def scatterBits (dense lo : Nat) : List Nat → Except ArithmeticFault Nat
  | [] => .ok 0
  | p :: ps => do
    let shifted ← checkedShiftRight valueBits dense ps.length
    let rest ← scatterBits dense lo ps
    .ok ((if shifted.testBit 0 then bit (p - lo) else 0) ||| rest)

/-- **gatherBits** — the bits at listed positions, relative to `lo`, as a dense value. -/
def gatherBits (scattered lo : Nat) : List Nat → Except ArithmeticFault Nat
  | [] => .ok 0
  | p :: ps => do
    let shifted ← checkedShiftRight valueBits scattered (p - lo)
    let rest ← gatherBits scattered lo ps
    .ok ((if shifted.testBit 0 then bit ps.length else 0) ||| rest)

/-- **scatter** — a dense value at the positions of the field, relative to its lowest one. -/
def scatter (s : BitSpec) (dense : Nat) : Except ArithmeticFault Nat :=
  match s with
  | range .. => do .ok (dense &&& lowOnes valueBits (← s.width))
  | list ps => scatterBits dense s.lo ps

/-- **gather** — the dense value of bits relative to the lowest position. -/
def gather (s : BitSpec) (scattered : Nat) : Except ArithmeticFault Nat :=
  match s with
  | range .. => do .ok (scattered &&& lowOnes valueBits (← s.width))
  | list ps => gatherBits scattered s.lo ps

/-- **encode** — what the field adds to the value of its register. -/
def encode (s : BitSpec) (dense : Nat) : Except ArithmeticFault Nat := do
  let scattered ← s.scatter dense
  .ok (shiftLeft valueBits scattered s.lo &&& s.mask.low128)

/-- **decode** — the dense value of the field in the value of its register. -/
def decode (s : BitSpec) (register : Nat) : Except ArithmeticFault Nat :=
  s.gather (shiftRight valueBits (register &&& s.mask.low128) s.lo)

end RegisterMap.BitSpec
