import RegisterMap.Arithmetic
import RegisterMap.Bits.Mask
import RegisterMap.Text.Blank
import RegisterMap.Text.Split

/-!
# Bit specifications — the places of a field in its register

A field occupies a range of bits or a list of single bits. It is written as `7:4` or `7-4`, as one
position, or as positions between commas.

## § Positions

Positions have 32 bits. A range is written high to low; a list names its most significant bit
first, in any order, and no bit twice.
-/

namespace RegisterMap

/-- **BitSpec** — the bits of a field. -/
inductive BitSpec where
  /-- All bits from `lo` to `hi`. -/
  | range (hi lo : Nat)
  /-- Single bits, the most significant one of the field's value first. -/
  | list (positions : List Nat)
  deriving DecidableEq, Repr

namespace BitSpec

/-! ## § Places -/

/-- **lo** — the lowest position. -/
def lo : BitSpec → Nat
  | range _ lo => lo
  | list ps => ps.min?.getD 0

/-- **hi** — the highest position. -/
def hi : BitSpec → Nat
  | range hi _ => hi
  | list ps => ps.max?.getD 0

/-- **width** — the number of bits, itself a number of 32 bits. -/
def width : BitSpec → Except ArithmeticFault Nat
  | range hi lo => do checkedAdd 32 (← checkedSub hi lo) 1
  | list ps => .ok ps.length

/-- **positions?** — the single positions of a list. -/
def positions? : BitSpec → Option (List Nat)
  | range .. => none
  | list ps => some ps

/-- **isScattered** — the bits are listed one by one. -/
def isScattered (s : BitSpec) : Bool := s.positions?.isSome

/-- **mask** — all bits of the field. -/
def mask : BitSpec → BitMask
  | range hi lo => BitMask.ofRange lo (hi + 1 - lo)
  | list ps => BitMask.ofBits ps

/-- **maxValue** — the greatest value of the field: ones in all its bits. -/
def maxValue (s : BitSpec) : Except ArithmeticFault BitMask := BitMask.ones <$> s.width

/-! ## § Written form -/

/-- **render** — one position, a range with a colon, or a list with commas. -/
def render : BitSpec → String
  | range hi lo =>
    if hi = lo then Text.decimal hi else Text.decimal hi ++ ":" ++ Text.decimal lo
  | list ps => Text.join "," (ps.map Text.decimal)

/-- **Fault** — why a text specifies no bits. `text` is the whole of it without blanks around. -/
inductive Fault where
  /-- A position that is no number of 32 bits. -/
  | badPosition (position text : String)
  /-- A list with a bit twice. -/
  | repeatedBit (bit : Nat) (text : String)
  /-- A range from low to high. -/
  | lowToHigh (text : String)
  /-- More than one separator of a range. -/
  | malformed (text : String)
  deriving DecidableEq, Repr

/-- **message** — the text of a fault. -/
def Fault.message : Fault → String
  | .badPosition position text => "bad bit index `" ++ position ++ "` in bits `" ++ text ++ "`"
  | .repeatedBit bit text =>
    "bit " ++ Text.decimal bit ++ " is listed twice in bits `" ++ text ++ "`"
  | .lowToHigh text => "bits `" ++ text ++ "` must be written high to low"
  | .malformed text => "cannot parse bits `" ++ text ++ "`"

/-- **readPosition** — a position, with blanks around it. -/
def readPosition (text position : List Char) : Except Fault Nat :=
  match Text.readNumeral 10 (capacity 32) (Text.trim position) with
  | some n => .ok n
  | none => .error (.badPosition (String.ofList position) (String.ofList text))

/-- **repeated?** — the first item that occurs before. -/
def repeated? (before : List Nat) : List Nat → Option Nat
  | [] => none
  | p :: ps => if before.contains p then some p else repeated? (p :: before) ps

/-- **ofPositions** — the field of the listed bits. -/
def ofPositions (text : List Char) (ps : List Nat) : Except Fault BitSpec :=
  match repeated? [] ps, ps with
  | some p, _ => .error (.repeatedBit p (String.ofList text))
  | none, [p] => .ok (range p p)
  | none, ps => .ok (list ps)

/-- **rangeParts** — a text without commas at its colons, or else at its hyphens. -/
def rangeParts (text : List Char) : List (List Char) :=
  match Text.splitOn ':' text with
  | [single] => Text.splitOn '-' single
  | parts => parts

/-- **ofRangeParts** — one position or a range. -/
def ofRangeParts (text : List Char) : List (List Char) → Except Fault BitSpec
  | [single] => do
    let p ← readPosition text single
    .ok (range p p)
  | [high, low] => do
    let hi ← readPosition text high
    let lo ← readPosition text low
    if hi < lo then .error (.lowToHigh (String.ofList text)) else .ok (range hi lo)
  | _ => .error (.malformed (String.ofList text))

/-- **ofChars** — the bits that a text without blanks around it specifies. -/
def ofChars (text : List Char) : Except Fault BitSpec :=
  if ',' ∈ text then do
    let ps ← (Text.splitOn ',' text).mapM (readPosition text)
    ofPositions text ps
  else ofRangeParts text (rangeParts text)

/-- **parse** — the bits that a text specifies. -/
def parse (s : String) : Except Fault BitSpec := ofChars (Text.trim s.toList)

end BitSpec

end RegisterMap
