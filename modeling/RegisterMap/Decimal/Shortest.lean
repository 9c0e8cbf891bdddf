import RegisterMap.Decimal.Binary64

/-!
# Shortest decimals — the fewest digits that read back

Every finite number owns an interval of reals that round to it, ends included exactly when its
mantissa is even. Among the decimals in that interval the shortest are those of the coarsest
decimal grid with a point inside; of the two grid points around the number the nearer one is
taken. Which one is taken on a tie is up to the layout.
-/

namespace RegisterMap.Decimal

/-- **Digits** — the number `digits · 10 ^ exponent`, without trailing zeros. -/
structure Digits where
  digits : Nat
  exponent : Int
  deriving DecidableEq, Repr

/-- **Tie** — the grid point that stands for a number halfway between two. -/
inductive Tie where
  | even
  | up
  deriving DecidableEq, Repr

/-- **pick** — the choice between the grid point `d` and the next one. -/
def Tie.pick (d : Nat) : Tie → Nat
  | .even => if d % 2 = 0 then d else d + 1
  | .up => d + 1

namespace Shortest

/-- **Interval** — a number and the ends of its rounding interval, as numerators over one
denominator. -/
structure Interval where
  low : Nat
  value : Nat
  high : Nat
  den : Nat
  closed : Bool

/-- **interval** — the rounding interval of `m · 2 ^ e`. The gap below a power of two is half as
wide as the gap above. -/
def interval (m : Nat) (e : Int) : Interval :=
  let below := if m = Binary64.leadingBit ∧ Binary64.leastExponent < e then 1 else 2
  let (value, den) := Binary64.scale (4 * m) (e - 2)
  let (unit, _) := Binary64.scale 1 (e - 2)
  ⟨value - below * unit, value, value + 2 * unit, den, m % 2 = 0⟩

/-- **decimalPlace** — the `k` with `10 ^ (k - 1) ≤ num / den < 10 ^ k`, for positive numbers. -/
def decimalPlace (num den : Nat) : Int :=
  if den ≤ num then ((Nat.toDigits 10 (num / den)).length : Int)
  else
    -- the quotient of `den` by `num` has as many digits as there are places to go down
    let down := (Nat.toDigits 10 (den / num)).length
    if den ≤ num * Binary64.tenPow (down - 1) then 2 - (down : Int) else 1 - (down : Int)

/-- **gridPoint** — `n · 10 ^ p` over the denominator `den · 10 ^ max(-p, 0)`, with the factor by
which the other numerators grow. -/
def gridPoint (n : Nat) (p : Int) (den : Nat) : Nat × Nat :=
  if 0 ≤ p then (n * Binary64.tenPow p.toNat * den, 1)
  else (n * den, Binary64.tenPow (-p).toNat)

/-- **inside** — the grid point lies in the interval. -/
def inside (i : Interval) (n : Nat) (p : Int) : Bool :=
  let (x, k) := gridPoint n p i.den
  if i.closed then i.low * k ≤ x && x ≤ i.high * k else i.low * k < x && x < i.high * k

/-- **below** — the grid point at or under the number. -/
def below (i : Interval) (p : Int) : Nat :=
  let (x, k) := gridPoint 1 p i.den
  i.value * k / x

/-- **onGrid** — the point of the grid of `10 ^ p` that is nearest to the number among those in its
interval. -/
def onGrid (tie : Tie) (i : Interval) (p : Int) : Option Nat :=
  let d := below i p
  match inside i d p, inside i (d + 1) p with
  | false, false => none
  | true, false => some d
  | false, true => some (d + 1)
  | true, true =>
    let (x, k) := gridPoint (2 * d + 1) p i.den
    let twice := 2 * i.value * k
    if twice < x then some d
    else if x < twice then some (d + 1)
    else some (tie.pick d)

/-- **firstHit** — the first grid with a hit, from the coarsest that has `count` grids to go. -/
def firstHit (tie : Tie) (i : Interval) (p : Int) : Nat → Digits
  | 0 => ⟨below i p, p⟩
  | count + 1 =>
    match onGrid tie i p with
    | some n => ⟨n, p⟩
    | none => firstHit tie i (p - 1) count

/-- **strip** — the same number without trailing zeros; `fuel` bounds their count. -/
def strip : Nat → Digits → Digits
  | 0, d => d
  | fuel + 1, d => if d.digits % 10 = 0 then strip fuel ⟨d.digits / 10, d.exponent + 1⟩ else d

end Shortest

/-- **shortest** — the shortest decimal of the positive number `m · 2 ^ e`. Seventeen digits
always suffice. -/
def shortest (tie : Tie) (m : Nat) (e : Int) : Digits :=
  let i := Shortest.interval m e
  let k := Shortest.decimalPlace i.value i.den
  Shortest.strip 20 (Shortest.firstHit tie i (k - 1) 17)

end RegisterMap.Decimal
