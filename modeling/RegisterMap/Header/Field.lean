import RegisterMap.Device.Register
import RegisterMap.Header.Declaration

/-!
# Expressions of a field

A header gives each field two names, its lowest bit and its mask. With them, a *getter* takes the
dense value of the field out of the value of its register, and a *setter* puts it there. The bits of
a list are moved one by one.
-/

namespace RegisterMap.Header

/-- **offsetName** — the name of the lowest bit of a field. -/
def offsetName (field : String) : String := field ++ "_OFF"

/-- **maskName** — the name of the mask of a field. -/
def maskName (field : String) : String := field ++ "_MSK"

namespace Getter

/-- **bitTerm** — the bit at a position of `x`, moved to a place of the dense value. -/
def bitTerm (field : String) (x : Expr) (position place : Nat) : Expr :=
  let masked := Expr.paren (.and (.paren x) (.name (maskName field)))
  .paren (.shiftLeft (.paren (.and (.paren (.shiftRight masked (.decimal position))) (.hex 1)))
    (.decimal place))

/-- **bitTerms** — the bits at listed positions, the last one first. -/
def bitTerms (field : String) (x : Expr) (positions : List Nat) : List Expr :=
  positions.reverse.mapIdx fun i p => bitTerm field x p i

/-- **expr** — the dense value of a field in `x`. -/
def expr (bits : BitSpec) (field : String) (x : Expr) : Expr :=
  match bits with
  | .range .. =>
    .paren (.shiftRight (.paren (.and (.paren x) (.name (maskName field))))
      (.name (offsetName field)))
  | .list ps => .paren (.or (bitTerms field x ps))

end Getter

namespace Setter

/-- **bitTerm** — the bit at a place of the dense value `v`, moved to a position. -/
def bitTerm (v : Expr) (position place : Nat) : Expr :=
  .paren (.shiftLeft (.paren (.and (.paren (.shiftRight (.paren v) (.decimal place))) (.hex 1)))
    (.decimal position))

/-- **bitTerms** — the bits for listed positions. -/
def bitTerms (v : Expr) : List Nat → List Expr
  | [] => []
  | p :: ps => bitTerm v p ps.length :: bitTerms v ps

/-- **expr** — the dense value `v` at the bits of a field. -/
def expr (bits : BitSpec) (field : String) (v : Expr) : Expr :=
  match bits with
  | .range .. =>
    .paren (.and (.paren (.shiftLeft (.paren v) (.name (offsetName field))))
      (.name (maskName field)))
  | .list ps => .paren (.and (.paren (.or (bitTerms v ps))) (.name (maskName field)))

end Setter

end RegisterMap.Header
