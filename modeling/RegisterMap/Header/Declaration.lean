import RegisterMap.Header.Expr

/-!
# Declarations of a header

A header is a list of declarations: enumerations, macros, remarks and empty lines.
-/

namespace RegisterMap.Header

/-- **Literal** — a number in base ten or sixteen. -/
inductive Literal where
  | decimal (n : Nat)
  | hex (n : Nat)
  deriving DecidableEq, Repr

namespace Literal

/-- **value** — the number of a literal. -/
def value : Literal → Nat
  | decimal n => n
  | hex n => n

/-- **render** — the text of a literal. -/
def render : Literal → String
  | decimal n => Text.decimal n
  | hex n => "0x" ++ Text.hex n

end Literal

/-- **Declaration** — one declaration of a header. -/
inductive Declaration where
  | enumeration (tag : String) (entries : List (String × Literal))
  | define (name : String) (params : List String) (body : Expr)
  | remark (text : String)
  | blank
  deriving Repr

namespace Declaration

/-- **render** — the lines of a declaration. -/
def render : Declaration → String
  | enumeration tag entries =>
    "enum " ++ tag ++ " \x7b\n"
      ++ String.join (entries.map fun e => Expr.indent ++ e.1 ++ " = " ++ e.2.render ++ ",\n")
      ++ "\x7d;\n"
  | define name params body =>
    "#define " ++ name ++ "(" ++ Text.join ", " params ++ ") " ++ body.render ++ "\n"
  | remark text => "// " ++ text ++ "\n"
  | blank => "\n"

/-- **renderAll** — the text of a whole header. -/
def renderAll (ds : List Declaration) : String := String.join (ds.map render)

end Declaration

end RegisterMap.Header
