import RegisterMap.Text.Numeral
import RegisterMap.Text.Split

/-!
# Expressions of a header

The expressions in the bodies of macros, as trees. Their text is written from the tree; parentheses
and places on a line are parts of it, so nothing else decides about them.
-/

namespace RegisterMap.Header

/-- **Expr** — an expression of a macro. -/
inductive Expr where
  | name (text : String)
  | decimal (n : Nat)
  | hex (n : Nat)
  | paren (e : Expr)
  | complement (e : Expr)
  | shiftLeft (a b : Expr)
  | shiftRight (a b : Expr)
  | and (a b : Expr)
  | or (terms : List Expr)
  | assign (target value : Expr)
  | call (callee : String) (first second : Expr)
  /-- After a space. -/
  | spaced (e : Expr)
  /-- On a line of its own. -/
  | ownLine (e : Expr)
  deriving Repr

namespace Expr

/-- **indent** — what stands before everything inside a declaration. -/
def indent : String := "    "

mutual

/-- **render** — the text of an expression. -/
def render : Expr → String
  | name text => text
  | decimal n => Text.decimal n
  | hex n => "0x" ++ Text.hex n
  | paren e => "(" ++ e.render ++ ")"
  | complement e => "~" ++ e.render
  | shiftLeft a b => a.render ++ " << " ++ b.render
  | shiftRight a b => a.render ++ " >> " ++ b.render
  | and a b => a.render ++ " & " ++ b.render
  | or terms => Text.join " | " (renderAll terms)
  | assign target value => target.render ++ " = " ++ value.render
  | call callee first second => callee ++ "(" ++ first.render ++ "," ++ second.render ++ ")"
  | spaced e => " " ++ e.render
  | ownLine e => " \\\n" ++ indent ++ e.render

/-- **renderAll** — the texts of some expressions. -/
def renderAll : List Expr → List String
  | [] => []
  | e :: es => e.render :: renderAll es

end

end Expr

end RegisterMap.Header
