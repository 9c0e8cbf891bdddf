import RegisterMap.Header.Declaration
import RegisterMap.Proofs.Text.Numeral

/-!
# Tokens — the words of a header

Who reads a header reads its tokens: names, numbers, operators and punctuation, and nothing between
them counts. This module gives the tokens of an expression and shows that its text is exactly these
tokens. What may stand between two tokens is blank: no character that is left over, no end of a line
unless the line goes on behind it, and never nothing where two words would become one. Names are
whole tokens, whatever characters they have.

## § What is here

* `Token`, `Operator` — the tokens, and how tight operators bind;
* `Expr.tokens` — the tokens of an expression;
* `Spells` — a text is some tokens;
* `Expr.spells_tokens` — the text of an expression spells its tokens;
* `Literal.read`, `Declares` — the numbers that enumerations give to names.
-/

namespace RegisterMap.Header

/-! ## § Tokens -/

/-- **Operator** — what stands between two operands. -/
inductive Operator where
  | or
  | and
  | shiftLeft
  | shiftRight
  deriving DecidableEq, Repr

namespace Operator

/-- **rank** — how tight an operator binds: shifts before `&`, and `&` before `|`. -/
def rank : Operator → Nat
  | or => 1
  | and => 2
  | shiftLeft => 3
  | shiftRight => 3

/-- **spelling** — the text of an operator. -/
def spelling : Operator → String
  | or => "|"
  | and => "&"
  | shiftLeft => "<<"
  | shiftRight => ">>"

/-- **apply** — an operator on natural numbers. -/
def apply : Operator → Nat → Nat → Nat
  | or, a, b => a ||| b
  | and, a, b => a &&& b
  | shiftLeft, a, b => a <<< b
  | shiftRight, a, b => a >>> b

/-- **applyTo** — an operator on operands that may have no number. -/
def applyTo (o : Operator) (x y : Option Nat) : Option Nat := x.bind fun a => y.map (o.apply a)

@[simp] theorem applyTo_some (o : Operator) (a b : Nat) :
    o.applyTo (some a) (some b) = some (o.apply a b) := rfl

end Operator

/-- **Token** — a word of a header. -/
inductive Token where
  | name (text : String)
  | number (text : String)
  | operator (o : Operator)
  | complement
  | assign
  | leftParen
  | rightParen
  | comma
  deriving DecidableEq, Repr

/-- **spelling** — the text of a token. -/
def Token.spelling : Token → String
  | name text => text
  | number text => text
  | operator o => o.spelling
  | complement => "~"
  | assign => "="
  | leftParen => "("
  | rightParen => ")"
  | comma => ","

namespace Expr

mutual

/-- **tokens** — the tokens of an expression. -/
def tokens : Expr → List Token
  | name text => [.name text]
  | decimal n => [.number (Text.decimal n)]
  | hex n => [.number ("0x" ++ Text.hex n)]
  | paren e => .leftParen :: (e.tokens ++ [.rightParen])
  | complement e => .complement :: e.tokens
  | shiftLeft a b => a.tokens ++ .operator .shiftLeft :: b.tokens
  | shiftRight a b => a.tokens ++ .operator .shiftRight :: b.tokens
  | and a b => a.tokens ++ .operator .and :: b.tokens
  | or terms => tokensAll terms
  | assign target value => target.tokens ++ .assign :: value.tokens
  | call callee first second =>
    .name callee :: .leftParen :: (first.tokens ++ .comma :: (second.tokens ++ [.rightParen]))
  | spaced e => e.tokens
  | ownLine e => e.tokens

/-- **tokensAll** — the tokens of some expressions with `|` between them. -/
def tokensAll : List Expr → List Token
  | [] => []
  | [e] => e.tokens
  | e :: f :: es => e.tokens ++ .operator .or :: tokensAll (f :: es)

end

end Expr

/-! ## § Lists of tokens -/

/-- **separated** — lists of tokens with commas between them. -/
def separated : List (List Token) → List Token
  | [] => []
  | [a] => a
  | a :: b :: as => a ++ .comma :: separated (b :: as)

theorem mem_separated {t : Token} (ht : t ≠ .comma) : ∀ {args : List (List Token)},
    t ∈ separated args → ∃ a ∈ args, t ∈ a
  | [], h => by simp [separated] at h
  | [a], h => ⟨a, List.mem_cons_self, h⟩
  | a :: b :: as, h => by
    rw [separated, List.mem_append, List.mem_cons] at h
    rcases h with h | rfl | h
    · exact ⟨a, List.mem_cons_self, h⟩
    · exact absurd rfl ht
    · obtain ⟨c, hc, hmem⟩ := mem_separated ht h
      exact ⟨c, List.mem_cons_of_mem _ hc, hmem⟩

/-! ## § Spelling -/

/-- **isBreak** — the characters at which any token ends. -/
def isBreak (c : Char) : Bool := c == ' ' || c == '(' || c == ')' || c == ','

/-- **AtBreak** — a text begins with such a character, or is empty. -/
def AtBreak (s : String) : Prop := s.toList.head?.all isBreak = true

instance (s : String) : Decidable (AtBreak s) :=
  inferInstanceAs (Decidable (s.toList.head?.all isBreak = true))

/-- **isMark** — the tokens that end by themselves, whatever stands behind them. -/
def Token.isMark : Token → Bool
  | .complement | .leftParen | .rightParen | .comma => true
  | _ => false

/-- **Spells** — a text is the given tokens one after another. Between them are blanks, and ends of
lines behind a backslash, where the line goes on. A word or an operator must end before the next
token begins. -/
inductive Spells : List Token → String → Prop where
  | done : Spells [] ""
  | token (t : Token) {ts : List Token} {s : String} :
    t.isMark = true ∨ AtBreak s → Spells ts s → Spells (t :: ts) (t.spelling ++ s)
  | blank {ts : List Token} {s : String} : Spells ts s → Spells ts (" " ++ s)
  | splice {ts : List Token} {s : String} : Spells ts s → Spells ts ("\\\n" ++ s)

theorem atBreak_empty : AtBreak "" := rfl

/-- A text behind a break begins with it. -/
theorem atBreak_append {s : String} (u : String) (hs : AtBreak s) (hne : s.toList ≠ []) :
    AtBreak (s ++ u) := by
  rw [AtBreak, String.toList_append] at *
  cases h : s.toList with
  | nil => exact absurd h hne
  | cons c cs =>
    rw [h] at hs
    simpa using hs

theorem AtBreak.append {s u : String} (hs : AtBreak s) (hu : AtBreak u) : AtBreak (s ++ u) := by
  rw [AtBreak, String.toList_append] at *
  cases h : s.toList with
  | nil => simpa using hu
  | cons c cs =>
    rw [h] at hs
    simpa using hs

namespace Spells

theorem mark (t : Token) (ht : t.isMark = true) {ts : List Token} {s : String}
    (h : Spells ts s) : Spells (t :: ts) (t.spelling ++ s) := .token t (.inl ht) h

/-- A text behind another one, at whose beginning all tokens end. -/
theorem append {ts us : List Token} {s u : String} (hs : Spells ts s) (hu : Spells us u)
    (hbreak : AtBreak u) : Spells (ts ++ us) (s ++ u) := by
  induction hs with
  | done =>
    rw [List.nil_append, String.empty_append]
    exact hu
  | token t hend _ ih =>
    rw [List.cons_append, String.append_assoc]
    exact .token t (hend.imp_right fun h => h.append hbreak) ih
  | blank _ ih =>
    rw [String.append_assoc]
    exact .blank ih
  | splice _ ih =>
    rw [String.append_assoc]
    exact .splice ih

theorem single (t : Token) : Spells [t] t.spelling := by
  rw [← String.append_empty (s := t.spelling)]
  exact .token t (.inr atBreak_empty) .done

/-- Two texts with one token and blanks between them. -/
theorem between {ts us : List Token} {s u : String} (hs : Spells ts s) (t : Token)
    (hu : Spells us u) : Spells (ts ++ t :: us) (s ++ (" " ++ t.spelling ++ " ") ++ u) := by
  have hblank : ∀ w, AtBreak (" " ++ w) := fun w => atBreak_append w (by decide) (by decide)
  have htail : Spells (t :: us) (" " ++ (t.spelling ++ (" " ++ u))) :=
    .blank (.token t (.inr (hblank u)) (.blank hu))
  have htext : s ++ (" " ++ t.spelling ++ " ") ++ u = s ++ (" " ++ (t.spelling ++ (" " ++ u))) := by
    simp only [String.append_assoc]
  rw [htext]
  exact hs.append htail (hblank _)

end Spells

namespace Expr

mutual

/-- The text of an expression spells its tokens. -/
theorem spells_tokens : ∀ e : Expr, Spells e.tokens e.render
  | name text => .single (.name text)
  | decimal n => .single (.number (Text.decimal n))
  | hex n => .single (.number ("0x" ++ Text.hex n))
  | paren e => by
    have hopen : Spells (.leftParen :: e.tokens) ("(" ++ e.render) :=
      .mark .leftParen rfl (spells_tokens e)
    exact hopen.append (.single .rightParen) (by decide)
  | complement e => .mark .complement rfl (spells_tokens e)
  | shiftLeft a b => (spells_tokens a).between (.operator .shiftLeft) (spells_tokens b)
  | shiftRight a b => (spells_tokens a).between (.operator .shiftRight) (spells_tokens b)
  | and a b => (spells_tokens a).between (.operator .and) (spells_tokens b)
  | or terms => spells_tokensAll terms
  | assign target value => (spells_tokens target).between .assign (spells_tokens value)
  | call callee first second => by
    have hsecond := (spells_tokens second).append (.single .rightParen) (by decide)
    have hargs := (spells_tokens first).append (.mark .comma rfl hsecond)
      (atBreak_append _ (by decide) (by decide))
    have hall : Spells (call callee first second).tokens _ :=
      .token (.name callee) (.inr (atBreak_append _ (by decide) (by decide)))
        (.mark .leftParen rfl hargs)
    have htext : (call callee first second).render
        = callee ++ ("(" ++ (first.render ++ ("," ++ (second.render ++ ")")))) := by
      simp only [render, String.append_assoc]
    rw [htext]
    exact hall
  | spaced e => .blank (spells_tokens e)
  | ownLine e => by
    have hindent : Spells e.tokens (" " ++ (" " ++ (" " ++ (" " ++ e.render)))) :=
      .blank (.blank (.blank (.blank (spells_tokens e))))
    have htext : (ownLine e).render
        = " " ++ ("\\\n" ++ (" " ++ (" " ++ (" " ++ (" " ++ e.render))))) := by
      simp only [render, indent, ← String.append_assoc]
      rfl
    rw [htext]
    exact .blank (.splice hindent)

theorem spells_tokensAll : ∀ es : List Expr, Spells (tokensAll es) (Text.join " | " (renderAll es))
  | [] => .done
  | [e] => spells_tokens e
  | e :: f :: es => (spells_tokens e).between (.operator .or) (spells_tokensAll (f :: es))

end

end Expr

/-! ## § Enumerations -/

/-- **read** — the number that the text of a literal spells. -/
def Literal.read (l : Literal) : Option Nat := Text.readLiteral l.render.toList

/-- The text of a literal spells its number. -/
@[simp] theorem Literal.read_eq (l : Literal) : l.read = some l.value := by
  cases l with
  | decimal n => exact Text.readLiteral_decimal n
  | hex n => exact Text.readLiteral_hex n

/-- **entries** — the names that a declaration gives numbers to. -/
def Declaration.entries : Declaration → List (String × Literal)
  | enumeration _ entries => entries
  | _ => []

/-- **Declares** — each name of a declaration has the number that it gives to it. -/
def Declares (d : Declaration) (numbers : String → Option Nat) : Prop :=
  ∀ e ∈ d.entries, numbers e.1 = e.2.read

instance (d : Declaration) (numbers : String → Option Nat) : Decidable (Declares d numbers) :=
  inferInstanceAs (Decidable (∀ e ∈ d.entries, numbers e.1 = e.2.read))

end RegisterMap.Header
