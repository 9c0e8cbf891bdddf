import Mathlib.Data.List.Forall2
import RegisterMap.Proofs.Header.Layout
import RegisterMap.Proofs.Header.Token

/-!
# Written headers — the lines of a header, and what they declare

The text of a header is a list of declarations, line by line: the line of a macro has its name, an
opening parenthesis right behind it, its parameters and its body; that of an enumerator its name and
its number. Whoever reads the lines finds the tokens of the declarations in them, and nothing else.

## § What is here

* `EntryLine`, `Declaration.Written` — the lines of a declaration;
* `Declaration.WrittenAll` — those of some declarations, one after another;
* `written_render`, `writtenAll_renderAll` — what is rendered is written;
* `Scope.Prints`, `prints_of_generate` — the text of a header is its declarations.
-/

namespace RegisterMap.Header

/-! ## § Lines -/

/-- **EntryLine** — the line of an enumerator with its number. -/
def EntryLine (e : String × Literal) (line : String) : Prop :=
  ∃ s, line = s ++ "\n" ∧ Spells [.name e.1, .assign, .number e.2.render, .comma] s

/-- A number ends in front of a comma, and a name in front of a blank. -/
theorem entryLine_render (e : String × Literal) :
    EntryLine e (Expr.indent ++ e.1 ++ " = " ++ e.2.render ++ ",\n") := by
  have hnumber : Spells [.number e.2.render, .comma] (e.2.render ++ ",") :=
    .token (.number _) (.inr (by decide)) (.single .comma)
  have hentry : Spells _ (e.1 ++ (" " ++ "=" ++ " ") ++ (e.2.render ++ ",")) :=
    (Spells.single (.name e.1)).between .assign hnumber
  refine ⟨_, ?_, .blank (.blank (.blank (.blank hentry)))⟩
  simp only [Expr.indent, String.append_assoc]
  rfl

namespace Declaration

/-- **signature** — what stands in the line of a macro behind its name and the parenthesis: the
parameters, and the body. -/
def signature (params : List String) (body : Expr) : List Token :=
  separated (params.map fun x => [.name x]) ++ .rightParen :: body.tokens

/-- **Written** — a text is the lines of a declaration. -/
def Written : Declaration → String → Prop
  | enumeration tag entries, text => ∃ lines, List.Forall₂ EntryLine entries lines ∧
      text = "enum " ++ tag ++ " \x7b\n" ++ String.join lines ++ "\x7d;\n"
  | define name params body, text => ∃ s, Spells (signature params body) s ∧
      text = "#define " ++ name ++ "(" ++ s ++ "\n"
  | remark content, text => text = "// " ++ content ++ "\n"
  | blank, text => text = "\n"

/-- **WrittenAll** — a text is the lines of some declarations, one after another. -/
def WrittenAll (ds : List Declaration) (text : String) : Prop :=
  ∃ texts, List.Forall₂ Written ds texts ∧ text = String.join texts

/-! ## § What is rendered -/

/-- Parameters stand between commas, each in front of a comma or the closing parenthesis. -/
theorem spells_params {ts : List Token} {s : String} (hs : Spells ts s) (hbreak : AtBreak s) :
    ∀ params : List String,
      Spells (separated (params.map fun x => [.name x]) ++ ts) (Text.join ", " params ++ s)
  | [] => by
    rw [Text.join, String.empty_append]
    exact hs
  | [x] => .token (.name x) (.inr hbreak) hs
  | x :: y :: params => by
    have hrest := spells_params hs hbreak (y :: params)
    have htext : Text.join ", " (x :: y :: params) ++ s
        = x ++ ("," ++ (" " ++ (Text.join ", " (y :: params) ++ s))) := by
      have hcomma : ", " = "," ++ " " := by decide
      rw [Text.join, hcomma]
      simp only [String.append_assoc]
    rw [htext]
    exact .token (.name x) (.inr (atBreak_append _ (by decide) (by decide)))
      (.mark .comma rfl (.blank hrest))

/-- The text of a declaration is its lines. -/
theorem written_render (d : Declaration) : d.Written d.render := by
  cases d with
  | enumeration tag entries =>
    refine ⟨entries.map fun e => Expr.indent ++ e.1 ++ " = " ++ e.2.render ++ ",\n", ?_, ?_⟩
    · rw [List.forall₂_map_right_iff, List.forall₂_same]
      exact fun e _ => entryLine_render e
    · rw [render]
  | define name params body =>
    have hbody : Spells (.rightParen :: body.tokens) (")" ++ (" " ++ body.render)) :=
      .mark .rightParen rfl (.blank body.spells_tokens)
    have hbreak : AtBreak (")" ++ (" " ++ body.render)) :=
      atBreak_append _ (by decide) (by decide)
    refine ⟨Text.join ", " params ++ (")" ++ (" " ++ body.render)),
      spells_params hbody hbreak params, ?_⟩
    have hclose : ") " = ")" ++ " " := by decide
    rw [render, hclose]
    simp only [String.append_assoc]
  | remark content => rfl
  | blank => rfl

theorem writtenAll_renderAll (ds : List Declaration) : WrittenAll ds (renderAll ds) := by
  refine ⟨ds.map render, ?_, rfl⟩
  rw [List.forall₂_map_right_iff, List.forall₂_same]
  exact fun d _ => written_render d

end Declaration

/-! ## § Headers -/

/-- **Prints** — a text is the header of a device: it has lines for all its declarations, and no
other lines. -/
structure Scope.Prints (s : Scope) (header : String) (ds : List Declaration) : Prop where
  declarations : s.declarations = .ok ds
  written : Declaration.WrittenAll ds header

/-- What is generated is the header. -/
theorem prints_of_generate {device : Device} {title : HeaderName} {header : String}
    (h : (generate device title).result = .ok header) :
    Scope.Prints ⟨device, title⟩ header (Scope.layout ⟨device, title⟩) := by
  obtain ⟨hall, rfl⟩ := generate_eq_ok.1 h
  exact ⟨Scope.declarations_eq_ok.2 ⟨hall, rfl⟩, Declaration.writtenAll_renderAll _⟩

/-- A device has one list of declarations. -/
theorem Scope.Prints.eq_layout {s : Scope} {header : String} {ds : List Declaration}
    (h : s.Prints header ds) : ds = s.layout :=
  (Scope.declarations_eq_ok.1 h.declarations).2

end RegisterMap.Header
