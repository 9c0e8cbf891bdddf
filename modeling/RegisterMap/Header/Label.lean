/-!
# Labels — text that becomes part of an identifier

A label may hold characters that no identifier has. They are replaced one kind after another, each
in the whole text, the two-character comparisons before their single characters.
-/

namespace RegisterMap.Label

/-- **Replacement** — a text that stands for a character or for a pair of characters. -/
inductive Replacement where
  | char (c : Char) (text : String)
  | pair (c d : Char) (text : String)
  deriving DecidableEq, Repr

/-- **replacements** — all replacements in their order. -/
def replacements : List Replacement :=
  [ .char '-' "_",
    .pair '<' '=' "LE",
    .pair '>' '=' "GE",
    .char '>' "GT",
    .char '<' "LT",
    .char '=' "EQ",
    .char '+' "PL",
    .char '\x27' "MARK",
    .char '.' "_",
    .char ',' "_",
    .char ' ' "_",
    .char '(' "",
    .char '|' "OR",
    .char ')' "",
    .char '/' "DIV" ]

/-- **replacePair** — a pair of characters replaced from left to right. -/
def replacePair (c d : Char) (text : List Char) : List Char → List Char
  | x :: y :: rest =>
    if x = c ∧ y = d then text ++ replacePair c d text rest
    else x :: replacePair c d text (y :: rest)
  | cs => cs

/-- **apply** — a text after one replacement. -/
def Replacement.apply (cs : List Char) : Replacement → List Char
  | .char c text => cs.flatMap fun x => if x = c then text.toList else [x]
  | .pair c d text => replacePair c d text.toList cs

/-- **normalizeChars** — a text after all replacements. -/
def normalizeChars (cs : List Char) : List Char := replacements.foldl Replacement.apply cs

/-- **normalize** — a label as part of an identifier. -/
def normalize (s : String) : String := String.ofList (normalizeChars s.toList)

end RegisterMap.Label
