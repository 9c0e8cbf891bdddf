import RegisterMap.Text.LetterCase.Table

/-!
# Letter case — capital and small forms of a text

The full case mappings of Unicode: one character may become several (`ß` becomes `SS`), and the
small form of `Σ` depends on its place (`ς` at the end of a word). On ASCII text both maps change
one letter into one letter.

## § What is here

* `upper`, `lower` — the capital and the small form of a text;
* `upperChars_ascii`, `lowerChars_ascii` — on ASCII they act letter by letter;
* `equalsIgnoringAsciiCase` — equality up to the case of ASCII letters.
-/

namespace RegisterMap.Text

namespace LetterCase

/-- **mapRuns** — the image of a code point under the first run that holds it. -/
def mapRuns (runs : List Run) (n : Nat) : Option Nat :=
  runs.findSome? fun r =>
    if r.first ≤ n ∧ n ≤ r.last ∧ (n - r.first) % r.step = 0 then some (r.target + (n - r.first))
    else none

/-- **mapped** — a character under a table of long and of one-character images. -/
def mapped (long : List (Nat × List Nat)) (runs : List Run) (c : Char) : List Char :=
  match long.lookup c.toNat with
  | some image => image.map Char.ofNat
  | none =>
    match mapRuns runs c.toNat with
    | some n => [Char.ofNat n]
    | none => [c]

/-- **capital** — the capital form of a character. -/
def capital (c : Char) : List Char :=
  if c.toNat < 128 then [c.toUpper] else mapped longCapitals capitalRuns c

/-- **small** — the small form of a character, wherever it stands. -/
def small (c : Char) : List Char :=
  if c.toNat < 128 then [c.toLower] else mapped longSmalls smallRuns c

/-- **inRanges** — membership in a list of inclusive ranges. -/
def inRanges (ranges : List (Nat × Nat)) (c : Char) : Bool :=
  ranges.any fun r => r.1 ≤ c.toNat && c.toNat ≤ r.2

/-- **isCased** — the property `Cased`. -/
def isCased (c : Char) : Bool :=
  if c.toNat < 128 then c.isAlpha else inRanges casedRanges c

/-- **isIgnorable** — the property `Case_Ignorable`. -/
def isIgnorable (c : Char) : Bool := inRanges ignorableRanges c

/-- **nextIsCased** — the first character that case does not ignore is a cased one. -/
def nextIsCased (cs : List Char) : Bool :=
  match cs.dropWhile isIgnorable with
  | [] => false
  | c :: _ => isCased c

/-- **smallSigma** — the small form of `Σ` between the characters before it, nearest first, and
those after it: final when a word ends here. -/
def smallSigma (before after : List Char) : Char :=
  if nextIsCased before && !nextIsCased after then 'ς' else 'σ'

/-- **smallAfter** — the small form of a text that follows the characters `before`, nearest
first. -/
def smallAfter (before : List Char) : List Char → List Char
  | [] => []
  | c :: cs => (if c = 'Σ' then [smallSigma before cs] else small c) ++ smallAfter (c :: before) cs

end LetterCase

/-! ## § The two forms of a text -/

/-- **upperChars** — the capital form, character by character. -/
def upperChars (cs : List Char) : List Char := cs.flatMap LetterCase.capital

/-- **lowerChars** — the small form. -/
def lowerChars (cs : List Char) : List Char := LetterCase.smallAfter [] cs

/-- **upper** — the capital form of a text. -/
def upper (s : String) : String := String.ofList (upperChars s.toList)

/-- **lower** — the small form of a text. -/
def lower (s : String) : String := String.ofList (lowerChars s.toList)

/-- **equalsIgnoringAsciiCase** — the texts agree once ASCII letters are small. -/
def equalsIgnoringAsciiCase (a b : String) : Bool :=
  a.toList.map Char.toLower == b.toList.map Char.toLower

/-! ## § ASCII -/

theorem upperChars_ascii {cs : List Char} (h : ∀ c ∈ cs, c.toNat < 128) :
    upperChars cs = cs.map Char.toUpper := by
  induction cs with
  | nil => rfl
  | cons c cs ih =>
    have hc := h c List.mem_cons_self
    have hs := ih fun d hd => h d (List.mem_cons_of_mem _ hd)
    simp only [upperChars, List.flatMap_cons, LetterCase.capital, if_pos hc] at hs ⊢
    simp [hs]

theorem LetterCase.smallAfter_ascii {cs : List Char} (before : List Char)
    (h : ∀ c ∈ cs, c.toNat < 128) : smallAfter before cs = cs.map Char.toLower := by
  induction cs generalizing before with
  | nil => rfl
  | cons c cs ih =>
    have hc := h c List.mem_cons_self
    have hs := ih (c :: before) fun d hd => h d (List.mem_cons_of_mem _ hd)
    have hn : c ≠ 'Σ' := by rintro rfl; revert hc; decide
    simp [smallAfter, small, hn, hc, hs]

theorem lowerChars_ascii {cs : List Char} (h : ∀ c ∈ cs, c.toNat < 128) :
    lowerChars cs = cs.map Char.toLower :=
  LetterCase.smallAfter_ascii [] h

end RegisterMap.Text
