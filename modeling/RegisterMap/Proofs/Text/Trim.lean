import RegisterMap.Proofs.Text.Integer
import RegisterMap.Text.Split

/-!
# Trimmed texts — what is left without the blanks around it

Trimming drops blanks from the front, then from the back. What it leaves is the one part of the text
that has only blanks before and behind it and no blank at its own ends, so it can be told without
saying how it is found.

## § What is here

* `Trims` — a text and the part of it that has no blank at its ends;
* `trims_iff` — each text has one such part, the trimmed text;
* `splitOn_eq_cons_iff` — the first part of a split text, and the rest.
-/

namespace RegisterMap.Text

/-! ## § Trimming -/

/-- **Trims** — a part of a text without blanks at its ends, with only blanks around it. -/
def Trims (cs core : List Char) : Prop :=
  (∃ before after, cs = before ++ (core ++ after) ∧ (∀ c ∈ before, isBlank c = true) ∧
    ∀ c ∈ after, isBlank c = true) ∧
  (∀ c ∈ core.head?, isBlank c = false) ∧ ∀ c ∈ core.getLast?, isBlank c = false

/-- Blanks in front of a text that does not start with one are dropped, and nothing else. -/
theorem dropWhile_blanks {before rest : List Char} (hbefore : ∀ c ∈ before, isBlank c = true)
    (hrest : ∀ c ∈ rest.head?, isBlank c = false) :
    (before ++ rest).dropWhile isBlank = rest := by
  rw [List.dropWhile_append_of_pos hbefore]
  cases rest with
  | nil => rfl
  | cons c rest =>
    have hc : isBlank c = false := hrest c rfl
    rw [List.dropWhile_cons_of_neg]
    rw [hc]
    exact Bool.false_ne_true

/-- What is left after blanks are dropped from the front does not start with a blank. -/
theorem isBlank_head?_dropWhile (cs : List Char) :
    ∀ c ∈ (cs.dropWhile isBlank).head?, isBlank c = false := by
  intro c hc
  have hfirst := List.head?_dropWhile_not isBlank cs
  rw [Option.mem_def.1 hc] at hfirst
  simpa using hfirst

theorem trims_trim (cs : List Char) : Trims cs (trim cs) := by
  have hcs : cs.takeWhile isBlank ++ cs.dropWhile isBlank = cs := List.takeWhile_append_dropWhile
  have hhead := isBlank_head?_dropWhile cs
  rw [trim]
  generalize cs.dropWhile isBlank = rest at hcs hhead
  have hrest : (rest.reverse.dropWhile isBlank).reverse ++ (rest.reverse.takeWhile isBlank).reverse
      = rest := by
    rw [← List.reverse_append, List.takeWhile_append_dropWhile, List.reverse_reverse]
  refine ⟨⟨cs.takeWhile isBlank, (rest.reverse.takeWhile isBlank).reverse, ?_, ?_, ?_⟩, ?_, ?_⟩
  · rw [hrest, hcs]
  · exact fun c hc => List.mem_takeWhile_imp hc
  · exact fun c hc => List.mem_takeWhile_imp (List.mem_reverse.1 hc)
  · -- The part that is left is a beginning of the text without blanks in front.
    intro c hc
    apply hhead c
    rw [← hrest, List.head?_append, Option.mem_def.1 hc]
    rfl
  · intro c hc
    rw [List.getLast?_reverse] at hc
    exact isBlank_head?_dropWhile _ c hc

/-- The trimmed text is the only part of a text with blanks around it and none at its ends. -/
theorem trims_iff {cs core : List Char} : Trims cs core ↔ trim cs = core := by
  constructor
  · rintro ⟨⟨before, after, rfl, hbefore, hafter⟩, hhead, hlast⟩
    have hback : ∀ c ∈ after.reverse, isBlank c = true := fun c hc =>
      hafter c (List.mem_reverse.1 hc)
    cases core with
    | nil =>
      have hall : ∀ c ∈ before ++ after, isBlank c = true := by
        intro c hc
        exact (List.mem_append.1 hc).elim (hbefore c) (hafter c)
      have hdrop : (before ++ after).dropWhile isBlank = [] := by
        rw [List.dropWhile_eq_nil_iff]
        exact hall
      rw [List.nil_append, trim, hdrop]
      rfl
    | cons c core =>
      have hfront : ∀ x ∈ (c :: core ++ after).head?, isBlank x = false := hhead
      have hlast' : ∀ x ∈ (c :: core).reverse.head?, isBlank x = false := by
        rwa [List.head?_reverse]
      rw [trim, dropWhile_blanks hbefore hfront, List.reverse_append,
        dropWhile_blanks hback hlast', List.reverse_reverse]
  · rintro rfl
    exact trims_trim cs

/-! ## § Parts of a split text -/

/-- The first part of a split text stands before the first separator, if there is one. -/
theorem splitOn_eq_cons_iff {sep : Char} {cs first second : List Char} {rest : List (List Char)} :
    splitOn sep cs = first :: second :: rest ↔ ∃ behind,
      cs = first ++ sep :: behind ∧ sep ∉ first ∧ splitOn sep behind = second :: rest := by
  constructor
  · intro h
    have hmem : sep ∈ cs := by
      apply Decidable.byContradiction
      intro hnot
      rw [splitOn_eq_singleton hnot] at h
      cases h
    obtain ⟨front, behind, rfl, hfront⟩ := List.eq_append_cons_of_mem hmem
    rw [splitOn_append hfront] at h
    obtain ⟨rfl, hbehind⟩ := List.cons.inj h
    exact ⟨behind, rfl, hfront, hbehind⟩
  · rintro ⟨behind, rfl, hfirst, hbehind⟩
    rw [splitOn_append hfirst, hbehind]

end RegisterMap.Text
