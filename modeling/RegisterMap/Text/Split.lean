/-!
# Splitting and joining

A text is split at every occurrence of a separator character, so it has one part more than it has
separators.
-/

namespace RegisterMap.Text

/-- **splitOn** — the parts between the separators, empty ones included. -/
def splitOn (sep : Char) : List Char → List (List Char)
  | [] => [[]]
  | c :: cs =>
    if c = sep then [] :: splitOn sep cs
    else
      match splitOn sep cs with
      | [] => [[c]]
      | part :: parts => (c :: part) :: parts

/-- **join** — the texts one after another with the separator between neighbours. -/
def join (sep : String) : List String → String
  | [] => ""
  | [s] => s
  | s :: t :: rest => s ++ sep ++ join sep (t :: rest)

theorem splitOn_ne_nil (sep : Char) (cs : List Char) : splitOn sep cs ≠ [] := by
  cases cs with
  | nil => simp [splitOn]
  | cons c cs =>
    simp only [splitOn]
    split
    · simp
    · split <;> simp

/-- A text with the separator has at least two parts. -/
theorem two_le_length_splitOn {sep : Char} {cs : List Char} (h : sep ∈ cs) :
    2 ≤ (splitOn sep cs).length := by
  induction cs with
  | nil => simp at h
  | cons c cs ih =>
    have hne := List.length_pos_iff.2 (splitOn_ne_nil sep cs)
    simp only [splitOn]
    split
    · simp only [List.length_cons]
      omega
    · rename_i hc
      have hmem : sep ∈ cs := by
        rcases List.mem_cons.1 h with rfl | hmem
        · exact absurd rfl hc
        · exact hmem
      have hrest := ih hmem
      split
      · rename_i hnil
        simp [hnil] at hrest
      · rename_i part parts hparts
        simpa [hparts] using hrest

/-- A text without the separator is its only part. -/
theorem splitOn_eq_singleton {sep : Char} {cs : List Char} (h : sep ∉ cs) :
    splitOn sep cs = [cs] := by
  induction cs with
  | nil => rfl
  | cons c cs ih =>
    have hc : c ≠ sep := fun e => h (e ▸ List.mem_cons_self)
    simp [splitOn, hc, ih fun m => h (List.mem_cons_of_mem _ m)]

/-- What stands before the first separator is the first part. -/
theorem splitOn_append {sep : Char} {a : List Char} (h : sep ∉ a) (rest : List Char) :
    splitOn sep (a ++ sep :: rest) = a :: splitOn sep rest := by
  induction a with
  | nil => simp [splitOn]
  | cons c cs ih =>
    have hc : c ≠ sep := fun e => h (e ▸ List.mem_cons_self)
    rw [List.cons_append, splitOn, if_neg hc, ih fun m => h (List.mem_cons_of_mem _ m)]

theorem splitOn_eq_singleton_iff {sep : Char} {cs a : List Char} :
    splitOn sep cs = [a] ↔ sep ∉ cs ∧ a = cs := by
  constructor
  · intro h
    have hnot : sep ∉ cs := by
      intro hmem
      have htwo := two_le_length_splitOn hmem
      rw [h] at htwo
      simp at htwo
    rw [splitOn_eq_singleton hnot] at h
    exact ⟨hnot, (List.cons.inj h).1.symm⟩
  · rintro ⟨hnot, rfl⟩
    exact splitOn_eq_singleton hnot

theorem splitOn_eq_pair_iff {sep : Char} {cs a b : List Char} :
    splitOn sep cs = [a, b] ↔ cs = a ++ sep :: b ∧ sep ∉ a ∧ sep ∉ b := by
  constructor
  · intro h
    have hmem : sep ∈ cs := by
      apply Decidable.byContradiction
      intro hnot
      rw [splitOn_eq_singleton hnot] at h
      simp at h
    obtain ⟨first, rest, rfl, hfirst⟩ := List.eq_append_cons_of_mem hmem
    rw [splitOn_append hfirst] at h
    obtain ⟨rfl, hrest⟩ := List.cons.inj h
    obtain ⟨hnot, rfl⟩ := splitOn_eq_singleton_iff.1 hrest
    exact ⟨rfl, hfirst, hnot⟩
  · rintro ⟨rfl, ha, hb⟩
    rw [splitOn_append ha, splitOn_eq_singleton hb]

end RegisterMap.Text
