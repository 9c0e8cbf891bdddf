import RegisterMap.Header.Label
import RegisterMap.Proofs.Device.Spelling

/-!
# Labels replaced — which labels become part of a name

A replacement writes characters of a name only, and takes away each character it replaces. A pair
is replaced while its characters still have replacements of their own to come, so pairs decide
nothing. What is left of a label is therefore part of a name exactly when each of its characters
is, or has a replacement.

## § What is here

* `Label.Within` — characters of a name, or of a list besides;
* `Replacement.within_apply`, `within_foldl` — what a replacement, and a row of them, leaves;
* `Label.isTail_normalize` — what a whole label leaves.
-/

namespace RegisterMap

namespace Label

/-- **Within** — each character may stand inside a name, or is one of `extra`. -/
def Within (extra cs : List Char) : Prop := ∀ c ∈ cs, Identifier.isPart c = true ∨ c ∈ extra

theorem within_append {extra cs ds : List Char} :
    Within extra (cs ++ ds) ↔ Within extra cs ∧ Within extra ds := List.forall_mem_append

theorem within_cons {extra cs : List Char} {c : Char} :
    Within extra (c :: cs) ↔ (Identifier.isPart c = true ∨ c ∈ extra) ∧ Within extra cs :=
  List.forall_mem_cons

/-! ## § One replacement -/

namespace Replacement

/-- **source** — the characters that a replacement looks for. -/
def source : Replacement → List Char
  | char c _ => [c]
  | pair c d _ => [c, d]

/-- **text** — what it writes for them. -/
def text : Replacement → String
  | char _ text => text
  | pair _ _ text => text

/-- **removes** — the characters of which it leaves none. -/
def removes : Replacement → List Char
  | char c _ => [c]
  | pair .. => []

end Replacement

theorem within_char {extra cs : List Char} {c : Char} {text : String} (ht : IsTail text) :
    Within extra (Replacement.apply cs (.char c text)) ↔ Within (c :: extra) cs := by
  show (∀ y ∈ cs.flatMap fun x => if x = c then text.toList else [x], _) ↔ _
  rw [List.forall_mem_flatMap]
  refine forall₂_congr fun x _ => ?_
  by_cases hx : x = c
  · rw [if_pos hx]
    exact ⟨fun _ => .inr (List.mem_cons.2 (.inl hx)), fun _ y hy => .inl (ht y hy)⟩
  · rw [if_neg hx, List.forall_mem_singleton, List.mem_cons, or_iff_right hx]

/-- The text that is written for a pair is as good as the pair. -/
theorem within_replacePair {extra : List Char} {c d : Char} {text : List Char}
    (ht : Within extra text) (hc : c ∈ extra) (hd : d ∈ extra) (cs : List Char) :
    Within extra (replacePair c d text cs) ↔ Within extra cs := by
  fun_induction replacePair c d text cs with
  | case1 x y rest hpair ih =>
    obtain ⟨rfl, rfl⟩ := hpair
    rw [within_append, ih, within_cons, within_cons]
    exact ⟨fun h => ⟨.inr hc, .inr hd, h.2⟩, fun h => ⟨ht, h.2.2⟩⟩
  | case2 x y rest _ ih => rw [within_cons, ih, within_cons (c := x)]
  | case3 cs _ => exact Iff.rfl

/-- A replacement leaves what it does not remove, and nothing new beside characters of a name. -/
theorem Replacement.within_apply {extra cs : List Char} {r : Replacement} (ht : IsTail r.text)
    (hs : ∀ c ∈ r.source, c ∈ r.removes ++ extra) :
    Within extra (r.apply cs) ↔ Within (r.removes ++ extra) cs := by
  cases r with
  | char c text => exact within_char ht
  | pair c d text =>
    obtain ⟨hc, hd, -⟩ := (List.forall_mem_cons.1 hs).imp_right List.forall_mem_cons.1
    exact within_replacePair (fun x hx => .inl (ht x hx)) hc hd cs

/-! ## § All replacements -/

/-- **Orderly** — replacements write characters of a name only, and the characters that one looks
for are removed by it or later. -/
def Orderly : List Replacement → Prop
  | [] => True
  | r :: rs => (IsTail r.text ∧ ∀ c ∈ r.source, c ∈ (r :: rs).flatMap Replacement.removes) ∧
    Orderly rs

instance decidableOrderly : (rs : List Replacement) → Decidable (Orderly rs)
  | [] => .isTrue trivial
  | r :: rs =>
    have := decidableOrderly rs
    have := List.decidableBAll (· ∈ (r :: rs).flatMap Replacement.removes) r.source
    inferInstanceAs (Decidable ((IsTail r.text ∧ ∀ c ∈ r.source,
      c ∈ (r :: rs).flatMap Replacement.removes) ∧ Orderly rs))

theorem within_foldl {rs : List Replacement} (h : Orderly rs) (cs : List Char) :
    Within [] (rs.foldl Replacement.apply cs) ↔ Within (rs.flatMap Replacement.removes) cs := by
  induction rs generalizing cs with
  | nil => exact Iff.rfl
  | cons r rs ih =>
    obtain ⟨⟨htext, hsource⟩, hrest⟩ := h
    rw [List.foldl_cons, ih hrest, List.flatMap_cons]
    exact Replacement.within_apply htext hsource

/-- **replaced** — the characters that have a replacement. -/
def replaced : List Char := replacements.flatMap Replacement.removes

theorem orderly_replacements : Orderly replacements := by decide

/-- A label becomes part of a name when all its characters are, or have a replacement. -/
theorem isTail_normalize (s : String) : IsTail (normalize s) ↔ Within replaced s.toList := by
  rw [IsTail, normalize, String.toList_ofList, replaced, ← within_foldl orderly_replacements]
  simp only [Within, List.not_mem_nil, or_false]
  exact Iff.rfl

end Label

end RegisterMap
