import RegisterMap.Proofs.Outcome
import RegisterMap.Text.LetterCase

/-!
# Letter case — which texts have a given small form

The small form goes by the tables of Unicode, but on ASCII it changes the capital letters only. A
character beyond ASCII never gets a small form inside ASCII, the Kelvin sign apart; so an ASCII text
without a `k` is the small form of the texts that differ from it in the case of ASCII letters, and
of no others.

## § What is here

* `toNat_toLower`, `toNat_toUpper` — the small and the capital form of an ASCII letter;
* `exists_beyond_of_mem` — what becomes of a character beyond ASCII;
* `lower_eq_iff` — the texts with a given small form.
-/

namespace RegisterMap.Text

/-- The small letters stand 32 places after the capital ones. -/
theorem toNat_toLower (c : Char) :
    c.toLower.toNat = if 65 ≤ c.toNat ∧ c.toNat ≤ 90 then c.toNat + 32 else c.toNat := by
  unfold Char.toLower
  split
  · rename_i hcapital
    have hlow : 65 ≤ c.val.toNat := hcapital.1
    have hhigh : c.val.toNat ≤ 90 := hcapital.2
    have hshift : ('a'.val - 'A'.val).toNat = 32 := rfl
    rw [if_pos ⟨hlow, hhigh⟩]
    simp only [Char.toNat, UInt32.toNat_add, hshift]
    omega
  · rename_i hother
    exact (if_neg hother).symm

/-- The capital letters stand 32 places before the small ones. -/
theorem toNat_toUpper (c : Char) :
    c.toUpper.toNat = if 97 ≤ c.toNat ∧ c.toNat ≤ 122 then c.toNat - 32 else c.toNat := by
  unfold Char.toUpper
  split
  · rename_i hsmall
    have hlow : 97 ≤ c.val.toNat := hsmall.1
    have hhigh : c.val.toNat ≤ 122 := hsmall.2
    have hshift : ('A'.val - 'a'.val).toNat = 4294967264 := rfl
    rw [if_pos ⟨hlow, hhigh⟩]
    simp only [Char.toNat, UInt32.toNat_add, hshift]
    omega
  · rename_i hother
    exact (if_neg hother).symm

/-- A small letter has no smaller form. -/
@[simp] theorem toLower_toLower (c : Char) : c.toLower.toLower = c.toLower := by
  apply Char.toNat_inj.1
  rw [toNat_toLower, toNat_toLower]
  split
  · exact if_neg (by omega)
  · rfl

theorem toNat_lt_of_toLower {c : Char} (h : c.toLower.toNat < 128) : c.toNat < 128 := by
  rw [toNat_toLower] at h
  split at h <;> omega

namespace LetterCase

/-- **Beyond** — a character that no small ASCII text has, or the small form of the Kelvin sign. -/
def Beyond (c : Char) : Prop := 128 ≤ c.toNat ∨ c = 'k'

/-- The runs of the table go to code points beyond ASCII, the Kelvin sign apart, and none of them
goes to a surrogate. -/
theorem smallRuns_target : ∀ r ∈ smallRuns,
    (128 ≤ r.target ∨ (r.target = 107 ∧ r.first = r.last)) ∧
      (r.target + (r.last - r.first) < 0xd800 ∨
        (0xdfff < r.target ∧ r.target + (r.last - r.first) < 0x110000)) := by decide +kernel

theorem toNat_ofNat_of_valid {n : Nat} (h : n.isValidChar) : (Char.ofNat n).toNat = n := by
  unfold Char.ofNat
  rw [dif_pos h]
  rfl

/-- One character comes out of the table beyond ASCII, or as `k`. -/
theorem beyond_of_mapRuns {n m : Nat} (h : mapRuns smallRuns n = some m) :
    Beyond (Char.ofNat m) := by
  obtain ⟨r, hr, hm⟩ := List.exists_of_findSome?_eq_some h
  split at hm
  · rename_i hrun
    obtain ⟨hfirst, hlast, -⟩ := hrun
    obtain ⟨htarget, hvalid⟩ := smallRuns_target r hr
    cases hm
    have hchar : (r.target + (n - r.first)).isValidChar := by
      show _ < 0xd800 ∨ _
      omega
    rcases htarget with hbeyond | ⟨hkelvin, hone⟩
    · left
      rw [toNat_ofNat_of_valid hchar]
      omega
    · right
      have hzero : n - r.first = 0 := by omega
      rw [hkelvin, hzero]
  · cases hm

/-- What becomes of a character beyond ASCII is not all inside ASCII. -/
theorem exists_beyond_small {c : Char} (hc : 128 ≤ c.toNat) : ∃ x ∈ small c, Beyond x := by
  rw [small, if_neg (by omega), mapped]
  cases hlong : longSmalls.lookup c.toNat with
  | some image =>
    -- The only longer image ends in a combining dot.
    obtain ⟨-, rfl⟩ := Prod.mk.inj (List.mem_singleton.1 (Outcome.mem_of_lookup hlong))
    exact ⟨Char.ofNat 0x307, by simp, .inl (by decide)⟩
  | none =>
    cases hrun : mapRuns smallRuns c.toNat with
    | some m => exact ⟨_, List.mem_singleton_self _, beyond_of_mapRuns hrun⟩
    | none => exact ⟨c, List.mem_singleton_self c, .inl hc⟩

theorem beyond_smallSigma (before after : List Char) : Beyond (smallSigma before after) := by
  unfold smallSigma
  split
  · exact .inl (by decide)
  · exact .inl (by decide)

/-- A text with a character beyond ASCII has no small form inside ASCII without a `k`. -/
theorem exists_beyond_of_mem {c : Char} (hc : 128 ≤ c.toNat) {cs : List Char} (hmem : c ∈ cs)
    (before : List Char) : ∃ x ∈ smallAfter before cs, Beyond x := by
  induction cs generalizing before with
  | nil => cases hmem
  | cons a as ih =>
    rw [smallAfter]
    rcases List.mem_cons.1 hmem with rfl | hrest
    · split
      · exact ⟨_, List.mem_append_left _ (List.mem_singleton_self _), beyond_smallSigma _ _⟩
      · obtain ⟨x, hx, hbeyond⟩ := exists_beyond_small hc
        exact ⟨x, List.mem_append_left _ hx, hbeyond⟩
    · obtain ⟨x, hx, hbeyond⟩ := ih hrest (a :: before)
      exact ⟨x, List.mem_append_right _ hx, hbeyond⟩

end LetterCase

/-- A text of small ASCII letters other than `k` is the small form of the texts that agree with it
up to the case of ASCII letters. -/
theorem lower_eq_iff {s t : String} (hascii : ∀ c ∈ t.toList, c.toNat < 128 ∧ c ≠ 'k')
    (hsmall : t.toList.map Char.toLower = t.toList) :
    lower s = t ↔ equalsIgnoringAsciiCase s t = true := by
  rw [equalsIgnoringAsciiCase, beq_iff_eq, hsmall, lower, ← String.toList_inj,
    String.toList_ofList]
  constructor
  · intro h
    have hs : ∀ c ∈ s.toList, c.toNat < 128 := by
      intro c hc
      apply Nat.lt_of_not_le
      intro hbeyond
      obtain ⟨x, hx, hlarge | rfl⟩ := LetterCase.exists_beyond_of_mem hbeyond hc []
      · have hlow := (hascii x (h ▸ hx)).1
        omega
      · exact (hascii 'k' (h ▸ hx)).2 rfl
    rw [← h, lowerChars_ascii hs]
  · intro h
    have hs : ∀ c ∈ s.toList, c.toNat < 128 := by
      intro c hc
      apply toNat_lt_of_toLower
      exact (hascii c.toLower (h ▸ List.mem_map_of_mem hc)).1
    rw [lowerChars_ascii hs, h]

end RegisterMap.Text
