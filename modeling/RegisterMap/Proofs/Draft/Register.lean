import RegisterMap.Proofs.Draft.Field

/-!
# Registers and pages of a draft — when they are accepted

A register is built from its draft exactly when the draft is valid, and so is a page. What is built
has the name of its draft and as many words as the ends of its address say.

## § What is here

* `Register.exists_build_iff`, `Page.exists_build_iff` — exactly the valid registers and pages are
  built;
* `Register.of_build`, `Page.of_build` — what a built register or page has of its draft.
-/

namespace RegisterMap

open Outcome

/-! ## § Registers -/

namespace Register

variable {dataWidth : Nat} {d : Draft.Register}

/-- The last bit is the one below the number of bits, which 32 bits can hold. -/
theorem lastBit_spec {words : Nat} (hlow : 1 ≤ dataWidth) (hhigh : dataWidth ≤ 64)
    (hpos : 1 ≤ words) (hwords : words ≤ 9) :
    lastBit dataWidth words + 1 = dataWidth * words ∧
      lastBit dataWidth words + 1 < capacity 32 := by
  have hbits : 0 < dataWidth * words := Nat.mul_pos hlow hpos
  have hmost : dataWidth * words ≤ 64 * 9 := Nat.mul_le_mul hhigh hwords
  have hcap : 64 * 9 < capacity 32 := by decide
  rw [lastBit]
  omega

/-- The field that stands in for none is valid, so only the fields of the draft matter. -/
theorem forall_draftFields_iff {last : Nat} (hlast : last < capacity 32) :
    (∀ f ∈ draftFields d last, f.Valid (last + 1)) ↔
      ∀ f ∈ d.fields.getD [], f.Valid (last + 1) := by
  have hwhole : ∀ f ∈ [wholeField d.name last], f.Valid (last + 1) := by
    intro f hf
    rw [List.mem_singleton.1 hf]
    exact valid_wholeField hlast d.name
  unfold draftFields
  split
  · rename_i hfields
    rw [hfields, Option.getD_some]
  · rename_i hnone
    have hempty : d.fields.getD [] = [] := by
      cases hfields : d.fields with
      | none => rfl
      | some fs =>
        cases fs with
        | nil => rfl
        | cons f fs => exact absurd hfields (hnone f fs)
    rw [hempty]
    exact iff_of_true hwhole fun f hf => by cases hf

/-- Exactly the valid registers are built. -/
theorem exists_build_iff (hlow : 1 ≤ dataWidth) (hhigh : dataWidth ≤ 64) :
    (∃ r, (build dataWidth d).result = .ok r) ↔ d.Valid dataWidth := by
  -- Ends that are near each other leave a last bit of 32 bits, as the fields need it.
  have hfields : ∀ {first last : Nat}, Nat.dist first last ≤ 8 →
      ((∃ fs, (draftFields d (lastBit dataWidth (AddressRange.ofEnds first last).wordCount)).mapM
          (Field.ofDraft d.name (lastBit dataWidth (AddressRange.ofEnds first last).wordCount))
            = .ok fs) ↔
        ∀ f ∈ d.fields.getD [], f.Valid (dataWidth * (Nat.dist first last + 1))) := by
    intro first last hdist
    rw [AddressRange.wordCount_ofEnds]
    obtain ⟨hbits, hcap⟩ := lastBit_spec hlow hhigh (Nat.succ_pos _) (Nat.succ_le_succ hdist)
    rw [exists_mapM_iff, ← hbits, ← forall_draftFields_iff (Nat.lt_of_succ_lt hcap)]
    exact forall₂_congr fun f _ => Field.exists_ofDraft_iff d.name hcap
  constructor
  · rintro ⟨r, h⟩
    obtain ⟨hname, range, hrange, fs, hfs, -⟩ := build_eq_ok.1 h
    obtain ⟨first, last, hends, hdist, rfl⟩ := (AddressRange.ofScalar_eq_ok d.name).1 hrange
    exact ⟨hname, first, last, hends, hdist, (hfields hdist).1 ⟨fs, hfs⟩⟩
  · rintro ⟨hname, first, last, hends, hdist, hvalid⟩
    obtain ⟨fs, hfs⟩ := (hfields hdist).2 hvalid
    have hrange := (AddressRange.ofScalar_eq_ok d.name).2 ⟨first, last, hends, hdist, rfl⟩
    exact ⟨_, build_eq_ok.2 ⟨hname, _, hrange, fs, hfs, rfl⟩⟩

/-- A register has the name of its draft, and a word for each of its addresses. -/
theorem of_build {r : Register} (h : (build dataWidth d).result = .ok r) :
    r.name = d.name ∧ ∃ first last, d.addr.Ends first last ∧
      r.wordCount = Nat.dist first last + 1 := by
  obtain ⟨-, range, hrange, fs, -, rfl⟩ := build_eq_ok.1 h
  obtain ⟨first, last, hends, -, rfl⟩ := (AddressRange.ofScalar_eq_ok d.name).1 hrange
  exact ⟨rfl, first, last, hends, AddressRange.wordCount_ofEnds first last⟩

end Register

/-! ## § Pages -/

namespace Page

variable {dataWidth : Nat} {d : Draft.Page}

/-- Exactly the valid pages are built. -/
theorem exists_build_iff (hlow : 1 ≤ dataWidth) (hhigh : dataWidth ≤ 64) :
    (∃ p, (build dataWidth d).result = .ok p) ↔ d.Valid dataWidth := by
  have hregs : (∃ rs, d.regs.mapM (fun r => (Register.build dataWidth r).result) = .ok rs) ↔
      ∀ r ∈ d.regs, r.Valid dataWidth := by
    rw [exists_mapM_iff]
    exact forall₂_congr fun r _ => Register.exists_build_iff hlow hhigh
  constructor
  · rintro ⟨p, h⟩
    obtain ⟨hname, rs, hrs, -⟩ := build_eq_ok.1 h
    exact ⟨hname, hregs.1 ⟨rs, hrs⟩⟩
  · rintro ⟨hname, hvalid⟩
    obtain ⟨rs, hrs⟩ := hregs.2 hvalid
    exact ⟨_, build_eq_ok.2 ⟨hname, rs, hrs, rfl⟩⟩

/-- A page has the name of its draft, and its registers in order. -/
theorem of_build {p : Page} (h : (build dataWidth d).result = .ok p) : p.name = d.name ∧
    List.Forall₂ (fun draft r => (Register.build dataWidth draft).result = .ok r)
      d.regs p.regs := by
  obtain ⟨-, rs, hrs, rfl⟩ := build_eq_ok.1 h
  exact ⟨rfl, mapM_eq_ok.1 hrs⟩

end Page

end RegisterMap
