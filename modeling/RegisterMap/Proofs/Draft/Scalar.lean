import RegisterMap.Device.Build.Address
import RegisterMap.Proofs.Draft.Valid

/-!
# Numbers and addresses of a draft — when they are accepted

The numbers, keys, labels and addresses of a draft are accepted exactly when they are what a valid
draft has, and then they give the number that they mean.

## § What is here

* `natural_eq_ok`, `naturalOf_eq_ok`, `labelOf_eq_ok`, `exists_labelOf_iff` — numbers, keys and
  labels;
* `AddressRange.ofScalar_eq_ok` — the addresses of a register.
-/

namespace RegisterMap

open Outcome

/-! ## § Numbers and labels -/

theorem Draft.Scalar.natural_eq_ok {what : String} {s : Scalar} {n : Nat} :
    s.natural what = .ok n ↔ s.Means n := by
  cases s with
  | number k =>
    rw [natural, Means, Except.ok.injEq, eq_comm]
  | text s =>
    rw [natural, Means, ← Text.readInteger_eq_some_iff]
    cases Text.readInteger s.toList with
    | none => simp
    | some m => simp

theorem Yaml.Number.natural_eq_some {m : Yaml.Number} {n : Nat} :
    m.natural = some n ↔ m = .integer n := by
  cases m with
  | float x => simp [natural]
  | integer i =>
    rw [natural, integer.injEq]
    by_cases hi : 0 ≤ i
    · rw [if_pos hi, Option.some.injEq]
      omega
    · rw [if_neg hi]
      simp only [reduceCtorEq, false_iff]
      omega

/-- The number of a key is an integer that is not negative, or what its text spells. -/
theorem naturalOf_eq_ok {what : String} {v : Yaml.Value} {n : Nat} : naturalOf what v = .ok n ↔
    v = .number (.integer n) ∨ ∃ s, v = .text s ∧ Text.Spells s.toList n := by
  cases v with
  | number m =>
    have hread : naturalOf what (.number m) = .ok n ↔ m.natural = some n := by
      rw [naturalOf]
      cases m.natural <;> simp
    rw [hread, Yaml.Number.natural_eq_some]
    simp
  | text s =>
    have hread : naturalOf what (.text s) = .ok n ↔ Text.readInteger s.toList = some n := by
      rw [naturalOf]
      cases Text.readInteger s.toList <;> simp
    rw [hread, Text.readInteger_eq_some_iff]
    simp
  | null => simp [naturalOf]
  | bool b => simp [naturalOf]
  | sequence vs => simp [naturalOf]
  | mapping es => simp [naturalOf]
  | tagged t v => simp [naturalOf]

/-- Of the numbers of 64 bits, a key has those that it is a key for. -/
theorem naturalOf_eq_ok_of_lt {what : String} {v : Yaml.Value} {n : Nat} (hn : n < capacity 64) :
    naturalOf what v = .ok n ↔ v.IsKey n := by
  rw [naturalOf_eq_ok]
  constructor
  · rintro (rfl | ⟨s, rfl, hspells⟩)
    · exact ⟨rfl, hn⟩
    · exact hspells
  · intro h
    unfold Yaml.Value.IsKey at h
    split at h
    · obtain ⟨rfl, -⟩ := h
      exact .inl rfl
    · exact .inr ⟨_, rfl, h⟩
    · exact h.elim

theorem Yaml.Value.IsKey.lt {v : Yaml.Value} {n : Nat} (h : v.IsKey n) : n < capacity 64 := by
  unfold IsKey at h
  split at h
  · exact h.2
  · exact h.1
  · exact h.elim

theorem Yaml.Value.IsKey.unique {k : Value} {m n : Nat} (hm : k.IsKey m) (hn : k.IsKey n) :
    m = n := by
  have hread : naturalOf "" k = .ok m := (naturalOf_eq_ok_of_lt hm.lt).2 hm
  rw [(naturalOf_eq_ok_of_lt hn.lt).2 hn] at hread
  exact (Except.ok.inj hread).symm

theorem labelOf_eq_ok {what label : String} {v : Yaml.Value} :
    labelOf what v = .ok label ↔ v.Labels label := by
  cases v <;> simp [labelOf, Yaml.Value.Labels, eq_comm]

theorem exists_labelOf_iff (what : String) {v : Yaml.Value} :
    (∃ label, labelOf what v = .ok label) ↔ v.IsLabel := by
  cases v <;> simp [labelOf, Yaml.Value.IsLabel]

/-! ## § Addresses -/

namespace AddressRange

theorem readAddress_eq_ok {register : String} {text part : List Char} {n : Nat} :
    readAddress register text part = .ok n ↔ Text.Spells part n := by
  rw [readAddress, ← Text.readInteger_eq_some_iff]
  cases Text.readInteger part with
  | none => simp
  | some m => simp

/-- A text names one address or two with a colon between them. -/
theorem readEnds_eq_ok {register : String} {text : List Char} {first last : Nat} :
    readEnds register text = .ok (first, last) ↔ (Text.Spells text first ∧ last = first) ∨
      ∃ a b, text = a ++ ':' :: b ∧ Text.Spells a first ∧ Text.Spells b last := by
  constructor
  · intro h
    unfold readEnds at h
    split at h
    · rename_i single hparts
      obtain ⟨a, ha, hends⟩ := bind_eq_ok.1 h
      cases hends
      obtain ⟨-, rfl⟩ := Text.splitOn_eq_singleton_iff.1 hparts
      exact .inl ⟨readAddress_eq_ok.1 ha, rfl⟩
    · rename_i a b hparts
      obtain ⟨m, hm, h⟩ := bind_eq_ok.1 h
      obtain ⟨n, hn, hends⟩ := bind_eq_ok.1 h
      cases hends
      obtain ⟨htext, -, -⟩ := Text.splitOn_eq_pair_iff.1 hparts
      exact .inr ⟨a, b, htext, readAddress_eq_ok.1 hm, readAddress_eq_ok.1 hn⟩
    · cases h
  · rintro (⟨hspells, rfl⟩ | ⟨a, b, rfl, ha, hb⟩)
    · rw [readEnds, Text.splitOn_eq_singleton hspells.not_mem_colon]
      exact bind_eq_ok.2 ⟨last, readAddress_eq_ok.2 hspells, rfl⟩
    · have hparts := Text.splitOn_eq_pair_iff.2 ⟨rfl, ha.not_mem_colon, hb.not_mem_colon⟩
      rw [readEnds, hparts]
      exact bind_eq_ok.2 ⟨first, readAddress_eq_ok.2 ha,
        bind_eq_ok.2 ⟨last, readAddress_eq_ok.2 hb, rfl⟩⟩

/-- The text of a number names it as both ends. -/
theorem readEnds_chars_eq_ok (register : String) {s : Draft.Scalar} {first last : Nat} :
    readEnds register s.chars = .ok (first, last) ↔ s.Ends first last := by
  rw [readEnds_eq_ok]
  cases s with
  | text s => exact Iff.rfl
  | number k =>
    have hspells : Text.Spells (Nat.toDigits 10 k.toNat) k.toNat :=
      Text.spells_toDigits (UInt64.toNat_lt k)
    show (Text.Spells (Nat.toDigits 10 k.toNat) first ∧ _) ∨ _ ↔ first = k.toNat ∧ last = first
    constructor
    · rintro (⟨hfirst, hlast⟩ | ⟨a, b, htext, -, -⟩)
      · exact ⟨hfirst.unique hspells, hlast⟩
      · have hcolon : ':' ∈ Nat.toDigits 10 k.toNat := by
          rw [show Nat.toDigits 10 k.toNat = a ++ ':' :: b from htext]
          simp
        exact absurd hcolon hspells.not_mem_colon
    · rintro ⟨rfl, hlast⟩
      exact .inl ⟨hspells, hlast⟩

theorem wordCount_ofEnds (first last : Nat) :
    (ofEnds first last).wordCount = Nat.dist first last + 1 := by
  unfold ofEnds Nat.dist
  split
  · show last - first + 1 = _
    omega
  · show first - last + 1 = _
    omega

theorem checkLength_eq_ok {register : String} {r s : AddressRange} :
    checkLength register r = .ok s ↔ r.wordCount ≤ 9 ∧ s = r := by
  have hcap : 9 < capacity 64 := by decide
  rw [checkLength, bind_eq_ok, wordCount]
  constructor
  · rintro ⟨words, hwords, h⟩
    obtain ⟨rfl, -⟩ := checkedAdd_eq_ok.1 (mapError_eq_ok.1 hwords)
    split at h
    · cases h
    · rename_i hle
      exact ⟨Nat.le_of_not_lt hle, (Except.ok.inj h).symm⟩
  · rintro ⟨hle, rfl⟩
    refine ⟨_, mapError_eq_ok.2 (checkedAdd_eq_ok.2 ⟨rfl, by omega⟩), if_neg ?_⟩
    exact Nat.not_lt.2 hle

/-- Addresses are accepted when their ends can be read and are not too far apart. -/
theorem ofScalar_eq_ok (register : String) {s : Draft.Scalar} {r : AddressRange} :
    ofScalar register s = .ok r ↔ ∃ first last, s.Ends first last ∧ Nat.dist first last ≤ 8 ∧
      r = ofEnds first last := by
  rw [ofScalar, bind_eq_ok]
  constructor
  · rintro ⟨⟨first, last⟩, hends, hlength⟩
    obtain ⟨hcount, rfl⟩ := checkLength_eq_ok.1 hlength
    rw [wordCount_ofEnds] at hcount
    have hdist : Nat.dist first last ≤ 8 := Nat.le_of_succ_le_succ hcount
    exact ⟨first, last, (readEnds_chars_eq_ok register).1 (mapError_eq_ok.1 hends), hdist, rfl⟩
  · rintro ⟨first, last, hends, hdist, rfl⟩
    refine ⟨(first, last), mapError_eq_ok.2 ((readEnds_chars_eq_ok register).2 hends),
      checkLength_eq_ok.2 ⟨?_, rfl⟩⟩
    rw [wordCount_ofEnds]
    exact Nat.succ_le_succ hdist

end AddressRange

/-- The ends of an address are what its text says, no more than once. -/
theorem Draft.Scalar.Ends.unique {s : Scalar} {first last first' last' : Nat}
    (h : s.Ends first last) (h' : s.Ends first' last') : first = first' ∧ last = last' := by
  have hread := (AddressRange.readEnds_chars_eq_ok "").2 h
  rw [(AddressRange.readEnds_chars_eq_ok "").2 h'] at hread
  cases hread
  exact ⟨rfl, rfl⟩

theorem Draft.Scalar.Ends.lt {s : Scalar} {first last : Nat} (h : s.Ends first last) :
    first < capacity 64 ∧ last < capacity 64 := by
  cases s with
  | number k =>
    obtain ⟨rfl, rfl⟩ := h
    exact ⟨UInt64.toNat_lt k, UInt64.toNat_lt k⟩
  | text s =>
    rcases h with ⟨hfirst, rfl⟩ | ⟨a, b, -, hfirst, hlast⟩
    · exact ⟨hfirst.1, hfirst.1⟩
    · exact ⟨hfirst.1, hlast.1⟩

end RegisterMap
