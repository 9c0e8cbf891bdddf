import RegisterMap.Proofs.Header.Inventory

/-!
# Prefixes — when fields of different registers have different names

In front of the name of a field stand the parts that the device asks for, with underscores between
them. As long as no part has an underscore itself, the parts and the field are known from the name.
So fields have different names when the page and the register are among the parts and tell the
registers apart.

## § What is here

* `join_inj` — a joined name and its parts;
* `upper_plain`, `hex_plain` — parts without underscores;
* `Scope.PartsApart.nodup_fieldNames` — fields with the page and the register in front of them.
-/

namespace RegisterMap

/-! ## § Joined names -/

/-- **Plain** — a text without underscores. -/
def Plain (s : String) : Prop := '_' ∉ s.toList

/-- Texts up to the first place of a character are the same when the whole texts are. -/
theorem split_eq {c : Char} {xs ys us vs : List Char} (hx : c ∉ xs) (hy : c ∉ ys)
    (h : xs ++ c :: us = ys ++ c :: vs) : xs = ys ∧ us = vs := by
  induction xs generalizing ys with
  | nil =>
    cases ys with
    | nil => exact ⟨rfl, (List.cons.inj h).2⟩
    | cons y ys => exact absurd (List.mem_cons.2 (.inl (List.cons.inj h).1)) hy
  | cons x xs ih =>
    cases ys with
    | nil => exact absurd (List.mem_cons.2 (.inl (List.cons.inj h).1.symm)) hx
    | cons y ys =>
      obtain ⟨rfl, hrest⟩ := List.cons.inj h
      obtain ⟨rfl, hafter⟩ := ih (fun hc => hx (List.mem_cons_of_mem _ hc))
        (fun hc => hy (List.mem_cons_of_mem _ hc)) hrest
      exact ⟨rfl, hafter⟩

theorem join_cons (s x : String) (xs : List String) :
    Text.join "_" (s :: (xs ++ [x])) = s ++ "_" ++ Text.join "_" (xs ++ [x]) := by
  cases xs with
  | nil => rfl
  | cons t ts => rfl

/-- A joined name has the same parts when they have no underscores; the last one may have some. -/
theorem join_inj {xs ys : List String} {x y : String} (hlength : xs.length = ys.length)
    (hxs : ∀ t ∈ xs, Plain t) (hys : ∀ t ∈ ys, Plain t)
    (h : Text.join "_" (xs ++ [x]) = Text.join "_" (ys ++ [y])) : xs = ys ∧ x = y := by
  induction xs generalizing ys with
  | nil =>
    obtain rfl := List.length_eq_zero_iff.1 hlength.symm
    exact ⟨rfl, h⟩
  | cons s xs ih =>
    cases ys with
    | nil => cases hlength
    | cons t ys =>
      obtain ⟨hs, hxs⟩ := List.forall_mem_cons.1 hxs
      obtain ⟨ht, hys⟩ := List.forall_mem_cons.1 hys
      rw [List.cons_append, List.cons_append, join_cons, join_cons] at h
      have hlist := congrArg String.toList h
      simp only [String.toList_append, List.append_assoc] at hlist
      obtain ⟨hfirst, hrest⟩ := split_eq hs ht hlist
      obtain ⟨rfl, rfl⟩ := ih (Nat.succ.inj hlength) hxs hys (String.ext hrest)
      exact ⟨by rw [String.ext hfirst], rfl⟩

/-! ## § Plain parts -/

theorem eq_underscore_of_toUpper {c : Char} (h : c.toUpper = '_') : c = '_' := by
  have hcode := congrArg Char.toNat h
  have hline : Char.toNat '_' = 95 := rfl
  rw [Text.toNat_toUpper, hline] at hcode
  apply Char.toNat_inj.1
  rw [hline]
  split at hcode <;> omega

/-- Capitals of an identifier have the underscores that it has. -/
theorem upper_plain {s : String} (hname : isIdentifier s = true) (h : Plain s) :
    Plain (Text.upper s) := by
  have hascii : ∀ c ∈ s.toList, c.toNat < 128 := fun c hc =>
    lt_of_isPart (isPart_of_isIdentifier hname c hc)
  rw [Plain, Text.upper, String.toList_ofList, Text.upperChars_ascii hascii]
  intro hmem
  obtain ⟨c, hc, hupper⟩ := List.mem_map.1 hmem
  exact h (eq_underscore_of_toUpper hupper ▸ hc)

theorem digits_plain (n : Nat) : '_' ∉ Nat.toDigits 16 n := by
  have hdigit : ∀ d < 16, '_' ≠ d.digitChar := by decide
  induction n using Nat.strongRecOn with
  | ind n ih =>
    by_cases hn : n < 16
    · rw [Nat.toDigits_of_lt_base hn, List.mem_singleton]
      exact hdigit n hn
    · rw [Nat.toDigits_of_base_le (by decide) (Nat.le_of_not_lt hn), List.mem_append,
        List.mem_singleton]
      intro h
      rcases h with hfirst | hlast
      · exact ih (n / 16) (by omega) hfirst
      · exact hdigit (n % 16) (by omega) hlast

theorem hex_plain (n : Nat) : Plain (Text.padLeft '0' 2 (Text.hex n)) := by
  rw [Plain, Text.padLeft, Text.hex, String.toList_append, String.toList_ofList,
    String.toList_ofList, List.mem_append, List.mem_replicate]
  intro h
  rcases h with ⟨-, hzero⟩ | hdigit
  · revert hzero
    decide
  · exact digits_plain n hdigit

/-! ## § Fields -/

namespace Header

namespace Place

variable {p q : Place}

/-- **parts** — what stands in front of the names of the fields of a register. -/
def parts (p : Place) : List String :=
  p.device.fieldPrefix.map (Device.partText p.page p.reg)

theorem fieldName_eq (p : Place) (f : Field) :
    p.fieldName f = Text.join "_" (p.parts ++ [f.name]) := rfl

theorem parts_plain (hpage : isIdentifier p.page.name = true)
    (hreg : isIdentifier p.reg.name = true) (h : Plain p.page.name ∧ Plain p.reg.name) :
    ∀ t ∈ p.parts, Plain t := by
  intro t ht
  obtain ⟨part, -, rfl⟩ := List.mem_map.1 ht
  cases part with
  | page => exact upper_plain hpage h.1
  | register => exact upper_plain hreg h.2
  | address => exact hex_plain p.reg.addrLo

end Place

namespace Scope

variable {s : Scope}

theorem fieldNames_eq (s : Scope) :
    s.fieldNames = s.introduced.flatMap fun p => p.reg.fields.map p.fieldName := by
  rw [fieldNames, introduced]
  induction s.places with
  | nil => rfl
  | cons p ps ih =>
    cases hvalue : p.reg.isValueOnly with
    | true => simp [Place.fieldNames, hvalue, ih]
    | false => simp [Place.fieldNames, hvalue, ih]

/-- **PartsApart** — fields have the page and the register in front of them, whose names have no
underscores and tell the registers apart in capitals, and no register has a field twice. -/
structure PartsApart (s : Scope) : Prop where
  page : NamePart.page ∈ s.device.fieldPrefix
  register : NamePart.register ∈ s.device.fieldPrefix
  plain : ∀ p ∈ s.introduced, Plain p.page.name ∧ Plain p.reg.name
  registers : (s.introduced.map fun p => (Text.upper p.page.name, Text.upper p.reg.name)).Nodup
  fields : ∀ p ∈ s.introduced, (p.reg.fields.map Field.name).Nodup

/-- Fields that have such parts in front of them have different names. -/
theorem PartsApart.nodup_fieldNames (h : s.PartsApart) (hd : s.device.Sound) :
    s.fieldNames.Nodup := by
  have hparts : ∀ p ∈ s.introduced, (∀ t ∈ p.parts, Plain t) ∧
      p.parts = s.device.fieldPrefix.map (Device.partText p.page p.reg) := by
    intro p hp
    obtain ⟨rfl, hmem, hregs⟩ := mem_places.1 (List.mem_filter.1 hp).1
    have hsound := hd.pages p.page hmem
    exact ⟨Place.parts_plain hsound.identifier (hsound.regs p.reg hregs).identifier (h.plain p hp),
      rfl⟩
  rw [fieldNames_eq]
  refine List.nodup_flatMap.2 ⟨fun p hp => ?_, ?_⟩
  · obtain ⟨hpp, -⟩ := hparts p hp
    refine List.Nodup.map_on (fun f hf g hg hname => ?_) (List.Nodup.of_map _ (h.fields p hp))
    exact List.inj_on_of_nodup_map (h.fields p hp) hf hg (join_inj rfl hpp hpp hname).2
  · refine (List.pairwise_map.1 h.registers).imp_of_mem fun {p q} hp hq hne x hxp hxq => ?_
    obtain ⟨hpp, hpe⟩ := hparts p hp
    obtain ⟨hpq, hqe⟩ := hparts q hq
    obtain ⟨f, -, rfl⟩ := List.mem_map.1 hxp
    obtain ⟨g, -, hname⟩ := List.mem_map.1 hxq
    rw [Place.fieldName_eq, Place.fieldName_eq] at hname
    have hlength : q.parts.length = p.parts.length := by
      rw [hpe, hqe, List.length_map, List.length_map]
    -- Equal names have equal parts, also those for the page and the register.
    obtain ⟨hsame, -⟩ := join_inj hlength hpq hpp hname
    rw [hpe, hqe, List.map_inj_left] at hsame
    exact hne (Prod.ext (hsame .page h.page).symm (hsame .register h.register).symm)

end Scope

end Header

end RegisterMap
