import RegisterMap.Proofs.Device.Namespace
import RegisterMap.Proofs.Header.WordMacro

/-!
# Addresses — one identifier and one macro for each word

A header declares the address of each entry of the flat table, and a macro that constructs a frame
hands the identifier of one of these addresses to the macro for frames. The names of the table are
all different, so no identifier is declared twice, and no two macros write to the same one.

## § What is here

* `Place.entryNames`, `Scope.map_name_flat` — the names of the flat table, register by register;
* `Place.words`, `Scope.nodup_words` — the names of all words that a header has macros for;
* `Declaration.addressed?`, `Scope.filterMap_addressed?` — the identifier that a macro writes to;
* `filter_eq_singleton` — an item with a key of its own.
-/

namespace RegisterMap

/-! ## § The flat table by registers -/

/-- The names of the entries of a register do not depend on its place. -/
theorem FlatEntry.map_name_ofRegister (base : String) (i j : Nat) (r : Register) :
    (ofRegister base i j r).map name = (ofRegister base 0 0 r).map name := by
  rw [ofRegister, ofRegister]
  split
  · rfl
  · simp only [List.map_filterMap, wordEntry, Option.map_map]
    rfl

namespace Header

namespace Place

/-- **entryNames** — the names of the entries of a register in the flat table. -/
def entryNames (p : Place) : List String :=
  (FlatEntry.ofRegister p.name 0 0 p.reg).map FlatEntry.name

theorem mem_entryNames {p : Place} {name : String} : name ∈ p.entryNames ↔
    (p.reg.wordCount = 1 ∧ name = p.name) ∨
      (p.reg.wordCount ≠ 1 ∧ ∃ a ∈ p.reg.addresses, ∃ u, p.reg.significance? a = some u ∧
        name = p.name ++ wordSuffix u) := by
  rw [entryNames, List.mem_map]
  simp only [FlatEntry.mem_ofRegister]
  refine ⟨?_, ?_⟩
  · intro ⟨e, he, hname⟩
    rcases he with ⟨hone, rfl⟩ | ⟨hmany, a, ha, u, hu, rfl⟩
    · exact .inl ⟨hone, hname.symm⟩
    · exact .inr ⟨hmany, a, ha, u, hu, hname.symm.trans String.append_assoc⟩
  · intro h
    rcases h with ⟨hone, rfl⟩ | ⟨hmany, a, ha, u, hu, rfl⟩
    · exact ⟨_, .inl ⟨hone, rfl⟩, rfl⟩
    · exact ⟨_, .inr ⟨hmany, a, ha, u, hu, rfl⟩, String.append_assoc⟩

end Place

namespace Scope

variable {s : Scope}

/-- The names of the flat table are those of all registers in their order. -/
theorem map_name_flat (hd : s.device.Sound) :
    s.device.flat.map FlatEntry.name = s.places.flatMap Place.entryNames := by
  have hreg : ∀ page i j reg, (FlatEntry.ofRegister (canonicalName s.device.pagePrefix page reg)
      i j reg).map FlatEntry.name = Place.entryNames ⟨s, page, reg⟩ := fun page i j reg =>
    FlatEntry.map_name_ofRegister _ i j reg
  have hpage : ∀ i page, (FlatEntry.ofPage s.device.pagePrefix i page).map FlatEntry.name
      = page.regs.flatMap fun reg => Place.entryNames ⟨s, page, reg⟩ := fun i page =>
    map_flatten_mapIdx fun j reg _ => hreg page i j reg
  rw [hd.flat_eq, FlatEntry.ofPages, map_flatten_mapIdx fun i page _ => hpage i page, places,
    List.flatMap_assoc]
  simp only [List.flatMap_map]

/-- No two registers have an entry of one name. -/
theorem nodup_entryNames {text : String} (haccepted : (Device.ofText text).result = .ok s.device) :
    (s.places.flatMap Place.entryNames).Nodup := by
  rw [← map_name_flat (Device.sound_of_ofText haccepted)]
  exact (Device.flat_of_ofText haccepted).1

end Scope

theorem registerIdent_injective (d : Device) : Function.Injective d.registerIdent :=
  fun _ _ h => (String.append_right_inj _).1 h

/-- No address has the identifier of another one. -/
theorem nodup_identifiers {text : String} {d : Device}
    (haccepted : (Device.ofText text).result = .ok d) :
    (d.flat.map fun e => d.registerIdent e.name).Nodup := by
  have hnames := (Device.flat_of_ofText haccepted).1.map (registerIdent_injective d)
  rw [List.map_map] at hnames
  exact hnames

/-! ## § Words -/

theorem Place.wordSuffix_inj {u v : Nat} (h : wordSuffix u = wordSuffix v) : u = v := by
  have hdigits : Text.decimal u = Text.decimal v := (String.append_right_inj _).1 h
  have hread := Text.readLiteral_decimal u
  rw [hdigits, Text.readLiteral_decimal] at hread
  exact (Option.some.inj hread).symm

namespace Place

variable {p : Place}

/-- **words** — the names of the words that a header has macros for. -/
def words (p : Place) : List String :=
  if p.reg.isSingleValue then []
  else if p.reg.wordCount = 1 then [p.name]
  else (List.range p.reg.wordCount).map fun u => p.name ++ wordSuffix u

theorem mem_words {name : String} : name ∈ p.words ↔
    (p.reg.wordCount = 1 ∧ p.reg.isSingleValue = false ∧ name = p.name) ∨
      (p.reg.wordCount ≠ 1 ∧ ∃ u, u < p.reg.wordCount ∧ name = p.name ++ wordSuffix u) := by
  rw [words, Register.isSingleValue]
  by_cases hone : p.reg.wordCount = 1
  · cases hvalue : p.reg.isValueOnly with
    | true => simp [hone]
    | false => simp [hone]
  · simp [hone, eq_comm (b := name)]

theorem nodup_words (p : Place) : p.words.Nodup := by
  rw [words]
  split
  · exact List.nodup_nil
  · split
    · exact List.nodup_singleton _
    · exact List.nodup_range.map fun u v h => wordSuffix_inj ((String.append_right_inj _).1 h)

/-- A word has an entry in the flat table. -/
theorem words_subset (hr : p.reg.Sound p.device.dataWidth) : p.words ⊆ p.entryNames := by
  intro name hname
  rcases mem_words.1 hname with ⟨hone, -, rfl⟩ | ⟨hmany, u, hu, rfl⟩
  · exact mem_entryNames.2 (.inl ⟨hone, rfl⟩)
  · obtain ⟨a, -, ha, hword⟩ := Register.wordAddress_spec hr hu
    exact mem_entryNames.2 (.inr ⟨hmany, a, ha, u, hword, rfl⟩)

end Place

namespace Scope

variable {s : Scope} {text : String}

theorem reg_sound (hd : s.device.Sound) {p : Place} (hp : p ∈ s.places) :
    p.reg.Sound p.device.dataWidth := by
  obtain ⟨rfl, hpage, hreg⟩ := mem_places.1 hp
  exact (hd.pages p.page hpage).regs p.reg hreg

/-- No two registers have a word of one name. -/
theorem pairwise_words (haccepted : (Device.ofText text).result = .ok s.device) :
    s.places.Pairwise fun p q => p.words.Disjoint q.words := by
  have hd := Device.sound_of_ofText haccepted
  obtain ⟨-, hentries⟩ := List.nodup_flatMap.1 (nodup_entryNames haccepted)
  refine hentries.imp_of_mem fun {p q} hp hq hdisjoint name hleft hright => ?_
  exact hdisjoint (Place.words_subset (reg_sound hd hp) hleft)
    (Place.words_subset (reg_sound hd hq) hright)

theorem nodup_words (haccepted : (Device.ofText text).result = .ok s.device) :
    (s.places.flatMap Place.words).Nodup :=
  List.nodup_flatMap.2 ⟨fun p _ => p.nodup_words, pairwise_words haccepted⟩

end Scope

/-! ## § Macros -/

/-- **addressed?** — the identifier that a macro hands to another one as an address. -/
def Declaration.addressed? : Declaration → Option String
  | .define _ _ (.call _ (.name address) _) => some address
  | _ => none

theorem addressed?_wordMacro (p : Place) (u : Nat) :
    (p.wordMacro u).addressed? = some (p.address ++ Place.wordSuffix u) := rfl

/-- What introduces a register writes nowhere. -/
theorem Place.addressed?_introduction {p : Place} {d : Declaration} (hd : d ∈ p.introduction) :
    d.addressed? = none := by
  have hgetter : ∀ f, (p.getter f).addressed? = none := by
    intro f
    show Declaration.addressed? (.define _ _ (Getter.expr f.bits _ _)) = none
    cases f.bits <;> rfl
  rcases introduction_cases hd with hplain | ⟨-, f, -, rfl | rfl⟩
  · cases d with
    | define => exact absurd trivial hplain
    | _ => rfl
  · exact hgetter f
  · rfl

theorem Place.filterMap_addressed? (p : Place) :
    p.declared.filterMap Declaration.addressed? = p.words.map p.device.registerIdent := by
  have hnone : p.introduction.filterMap Declaration.addressed? = [] :=
    List.filterMap_eq_nil_iff.2 fun d hd => addressed?_introduction hd
  rw [declared, List.filterMap_append, hnone, List.nil_append, construction, words]
  split
  · rfl
  · split
    · rfl
    · have hlong : (if 1 < p.reg.fields.length then [p.longMacro] else []).filterMap
          Declaration.addressed? = [] := by
        split <;> rfl
      have hword : ∀ u, (p.wordMacro u).addressed?
          = some (p.device.registerIdent (p.name ++ wordSuffix u)) := fun u =>
        (addressed?_wordMacro p u).trans (congrArg some String.append_assoc)
      rw [wordMacros, List.filterMap_append, hlong, List.nil_append, List.map_map]
      exact filterMap_map_some hword _

/-- What a header declares before its registers writes nowhere. -/
theorem Scope.addressed?_shared {s : Scope} {d : Declaration} (hd : d ∈ s.shared) :
    d.addressed? = none := by
  simp only [shared, List.mem_append, List.mem_cons, List.not_mem_nil, or_false, List.mem_map]
    at hd
  rcases hd with (rfl | rfl | rfl) | ⟨t, -, rfl⟩
  · rfl
  · rfl
  · rfl
  · rfl

/-- The macros of a header write to the identifiers of all words. -/
theorem Scope.filterMap_addressed? (s : Scope) : s.layout.filterMap Declaration.addressed?
    = (s.places.flatMap Place.words).map s.device.registerIdent := by
  have hshared : s.shared.filterMap Declaration.addressed? = [] :=
    List.filterMap_eq_nil_iff.2 fun d hd => addressed?_shared hd
  rw [layout, List.filterMap_append, hshared, List.nil_append, List.filterMap_flatMap,
    List.map_flatMap]
  refine List.flatMap_congr fun p hp => ?_
  obtain ⟨rfl, -⟩ := mem_places.1 hp
  exact p.filterMap_addressed?

/-- An item with a key of its own is the only one with this key. -/
theorem filter_eq_singleton {α β : Type} [DecidableEq β] {f : α → Option β} {as : List α} {a : α}
    {b : β} (hnodup : (as.filterMap f).Nodup) (ha : a ∈ as) (hb : f a = some b) :
    as.filter (fun x => f x = some b) = [a] := by
  obtain ⟨before, after, rfl⟩ := List.append_of_mem ha
  rw [List.filterMap_append, List.filterMap_cons_some hb, List.nodup_append, List.nodup_cons]
    at hnodup
  obtain ⟨-, ⟨hafter, -⟩, hbefore⟩ := hnodup
  have hnone : ∀ x ∈ before, ¬ f x = some b := fun x hx hxb =>
    hbefore b (List.mem_filterMap.2 ⟨x, hx, hxb⟩) b List.mem_cons_self rfl
  have hnone' : ∀ x ∈ after, ¬ f x = some b := fun x hx hxb =>
    hafter (List.mem_filterMap.2 ⟨x, hx, hxb⟩)
  rw [List.filter_append, List.filter_cons_of_pos (by simpa using hb),
    List.filter_eq_nil_iff.2 (by simpa using hnone),
    List.filter_eq_nil_iff.2 (by simpa using hnone'), List.nil_append]

end Header

end RegisterMap
