import RegisterMap.Proofs.Device.FlatTable
import RegisterMap.Proofs.Device.Invariant

/-!
# The namespace of a device — one entry for each word, one word for each name

The pages of a device are made flat: every register gives one entry for each of its words, in the
order of pages, registers and addresses. If two words have one name there is no table, and the fault
says which name it is. Otherwise the names of the table are exactly the texts that are found in it.

## § What is here

* `Register.wordAbove` — the words of a register in ascending order of their addresses;
* `listed`, `ofPages_eq` — the entries of a register, and the whole table;
* `Named`, `named_iff` — the names of words by their places;
* `indexFrom_eq`, `indexFrom_eq_error` — the index of a table, and the name that there is twice;
* `Device.flat_of_ofText` — the names and the index of an accepted device;
* `entry_of_mem`, `entry_missing` — looking names up;
* `build_complete` — the table of all pages that are built.
-/

namespace RegisterMap

open Outcome

/-! ## § Words by their addresses -/

/-- **wordAbove** — the number of the word that stands `k` places above the lowest address. -/
def Register.wordAbove (r : Register) (k : Nat) : Nat :=
  if r.bigOrder then k else r.wordCount - 1 - k

/-- It is the number of the word at that address. -/
theorem Register.significance_wordAbove {r : Register} (hordered : r.addrLo ≤ r.addrHi) {k : Nat}
    (hk : k < r.wordCount) : r.significance? (r.addrLo + k) = some (r.wordAbove k) := by
  rw [wordCount] at hk
  have hinside : ¬ (r.addrLo + k < r.addrLo ∨ r.addrHi < r.addrLo + k) := by omega
  rw [significance?, if_neg hinside, wordAbove, wordCount]
  split
  · rw [Nat.add_sub_cancel_left]
  · exact congrArg some (by omega)

namespace FlatEntry

/-! ## § The table -/

/-- **listed** — the entries of a register with the canonical name `base`: one without a number for
a single word, and otherwise one for each address from the lowest on. -/
def listed (base : String) (page reg : Nat) (r : Register) : List FlatEntry :=
  if r.wordCount = 1 then [⟨base, r.addrLo, none, page, reg⟩]
  else (List.range r.wordCount).map fun k =>
    ⟨base ++ "_BY" ++ Text.decimal (r.wordAbove k), r.addrLo + k, some (r.wordAbove k), page, reg⟩

theorem ofRegister_eq {r : Register} (hordered : r.addrLo ≤ r.addrHi) (base : String) (i j : Nat) :
    ofRegister base i j r = listed base i j r := by
  rw [ofRegister, listed]
  split
  · rfl
  · rw [Register.addresses_eq_map hordered, List.filterMap_map]
    -- Each address has its word, so no address is left out.
    rw [← List.filterMap_eq_map]
    apply List.filterMap_congr
    intro k hk
    have hword := Register.significance_wordAbove hordered (List.mem_range.1 hk)
    simp only [Function.comp_apply, wordEntry, hword, Option.map_some]

variable {pagePrefix : Bool} {pages : List Page} {dataWidth : Nat}

/-- The table is the words of all registers, one register after another. -/
theorem ofPages_eq (hsound : ∀ p ∈ pages, p.Sound dataWidth) :
    ofPages pagePrefix pages = (pages.mapIdx fun i page =>
      (page.regs.mapIdx fun j reg =>
        listed (canonicalName pagePrefix page reg) i j reg).flatten).flatten := by
  rw [ofPages]
  apply congrArg List.flatten
  apply List.mapIdx_eq_mapIdx_iff.2
  intro i hi
  rw [ofPage]
  apply congrArg List.flatten
  apply List.mapIdx_eq_mapIdx_iff.2
  intro j hj
  exact ofRegister_eq ((hsound _ (List.getElem_mem hi)).regs _ (List.getElem_mem hj)).ordered _ i j

/-! ## § The names of words -/

/-- **Named** — word `k` of register `j` on page `i` has the name: the canonical name of its
register, and for a longer register its number behind it. -/
def Named (pagePrefix : Bool) (pages : List Page) (i j k : Nat) (name : String) : Prop :=
  ∃ page reg, pages[i]? = some page ∧ page.regs[j]? = some reg ∧ k < reg.wordCount ∧
    name = wordName (canonicalName pagePrefix page reg) reg k

/-- The words are named by the entries at their places. -/
theorem named_iff (hsound : ∀ p ∈ pages, p.Sound dataWidth) {i j k : Nat} {name : String} :
    Named pagePrefix pages i j k name ↔
      ∃ e ∈ ofPages pagePrefix pages, e.place = (i, j, k) ∧ e.name = name := by
  constructor
  · rintro ⟨page, reg, hpage, hreg, hk, rfl⟩
    have hr : reg.Sound dataWidth :=
      (hsound _ (List.mem_of_getElem? hpage)).regs _ (List.mem_of_getElem? hreg)
    obtain ⟨e, he, hplace⟩ := exists_mem pagePrefix hpage hreg hr hk
    exact ⟨e, he, hplace, name_of_place he hplace hpage hreg⟩
  · rintro ⟨e, he, hplace, rfl⟩
    obtain ⟨page, reg, hpage, hreg, hk, hname⟩ := exists_of_mem he
    simp only [place, Prod.mk.injEq] at hplace
    obtain ⟨rfl, rfl, rfl⟩ := hplace
    exact ⟨page, reg, hpage, hreg, hk, hname⟩

/-! ## § The index of a table -/

/-- The index is the one of all names in their order. -/
theorem indexFrom_eq {es : List FlatEntry} {index after : NameIndex}
    (h : (indexFrom index es).result = .ok after) :
    after = (es.map FlatEntry.name).foldl NameIndex.push index := by
  induction es generalizing index with
  | nil => exact (Except.ok.inj h).symm
  | cons e es ih =>
    rw [indexFrom] at h
    split at h
    · cases h
    · exact ih h

/-- The index fails with the first name that was there before. -/
theorem indexFrom_eq_error {es : List FlatEntry} {index : NameIndex} {fault : BuildFault}
    (h : (indexFrom index es).result = .error fault) :
    ∃ before e after, es = before ++ e :: after ∧ fault = .conflict (.repeatedEntry e.name) ∧
      (index.contains e.name = true ∨ ∃ x ∈ before, x.name = e.name) := by
  induction es generalizing index with
  | nil => cases h
  | cons e es ih =>
    rw [indexFrom] at h
    split at h
    · rename_i hknown
      cases h
      exact ⟨[], e, es, rfl, rfl, .inl hknown⟩
    · obtain ⟨before, x, after, rfl, rfl, hx⟩ := ih h
      refine ⟨e :: before, x, after, rfl, rfl, ?_⟩
      -- A name of the longer index is the one of its last entry, or was there before.
      rcases hx with hknown | ⟨y, hy, hname⟩
      · rw [NameIndex.contains_push, Bool.or_eq_true, decide_eq_true_eq] at hknown
        rcases hknown with hknown | hsame
        · exact .inl hknown
        · exact .inr ⟨e, List.mem_cons_self, hsame.symm⟩
      · exact .inr ⟨y, List.mem_cons_of_mem _ hy, hname⟩

/-- A table fails with a repeated name and in no other way. -/
theorem conflict_of_error {fault : BuildFault}
    (h : (build pagePrefix pages).result = .error fault) :
    ∃ before e after, ofPages pagePrefix pages = before ++ e :: after ∧
      fault = .conflict (.repeatedEntry e.name) ∧ ∃ x ∈ before, x.name = e.name := by
  simp only [build, Logged.result_bind, Logged.result_pure] at h
  rcases bind_eq_error.1 h with hindex | ⟨index, -, hpure⟩
  · obtain ⟨before, e, after, hes, hfault, hknown⟩ := indexFrom_eq_error hindex
    rcases hknown with hempty | hbefore
    · cases hempty
    · exact ⟨before, e, after, hes, hfault, hbefore⟩
  · cases hpure

/-- A table that is not built has a name of two different words. -/
theorem named_twice_of_error (hsound : ∀ p ∈ pages, p.Sound dataWidth) {fault : BuildFault}
    (h : (build pagePrefix pages).result = .error fault) :
    ∃ name, fault = .conflict (.repeatedEntry name) ∧ ∃ i j k i' j' k',
      Named pagePrefix pages i j k name ∧ Named pagePrefix pages i' j' k' name ∧
      (i, j, k) ≠ (i', j', k') := by
  obtain ⟨before, e, after, hes, rfl, x, hx, hname⟩ := conflict_of_error h
  have hmem : e ∈ ofPages pagePrefix pages := by simp [hes]
  have hmem' : x ∈ ofPages pagePrefix pages := by simp [hes, hx]
  -- Both entries are in the table, which has no entry twice, so their places are different.
  have hne : x ≠ e := by
    rintro rfl
    have hnodup := nodup_ofPages pagePrefix pages
    rw [hes, List.nodup_append] at hnodup
    exact hnodup.2.2 x hx x List.mem_cons_self rfl
  refine ⟨e.name, rfl, _, _, _, _, _, _, (named_iff hsound).2 ⟨x, hmem', rfl, hname⟩,
    (named_iff hsound).2 ⟨e, hmem, rfl, rfl⟩, ?_⟩
  exact fun hplace => hne (eq_of_place hmem' hmem hplace)

/-- The names of a table that is built are all different. -/
theorem nodup_names {t : List FlatEntry × NameIndex}
    (h : (build pagePrefix pages).result = .ok t) :
    (t.1.map FlatEntry.name).Nodup ∧ t.2 = NameIndex.ofNames (t.1.map FlatEntry.name) := by
  obtain ⟨hentries, hindex⟩ := build_eq_ok.1 h
  rw [← hentries]
  exact ⟨((indexFrom_eq_ok _ _).1 ⟨t.2, hindex⟩).1, indexFrom_eq hindex⟩

end FlatEntry

/-- In an accepted device no two entries have one name, and the index is that of the table. -/
theorem Device.flat_of_ofText {text : String} {d : Device}
    (haccepted : (ofText text).result = .ok d) :
    (d.flat.map FlatEntry.name).Nodup ∧
      d.flatIndex = NameIndex.ofNames (d.flat.map FlatEntry.name) := by
  obtain ⟨draft, -, hbuilt⟩ := ofText_eq_ok.1 haccepted
  obtain ⟨s, -, pages, -, t, ht, tables, -, rfl⟩ := build_eq_ok.1 hbuilt
  exact FlatEntry.nodup_names ht

/-! ## § Looking names up -/

namespace Device

variable {d : Device}

/-- Looking up is searching the table. -/
theorem entry_eq_find? (hindex : d.flatIndex = NameIndex.ofNames (d.flat.map FlatEntry.name))
    (name : String) :
    d.entry name = (d.flat.find? (fun e => e.name == name)).elim (.error (.entry name)) .ok := by
  rw [entry, hindex, NameIndex.find?_eq]
  cases d.flat.find? (fun e => e.name == name) with
  | none => rfl
  | some e => rfl

/-- An entry is found by its name when no other has it. -/
theorem entry_of_mem (hindex : d.flatIndex = NameIndex.ofNames (d.flat.map FlatEntry.name))
    (hnodup : (d.flat.map FlatEntry.name).Nodup) {e : FlatEntry} (he : e ∈ d.flat) :
    d.entry e.name = .ok e := by
  rw [entry_eq_find? hindex]
  cases hfind : d.flat.find? fun x => x.name == e.name with
  | none =>
    have hother := List.find?_eq_none.1 hfind e he
    simp at hother
  | some x =>
    have hmem := List.mem_of_find?_eq_some hfind
    have hname : x.name = e.name := by simpa using List.find?_some hfind
    rw [List.inj_on_of_nodup_map hnodup hmem he hname, Option.elim_some]

theorem entry_missing (hindex : d.flatIndex = NameIndex.ofNames (d.flat.map FlatEntry.name))
    {name : String} (hname : ∀ e ∈ d.flat, e.name ≠ name) :
    d.entry name = .error (.entry name) := by
  have hnone : d.flat.find? (fun e => e.name == name) = none := by
    apply List.find?_eq_none.2
    intro e he
    simpa using hname e he
  rw [entry_eq_find? hindex, hnone, Option.elim_none]

end Device

/-! ## § The namespace -/

/-- **The namespace is complete and unique.** For pages that are built, the table fails exactly when
two different words have one name, and only with such a name. Otherwise it is the entries of all
registers, one after another in the order of pages and registers: one entry for a single word, and
for a longer register one for each address, from the lowest on, with the number of the word there. A
device with this table finds each entry by its name, and no other text. -/
theorem FlatEntry.build_complete {dataWidth : Nat} {drafts : List Draft.Page} {pages : List Page}
    (hpages : drafts.mapM (fun p => (Page.build dataWidth p).result) = .ok pages)
    (pagePrefix : Bool) :
    ((∃ name, (build pagePrefix pages).result = .error (.conflict (.repeatedEntry name))) ↔
      ∃ i j k i' j' k' name, Named pagePrefix pages i j k name ∧
        Named pagePrefix pages i' j' k' name ∧ (i, j, k) ≠ (i', j', k')) ∧
    (∀ fault, (build pagePrefix pages).result = .error fault →
      ∃ name, fault = .conflict (.repeatedEntry name) ∧ ∃ i j k i' j' k',
        Named pagePrefix pages i j k name ∧ Named pagePrefix pages i' j' k' name ∧
        (i, j, k) ≠ (i', j', k')) ∧
    (∀ page ∈ pages, ∀ reg ∈ page.regs, ∀ k, k < reg.wordCount →
      reg.significance? (reg.addrLo + k) = some (reg.wordAbove k)) ∧
    ∀ t, (build pagePrefix pages).result = .ok t →
      t.1 = (pages.mapIdx fun i page =>
        (page.regs.mapIdx fun j reg =>
          listed (canonicalName pagePrefix page reg) i j reg).flatten).flatten ∧
      ∀ d : Device, d.flat = t.1 → d.flatIndex = t.2 →
        (∀ e ∈ t.1, d.entry e.name = .ok e) ∧
        ∀ text, (∀ e ∈ t.1, e.name ≠ text) → d.entry text = .error (.entry text) := by
  have hsound : ∀ p ∈ pages, p.Sound dataWidth :=
    forall_mem_of_mapM hpages fun _ _ _ => Page.sound_of_build
  refine ⟨⟨?_, ?_⟩, fun fault => named_twice_of_error hsound, ?_, ?_⟩
  · rintro ⟨name, hfail⟩
    obtain ⟨name', -, i, j, k, i', j', k', hwords⟩ := named_twice_of_error hsound hfail
    exact ⟨i, j, k, i', j', k', name', hwords⟩
  · rintro ⟨i, j, k, i', j', k', name, hname, hname', hne⟩
    cases hresult : (build pagePrefix pages).result with
    | error fault =>
      obtain ⟨name', rfl, -⟩ := named_twice_of_error hsound hresult
      exact ⟨name', rfl⟩
    | ok t =>
      obtain ⟨page, reg, hp, hr, hk, rfl⟩ := hname
      obtain ⟨page', reg', hp', hr', hk', hsame⟩ := hname'
      obtain ⟨rfl, rfl, rfl⟩ := (exists_build_iff hsound).1 ⟨t, hresult⟩ _ _ _ _ _ _ _ _ _ _
        hp hr hk hp' hr' hk' hsame
      exact absurd rfl hne
  · intro page hpage reg hreg k hk
    exact Register.significance_wordAbove ((hsound page hpage).regs reg hreg).ordered hk
  · intro t ht
    obtain ⟨hnodup, hindex⟩ := nodup_names ht
    refine ⟨(build_eq_ok.1 ht).1.symm.trans (ofPages_eq hsound), ?_⟩
    intro d hflat hflatIndex
    rw [← hflat] at hnodup hindex ⊢
    rw [hindex] at hflatIndex
    exact ⟨fun e he => Device.entry_of_mem hflatIndex hnodup he,
      fun text hother => Device.entry_missing hflatIndex hother⟩

/-! ## § Two pages that need a prefix -/

namespace Twin

/-- **drafts** — two pages: a register of two words, and one that is called like one of them. -/
def drafts : List Draft.Page :=
  [⟨"A", [⟨"X", .text "2:1", none⟩]⟩, ⟨"B", [⟨"X_BY0", .number 5, none⟩]⟩]

/-- **register** — a register without fields. -/
def register (name : String) (addrHi addrLo last : Nat) : Register where
  name
  addrHi
  addrLo
  bigOrder := false
  fields := [⟨"VALUE", name, .range last 0, BitMask.ofRange 0 (last + 1), .ones (last + 1), {}⟩]
  fieldIndex := .ofNames ["VALUE"]

/-- **pages** — what is built of the drafts. -/
def pages : List Page :=
  [⟨"A", [register "X" 2 1 15], .ofNames ["X"]⟩,
    ⟨"B", [register "X_BY0" 5 5 7], .ofNames ["X_BY0"]⟩]

/-- **table** — the words of both pages, with the names of the pages. -/
def table : List FlatEntry :=
  [⟨"A_X_BY1", 1, some 1, 0, 0⟩, ⟨"A_X_BY0", 2, some 0, 0, 0⟩, ⟨"B_X_BY0", 5, none, 1, 0⟩]

theorem built : drafts.mapM (fun p => (Page.build 8 p).result) = .ok pages :=
  toOption_eq_some.1 (by decide +kernel)

theorem flattened : (FlatEntry.build true pages).result
    = .ok (table, .ofNames ["A_X_BY1", "A_X_BY0", "B_X_BY0"]) :=
  toOption_eq_some.1 (by decide)

theorem named_word : FlatEntry.Named false pages 0 0 0 "X_BY0" :=
  ⟨_, _, rfl, rfl, by decide, by decide⟩

theorem named_register : FlatEntry.Named false pages 1 0 0 "X_BY0" :=
  ⟨_, _, rfl, rfl, by decide, by decide⟩

end Twin

/-- Without the names of the pages a word and a register have one name; with them all are found. -/
theorem FlatEntry.build_complete_twin :
    (∃ name, (build false Twin.pages).result = .error (.conflict (.repeatedEntry name))) ∧
    ∃ t, (build true Twin.pages).result = .ok t ∧ t.1 = Twin.table ∧
      ∀ d : Device, d.flat = t.1 → d.flatIndex = t.2 →
        d.entry "A_X_BY0" = .ok ⟨"A_X_BY0", 2, some 0, 0, 0⟩ ∧
        d.entry "X_BY0" = .error (.entry "X_BY0") := by
  obtain ⟨hconflict, -⟩ := build_complete Twin.built false
  obtain ⟨-, -, -, htable⟩ := build_complete Twin.built true
  obtain ⟨-, hlookup⟩ := htable _ Twin.flattened
  refine ⟨hconflict.2 ⟨0, 0, 0, 1, 0, 0, "X_BY0", Twin.named_word, Twin.named_register, by decide⟩,
    _, Twin.flattened, rfl, ?_⟩
  intro d hflat hindex
  obtain ⟨hfound, hmissing⟩ := hlookup d hflat hindex
  exact ⟨hfound ⟨"A_X_BY0", 2, some 0, 0, 0⟩ (by decide), hmissing "X_BY0" (by decide)⟩

end RegisterMap
