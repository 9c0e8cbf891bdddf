import Mathlib.Data.List.Nodup
import RegisterMap.Proofs.Device.Words

/-!
# The flat table — no two words have one name

The table has one entry for each word, at its place in the device: the page, the register on it, and
the number of the word. A table is built when its names are all different, so the name of a word and
its place say the same about it.

## § What is here

* `mem_flatten_mapIdx`, `nodup_flatten_mapIdx`, `map_flatten_mapIdx`, `filter_flatten_mapIdx` — lists
  one after another, by the places of their items;
* `NameIndex.contains_push`, `indexFrom_eq_ok` — an index of new names;
* `place`, `eq_of_place` — where an entry stands in the device, which tells entries apart;
* `wordName`, `exists_of_mem`, `exists_mem` — the entries of a table are the words of the registers;
* `exists_build_iff` — a table is built when no two words have one name.
-/

namespace RegisterMap

open Outcome

/-! ## § Lists by place -/

/-- The items of lists one after another, each list made of an item with its place. -/
theorem mem_flatten_mapIdx {α β : Type} {f : Nat → α → List β} {as : List α} {b : β} :
    b ∈ (as.mapIdx f).flatten ↔ ∃ i a, as[i]? = some a ∧ b ∈ f i a := by
  rw [List.mem_flatten]
  constructor
  · rintro ⟨bs, hbs, hb⟩
    obtain ⟨i, hi, rfl⟩ := List.mem_mapIdx.1 hbs
    exact ⟨i, as[i], List.getElem?_eq_getElem hi, hb⟩
  · rintro ⟨i, a, ha, hb⟩
    obtain ⟨hi, rfl⟩ := List.getElem?_eq_some_iff.1 ha
    exact ⟨_, List.mem_mapIdx.2 ⟨i, hi, rfl⟩, hb⟩

/-- They are all different when each list is, and an item tells the place of its list. -/
theorem nodup_flatten_mapIdx {α β : Type} {f : Nat → α → List β} (place : β → Nat)
    {as : List α} (hplace : ∀ i, ∀ a ∈ as, ∀ b ∈ f i a, place b = i)
    (hnodup : ∀ i, ∀ a ∈ as, (f i a).Nodup) :
    (as.mapIdx f).flatten.Nodup := by
  rw [List.nodup_flatten]
  constructor
  · intro bs hbs
    obtain ⟨i, hi, rfl⟩ := List.mem_mapIdx.1 hbs
    exact hnodup i _ (List.getElem_mem hi)
  · rw [List.pairwise_iff_getElem]
    intro i j hi hj hij b hbi hbj
    rw [List.length_mapIdx] at hi hj
    rw [List.getElem_mapIdx] at hbi hbj
    have hleft := hplace i _ (List.getElem_mem hi) b hbi
    have hright := hplace j _ (List.getElem_mem hj) b hbj
    omega

/-- What is made of the items is one list when it does not depend on the place. -/
theorem map_flatten_mapIdx {α β γ : Type} {f : Nat → α → List β} {g : β → γ} {h : α → List γ}
    {as : List α} (hmap : ∀ i, ∀ a ∈ as, (f i a).map g = h a) :
    (as.mapIdx f).flatten.map g = as.flatMap h := by
  induction as generalizing f with
  | nil => rfl
  | cons a as ih =>
    rw [List.mapIdx_cons, List.flatten_cons, List.map_append, List.flatMap_cons,
      hmap 0 a List.mem_cons_self, ih fun i x hx => hmap (i + 1) x (List.mem_cons_of_mem a hx)]

/-- No item is at a place that none of the lists has. -/
theorem filter_flatten_mapIdx_eq_nil {α β : Type} {f : Nat → α → List β} {place : β → Nat}
    {n : Nat} {as : List α} (h : ∀ i a, as[i]? = some a → ∀ b ∈ f i a, place b ≠ n) :
    (as.mapIdx f).flatten.filter (fun b => place b = n) = [] := by
  rw [List.filter_eq_nil_iff]
  intro b hb
  obtain ⟨i, a, ha, hmem⟩ := mem_flatten_mapIdx.1 hb
  rw [decide_eq_true_eq]
  exact h i a ha b hmem

/-- When an item tells the place of its list, the items of a place are those of the list there. -/
theorem filter_flatten_mapIdx {α β : Type} {f : Nat → α → List β} {place : β → Nat}
    (hplace : ∀ i a, ∀ b ∈ f i a, place b = i) {as : List α} {i : Nat} {a : α}
    (ha : as[i]? = some a) : (as.mapIdx f).flatten.filter (fun b => place b = i) = f i a := by
  obtain ⟨hi, rfl⟩ := List.getElem?_eq_some_iff.1 ha
  have hlength : (as.take i).length = i := List.length_take_of_le (Nat.le_of_lt hi)
  have hbefore : ((as.take i).mapIdx f).flatten.filter (fun b => place b = i) = [] := by
    apply filter_flatten_mapIdx_eq_nil
    intro k x hk b hb
    have hlt := (List.getElem?_eq_some_iff.1 hk).1
    have hpos := hplace k x b hb
    omega
  have hafter : ((as.drop (i + 1)).mapIdx fun k => f (k + 1 + i)).flatten.filter
      (fun b => place b = i) = [] := by
    apply filter_flatten_mapIdx_eq_nil
    intro k x _ b hb
    have hpos := hplace _ x b hb
    omega
  have hat : (f i as[i]).filter (fun b => place b = i) = f i as[i] :=
    List.filter_eq_self.2 fun b hb => decide_eq_true (hplace i _ b hb)
  conv_lhs => rw [← List.take_append_drop i as, List.drop_eq_getElem_cons hi]
  rw [List.mapIdx_append, List.mapIdx_cons, List.flatten_append, List.flatten_cons,
    List.filter_append, List.filter_append, hlength, Nat.zero_add, hbefore, hat, hafter,
    List.nil_append, List.append_nil]

/-! ## § An index of new names -/

theorem NameIndex.contains_push (index : NameIndex) (name key : String) :
    (index.push name).contains key = (index.contains key || decide (key = name)) := by
  rw [contains, contains, position?_push]
  by_cases h : key = name
  · simp [h]
  · simp [h]

namespace FlatEntry

/-- Entries are indexed when their names are new, and different from each other. -/
theorem indexFrom_eq_ok (es : List FlatEntry) (index : NameIndex) :
    (∃ after, (indexFrom index es).result = .ok after) ↔
      (es.map FlatEntry.name).Nodup ∧ ∀ e ∈ es, index.contains e.name = false := by
  induction es generalizing index with
  | nil => simp [indexFrom, Logged.result_pure]
  | cons e es ih =>
    rw [indexFrom, List.map_cons, List.nodup_cons, List.forall_mem_cons]
    by_cases hknown : index.contains e.name = true
    · rw [if_pos hknown]
      constructor
      · rintro ⟨after, h⟩
        cases h
      · rintro ⟨-, hnew, -⟩
        rw [hknown] at hnew
        cases hnew
    · rw [if_neg hknown]
      show (∃ after, (indexFrom (index.push e.name) es).result = .ok after) ↔ _
      simp only [ih, NameIndex.contains_push, Bool.or_eq_false_iff, decide_eq_false_iff_not]
      constructor
      · rintro ⟨hnodup, hnew⟩
        refine ⟨⟨?_, hnodup⟩, Bool.eq_false_iff.2 hknown, fun x hx => (hnew x hx).1⟩
        intro hmem
        obtain ⟨x, hx, hname⟩ := List.mem_map.1 hmem
        exact (hnew x hx).2 hname
      · rintro ⟨⟨hnot, hnodup⟩, -, hnew⟩
        refine ⟨hnodup, fun x hx => ⟨hnew x hx, ?_⟩⟩
        intro hname
        exact hnot (List.mem_map.2 ⟨x, hx, hname⟩)

/-! ## § Entries of a register -/

variable {base : String} {i j : Nat} {r : Register} {e : FlatEntry}

/-- A register of one word has its own name; the words of a longer one have their numbers after
it. -/
theorem mem_ofRegister : e ∈ ofRegister base i j r ↔
    (r.wordCount = 1 ∧ e = ⟨base, r.addrLo, none, i, j⟩) ∨
      (r.wordCount ≠ 1 ∧ ∃ a ∈ r.addresses, ∃ u, r.significance? a = some u ∧
        e = ⟨base ++ "_BY" ++ Text.decimal u, a, some u, i, j⟩) := by
  unfold ofRegister
  split
  · rename_i hone
    simp [hone]
  · rename_i hmany
    simp only [List.mem_filterMap, wordEntry, Option.map_eq_some_iff]
    constructor
    · rintro ⟨a, ha, u, hu, rfl⟩
      exact .inr ⟨hmany, a, ha, u, hu, rfl⟩
    · rintro (⟨hone, -⟩ | ⟨-, a, ha, u, hu, rfl⟩)
      · exact absurd hone hmany
      · exact ⟨a, ha, u, hu, rfl⟩

/-- **place** — the page of an entry, its register there, and the number of its word. -/
def place (e : FlatEntry) : Nat × Nat × Nat := (e.page, e.reg, e.word.getD 0)

/-- Entries of one register are known from their words. -/
theorem eq_of_word {e' : FlatEntry} (he : e ∈ ofRegister base i j r)
    (he' : e' ∈ ofRegister base i j r) (hword : e.word.getD 0 = e'.word.getD 0) : e = e' := by
  rcases mem_ofRegister.1 he with ⟨hone, rfl⟩ | ⟨hmany, a, ha, u, hu, rfl⟩
  · rcases mem_ofRegister.1 he' with ⟨-, rfl⟩ | ⟨hmany, -⟩
    · rfl
    · exact absurd hone hmany
  · rcases mem_ofRegister.1 he' with ⟨hone, -⟩ | ⟨-, a', ha', u', hu', rfl⟩
    · exact absurd hone hmany
    · obtain rfl : u = u' := hword
      obtain rfl := Register.eq_of_significance ha ha' hu hu'
      rfl

theorem nodup_addresses (r : Register) : r.addresses.Nodup := by
  rw [Register.addresses]
  exact List.nodup_range.map fun x y h => Nat.add_left_cancel h

theorem nodup_ofRegister (base : String) (i j : Nat) (r : Register) :
    (ofRegister base i j r).Nodup := by
  unfold ofRegister
  split
  · exact List.nodup_singleton _
  · apply (nodup_addresses r).filterMap
    intro a a' e he he'
    -- An entry has the address that it stands at.
    obtain ⟨u, -, rfl⟩ := Option.map_eq_some_iff.1 he
    obtain ⟨u', -, heq⟩ := Option.map_eq_some_iff.1 he'
    exact (congrArg FlatEntry.addr heq).symm

/-! ## § Entries of a device -/

variable {pagePrefix : Bool} {pages : List Page}

theorem mem_ofPages_iff : e ∈ ofPages pagePrefix pages ↔
    ∃ i page, pages[i]? = some page ∧ ∃ j reg, page.regs[j]? = some reg ∧
      e ∈ ofRegister (canonicalName pagePrefix page reg) i j reg := by
  rw [ofPages, mem_flatten_mapIdx]
  simp only [ofPage, mem_flatten_mapIdx]

theorem page_reg_of_mem_ofRegister (h : e ∈ ofRegister base i j r) : e.page = i ∧ e.reg = j := by
  rcases mem_ofRegister.1 h with ⟨-, rfl⟩ | ⟨-, a, -, u, -, rfl⟩
  · exact ⟨rfl, rfl⟩
  · exact ⟨rfl, rfl⟩

/-- Entries of a table are known from their places. -/
theorem eq_of_place {e' : FlatEntry} (he : e ∈ ofPages pagePrefix pages)
    (he' : e' ∈ ofPages pagePrefix pages) (hplace : e.place = e'.place) : e = e' := by
  obtain ⟨i, page, hpage, j, reg, hreg, hmem⟩ := mem_ofPages_iff.1 he
  obtain ⟨i', page', hpage', j', reg', hreg', hmem'⟩ := mem_ofPages_iff.1 he'
  obtain ⟨hi, hj⟩ := page_reg_of_mem_ofRegister hmem
  obtain ⟨hi', hj'⟩ := page_reg_of_mem_ofRegister hmem'
  simp only [place, Prod.mk.injEq] at hplace
  obtain ⟨hsamePage, hsameReg, hword⟩ := hplace
  obtain rfl : i = i' := by omega
  obtain rfl : j = j' := by omega
  rw [hpage] at hpage'
  cases hpage'
  rw [hreg] at hreg'
  cases hreg'
  exact eq_of_word hmem hmem' hword

theorem nodup_ofPages (pagePrefix : Bool) (pages : List Page) :
    (ofPages pagePrefix pages).Nodup := by
  apply nodup_flatten_mapIdx FlatEntry.page
  · intro i page _ e he
    obtain ⟨j, reg, -, hmem⟩ := mem_flatten_mapIdx.1 he
    exact (page_reg_of_mem_ofRegister hmem).1
  · intro i page _
    apply nodup_flatten_mapIdx FlatEntry.reg
    · intro j reg _ e he
      exact (page_reg_of_mem_ofRegister he).2
    · intro j reg _
      exact nodup_ofRegister _ _ _ _

/-! ## § Words -/

/-- **wordName** — the name of word `k` of a register with the canonical name `base`. -/
def wordName (base : String) (r : Register) (k : Nat) : String :=
  base ++ if r.wordCount = 1 then "" else "_BY" ++ Text.decimal k

/-- Each entry of a table stands for a word of a register and has its name. -/
theorem exists_of_mem (he : e ∈ ofPages pagePrefix pages) :
    ∃ page reg, pages[e.page]? = some page ∧ page.regs[e.reg]? = some reg ∧
      e.word.getD 0 < reg.wordCount ∧
      e.name = wordName (canonicalName pagePrefix page reg) reg (e.word.getD 0) := by
  obtain ⟨i, page, hpage, j, reg, hreg, hmem⟩ := mem_ofPages_iff.1 he
  obtain ⟨rfl, rfl⟩ := page_reg_of_mem_ofRegister hmem
  refine ⟨page, reg, hpage, hreg, ?_⟩
  generalize canonicalName pagePrefix page reg = base at hmem
  unfold wordName
  rcases mem_ofRegister.1 hmem with ⟨hone, heq⟩ | ⟨hmany, a, ha, u, hu, heq⟩
  · rw [heq, if_pos hone]
    exact ⟨Nat.succ_pos _, (String.append_empty).symm⟩
  · obtain ⟨k, hk, hsame⟩ := Register.exists_significance ha
    rw [hu] at hsame
    cases hsame
    rw [heq, if_neg hmany]
    exact ⟨hk, String.append_assoc⟩

/-- An entry at the place of a word has the name of the word. -/
theorem name_of_place {page : Page} {reg : Register} {k : Nat} (he : e ∈ ofPages pagePrefix pages)
    (hplace : e.place = (i, j, k)) (hpage : pages[i]? = some page)
    (hreg : page.regs[j]? = some reg) :
    e.name = wordName (canonicalName pagePrefix page reg) reg k := by
  obtain ⟨page', reg', hpage', hreg', -, hname⟩ := exists_of_mem he
  simp only [place, Prod.mk.injEq] at hplace
  obtain ⟨rfl, rfl, rfl⟩ := hplace
  rw [hpage] at hpage'
  cases hpage'
  rw [hreg] at hreg'
  cases hreg'
  exact hname

/-- Each word of a register has an entry. -/
theorem exists_mem (pagePrefix : Bool) {page : Page} {reg : Register} {k : Nat} {dataWidth : Nat}
    (hpage : pages[i]? = some page) (hreg : page.regs[j]? = some reg)
    (hsound : reg.Sound dataWidth) (hk : k < reg.wordCount) :
    ∃ e ∈ ofPages pagePrefix pages, e.place = (i, j, k) := by
  by_cases hone : reg.wordCount = 1
  · refine ⟨⟨canonicalName pagePrefix page reg, reg.addrLo, none, i, j⟩, ?_, ?_⟩
    · exact mem_ofPages_iff.2 ⟨i, page, hpage, j, reg, hreg, mem_ofRegister.2 (.inl ⟨hone, rfl⟩)⟩
    · obtain rfl : k = 0 := by omega
      rfl
  · obtain ⟨a, -, ha, hu⟩ := Register.wordAddress_spec hsound hk
    refine ⟨⟨canonicalName pagePrefix page reg ++ "_BY" ++ Text.decimal k, a, some k, i, j⟩,
      ?_, rfl⟩
    exact mem_ofPages_iff.2 ⟨i, page, hpage, j, reg, hreg,
      mem_ofRegister.2 (.inr ⟨hone, a, ha, k, hu, rfl⟩)⟩

/-- A table of sound pages is built when no two of its words have one name. -/
theorem exists_build_iff {dataWidth : Nat} (hsound : ∀ p ∈ pages, p.Sound dataWidth) :
    (∃ t, (build pagePrefix pages).result = .ok t) ↔
      ∀ (i j k i' j' k' : Nat) (page page' : Page) (reg reg' : Register),
        pages[i]? = some page → page.regs[j]? = some reg → k < reg.wordCount →
        pages[i']? = some page' → page'.regs[j']? = some reg' → k' < reg'.wordCount →
        wordName (canonicalName pagePrefix page reg) reg k
          = wordName (canonicalName pagePrefix page' reg') reg' k' →
        i = i' ∧ j = j' ∧ k = k' := by
  have hbuild : (∃ t, (build pagePrefix pages).result = .ok t) ↔
      ((ofPages pagePrefix pages).map FlatEntry.name).Nodup := by
    have hempty : ∀ e ∈ ofPages pagePrefix pages, NameIndex.empty.contains e.name = false :=
      fun _ _ => rfl
    have hindex := indexFrom_eq_ok (ofPages pagePrefix pages) NameIndex.empty
    constructor
    · rintro ⟨t, h⟩
      exact (hindex.1 ⟨t.2, (build_eq_ok.1 h).2⟩).1
    · intro h
      obtain ⟨index, h⟩ := hindex.2 ⟨h, hempty⟩
      exact ⟨(_, index), build_eq_ok.2 ⟨rfl, h⟩⟩
  have hreg : ∀ {i j : Nat} {page : Page} {reg : Register}, pages[i]? = some page →
      page.regs[j]? = some reg → reg.Sound dataWidth := fun hp hr =>
    (hsound _ (List.mem_of_getElem? hp)).regs _ (List.mem_of_getElem? hr)
  -- No entry comes twice, so their names are different when a name tells its entry.
  rw [hbuild, List.nodup_map_iff_inj_on (nodup_ofPages _ _)]
  constructor
  · intro hnames i j k i' j' k' page page' reg reg' hp hr hk hp' hr' hk' hname
    obtain ⟨e, he, hplace⟩ := exists_mem pagePrefix hp hr (hreg hp hr) hk
    obtain ⟨e', he', hplace'⟩ := exists_mem pagePrefix hp' hr' (hreg hp' hr') hk'
    have heName := name_of_place he hplace hp hr
    have heName' := name_of_place he' hplace' hp' hr'
    have heq := hnames e he e' he' (by rw [heName, heName', hname])
    rw [heq, hplace'] at hplace
    simp only [Prod.mk.injEq] at hplace
    exact ⟨hplace.1.symm, hplace.2.1.symm, hplace.2.2.symm⟩
  · intro hwords e he e' he' hname
    obtain ⟨page, reg, hp, hr, hk, heName⟩ := exists_of_mem he
    obtain ⟨page', reg', hp', hr', hk', heName'⟩ := exists_of_mem he'
    obtain ⟨hi, hj, hword⟩ := hwords _ _ _ _ _ _ page page' reg reg' hp hr hk hp' hr' hk'
      (by rw [← heName, ← heName', hname])
    exact eq_of_place he he' (by rw [place, place, hi, hj, hword])

end FlatEntry

end RegisterMap
