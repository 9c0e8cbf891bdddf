import RegisterMap.Proofs.Device.Namespace

/-!
# Lookups — the first element of each name, and the registers that no name reaches

Pages, registers and fields are found through indexes that are filled along with their lists. Pages
may have one name, and so may the fields of a register: the first of them is found. The registers of
a page are told apart by the names of their words only. Two registers of one word cannot share a
name, nor can two longer ones, since both would have a word of the same number. A register of one
word and a longer one can, and then the later one of them is out of reach.

## § What is here

* `PointsInto`, `pointsInto_ofNames` — each place of an index is that of an element with the name;
* `Answers`, `answers_of_index` — what a lookup through the index of a list gives;
* `Register.field_answers`, `Page.register_answers`, `Device.page_answers`, `Device.entry_answers` —
  the four lookups;
* `Register.fieldIndex_of_build`, `Page.regIndex_of_build` — the lists and indexes of each level;
* `Paired`, `FlatEntry.paired_of_build` — the registers of a page that share a name;
* `Page.reached_iff` — the registers that are found by a name;
* `Device.lists_of_ofText` — the lists and indexes of an accepted device;
* `Device.lookups_first` — all of this together;
* `Echo` — a device with a repeated name of each kind.
-/

namespace RegisterMap

open Outcome

/-! ## § Indexes -/

namespace NameIndex

variable {α : Type} {name : α → String} {index : NameIndex} {as : List α}

/-- **PointsInto** — every place in the index is that of an element with the name. -/
def PointsInto (index : NameIndex) (name : α → String) (as : List α) : Prop :=
  ∀ e ∈ index.entries, ∃ a, as[e.2]? = some a ∧ name a = e.1

/-- One more name adds its own place at most, which is the next one. -/
theorem mem_entries_push {key : String} {e : String × Nat} (h : e ∈ (index.push key).entries) :
    e ∈ index.entries ∨ e = (key, index.size) := by
  unfold push at h
  split at h
  · exact .inl h
  · exact (List.mem_append.1 h).imp_right List.mem_singleton.1

/-- An index that grows along with its list goes on pointing into it. -/
theorem PointsInto.push (h : index.PointsInto name as) (hsize : index.size = as.length) (a : α) :
    (index.push (name a)).PointsInto name (as ++ [a]) := by
  intro e he
  rcases mem_entries_push he with hold | rfl
  · obtain ⟨x, hx, hname⟩ := h e hold
    have hlt : e.2 < as.length := (List.getElem?_eq_some_iff.1 hx).1
    exact ⟨x, (List.getElem?_append_left hlt).trans hx, hname⟩
  · refine ⟨a, ?_, rfl⟩
    rw [hsize]
    exact List.getElem?_concat_length

theorem PointsInto.foldl_push (h : index.PointsInto name as) (hsize : index.size = as.length)
    (bs : List α) : ((bs.map name).foldl NameIndex.push index).PointsInto name (as ++ bs) := by
  induction bs generalizing index as with
  | nil => simpa using h
  | cons b bs ih =>
    rw [List.map_cons, List.foldl_cons, List.append_cons]
    exact ih (h.push hsize b) (by simp [hsize])

/-- The index of a list points into this list. -/
theorem pointsInto_ofNames (as : List α) : (ofNames (as.map name)).PointsInto name as := by
  have hempty : empty.PointsInto name ([] : List α) := by
    intro e he
    cases he
  exact hempty.foldl_push rfl as

/-- **Answers** — a lookup through an index gives the first element of the list with the name. It
fails when there is none, and every place of the index is one of the list. -/
structure Answers (index : NameIndex) (look : String → Except Missing α)
    (fault : String → Missing) (name : α → String) (as : List α) : Prop where
  found : ∀ key a, look key = .ok a ↔
    ∃ before after, as = before ++ a :: after ∧ name a = key ∧ ∀ x ∈ before, name x ≠ key
  missing : ∀ key e, look key = .error e ↔ e = fault key ∧ ∀ a ∈ as, name a ≠ key
  points : index.PointsInto name as

/-- Lookups are answered when they go through the index of the list. -/
theorem answers_of_index {look : String → Except Missing α} {fault : String → Missing}
    (hsome : ∀ key a, index.find? as key = some a → look key = .ok a)
    (hnone : ∀ key, index.find? as key = none → look key = .error (fault key))
    (hindex : index = ofNames (as.map name)) : index.Answers look fault name as := by
  subst hindex
  simp only [find?_eq] at hsome hnone
  refine ⟨fun key a => ?_, fun key e => ?_, pointsInto_ofNames as⟩
  · have hfirst : look key = .ok a ↔ as.find? (fun x => name x == key) = some a := by
      cases hfind : as.find? (fun x => name x == key) with
      | none => simp [hnone key hfind]
      | some x => simp [hsome key x hfind]
    rw [hfirst, List.find?_eq_some_iff_append]
    simp only [beq_iff_eq, Bool.not_eq_eq_eq_not, Bool.not_true, beq_eq_false_iff_ne]
    constructor
    · rintro ⟨hname, before, after, has, hbefore⟩
      exact ⟨before, after, has, hname, hbefore⟩
    · rintro ⟨before, after, has, hname, hbefore⟩
      exact ⟨hname, before, after, has, hbefore⟩
  · have hfails : look key = .error e ↔
        e = fault key ∧ as.find? (fun x => name x == key) = none := by
      cases hfind : as.find? (fun x => name x == key) with
      | none => simp [hnone key hfind, eq_comm]
      | some x => simp [hsome key x hfind]
    rw [hfails, List.find?_eq_none]
    simp only [beq_iff_eq, ne_eq]

end NameIndex

/-! ## § The four lookups -/

theorem Register.field_answers {r : Register}
    (h : r.fieldIndex = NameIndex.ofNames (r.fields.map Field.name)) :
    r.fieldIndex.Answers r.field (.field r.name) Field.name r.fields :=
  NameIndex.answers_of_index (fun _ _ hfind => by rw [field, hfind])
    (fun _ hfind => by rw [field, hfind]) h

theorem Page.register_answers {page : Page}
    (h : page.regIndex = NameIndex.ofNames (page.regs.map Register.name)) :
    page.regIndex.Answers page.register (.register page.name) Register.name page.regs :=
  NameIndex.answers_of_index (fun _ _ hfind => by rw [register, hfind])
    (fun _ hfind => by rw [register, hfind]) h

theorem Device.page_answers {d : Device}
    (h : d.pageIndex = NameIndex.ofNames (d.pages.map Page.name)) :
    d.pageIndex.Answers d.page .page Page.name d.pages :=
  NameIndex.answers_of_index (fun _ _ hfind => by rw [page, hfind])
    (fun _ hfind => by rw [page, hfind]) h

theorem Device.entry_answers {d : Device}
    (h : d.flatIndex = NameIndex.ofNames (d.flat.map FlatEntry.name)) :
    d.flatIndex.Answers d.entry .entry FlatEntry.name d.flat :=
  NameIndex.answers_of_index (fun _ _ hfind => by rw [entry, hfind])
    (fun _ hfind => by rw [entry, hfind]) h

/-! ## § The lists of a device -/

/-- **DeclaredBy** — a page has the name of a draft, and registers of the same names in the same
order. -/
def Page.DeclaredBy (p : Page) (draft : Draft.Page) : Prop :=
  p.name = draft.name ∧ p.regs.map Register.name = draft.regs.map Draft.Register.name

theorem Register.fieldIndex_of_build {dataWidth : Nat} {d : Draft.Register} {r : Register}
    (h : (build dataWidth d).result = .ok r) :
    r.name = d.name ∧ r.fieldIndex = NameIndex.ofNames (r.fields.map Field.name) := by
  obtain ⟨-, range, -, fields, -, rfl⟩ := build_eq_ok.1 h
  exact ⟨rfl, rfl⟩

theorem Page.regIndex_of_build {dataWidth : Nat} {d : Draft.Page} {p : Page}
    (h : (build dataWidth d).result = .ok p) : p.DeclaredBy d ∧
      p.regIndex = NameIndex.ofNames (p.regs.map Register.name) ∧
      ∀ r ∈ p.regs, r.fieldIndex = NameIndex.ofNames (r.fields.map Field.name) := by
  obtain ⟨-, regs, hregs, rfl⟩ := build_eq_ok.1 h
  refine ⟨⟨rfl, ?_⟩, rfl, ?_⟩
  · rw [← List.forall₂_eq_eq_eq, List.forall₂_map_left_iff, List.forall₂_map_right_iff]
    exact (mapM_eq_ok.1 hregs).flip.imp fun _ _ hr => (Register.fieldIndex_of_build hr).1
  · exact forall_mem_of_mapM hregs fun _ _ _ hr => (Register.fieldIndex_of_build hr).2

/-! ## § Registers with one name -/

/-- **Paired** — of two registers with one name exactly one has a single word. -/
def Page.Paired (page : Page) : Prop :=
  page.regs.Pairwise fun r r' => r.name = r'.name → Xor (r.wordCount = 1) (r'.wordCount = 1)

/-- The registers of a page are so when no two words have one name. -/
theorem FlatEntry.paired_of_build {pagePrefix : Bool} {pages : List Page} {dataWidth : Nat}
    (hsound : ∀ p ∈ pages, p.Sound dataWidth)
    (hbuilt : ∃ t, (build pagePrefix pages).result = .ok t) {page : Page} (hpage : page ∈ pages) :
    page.Paired := by
  obtain ⟨i, hi⟩ := List.mem_iff_getElem?.1 hpage
  rw [Page.Paired, List.pairwise_iff_getElem]
  intro j j' hj hj' hlt hname
  have hbase : canonicalName pagePrefix page page.regs[j]
      = canonicalName pagePrefix page page.regs[j'] := by
    rw [canonicalName, canonicalName, hname]
  -- Both registers have a word 0, and these two words have different names.
  have hword : wordName (canonicalName pagePrefix page page.regs[j]) page.regs[j] 0
      ≠ wordName (canonicalName pagePrefix page page.regs[j']) page.regs[j'] 0 := by
    intro hsame
    obtain ⟨-, rfl, -⟩ := (exists_build_iff hsound).1 hbuilt i j 0 i j' 0 page page _ _ hi
      (List.getElem?_eq_getElem hj) (Register.wordCount_pos _) hi
      (List.getElem?_eq_getElem hj') (Register.wordCount_pos _) hsame
    exact absurd hlt (Nat.lt_irrefl j)
  rw [wordName, wordName, hbase] at hword
  by_cases hone : page.regs[j].wordCount = 1
  · refine .inl ⟨hone, fun hone' => hword ?_⟩
    rw [if_pos hone, if_pos hone']
  · refine .inr ⟨?_, hone⟩
    by_contra hmany
    apply hword
    rw [if_neg hone, if_neg hmany]

/-- Of three propositions two are alike. -/
theorem not_xor_xor_xor {a b c : Prop} (hab : Xor a b) (hac : Xor a c) (hbc : Xor b c) : False := by
  rcases hab with ⟨ha, hb⟩ | ⟨hb, ha⟩
  · rcases hbc with ⟨hb', -⟩ | ⟨hc, -⟩
    · exact hb hb'
    · exact hac.elim (fun h => h.2 hc) fun h => h.2 ha
  · rcases hac with ⟨ha', -⟩ | ⟨hc, -⟩
    · exact ha ha'
    · exact hbc.elim (fun h => h.2 hc) fun h => h.2 hb

/-- So a list in which any two elements differ in a property has no more than two. -/
theorem length_le_two_of_xor {α : Type} {p : α → Prop} {as : List α}
    (h : as.Pairwise fun a b => Xor (p a) (p b)) : as.length ≤ 2 := by
  match as, h with
  | [], _ => exact Nat.zero_le _
  | [_], _ => exact Nat.le_succ _
  | [_, _], _ => exact Nat.le_refl _
  | a :: b :: c :: _, h =>
    obtain ⟨hfirst, hrest⟩ := List.pairwise_cons.1 h
    have hbc := (List.pairwise_cons.1 hrest).1 c (by simp)
    exact (not_xor_xor_xor (hfirst b (by simp)) (hfirst c (by simp)) hbc).elim

namespace Page

variable {page : Page}

theorem Paired.length_named_le_two (h : page.Paired) (n : String) :
    (page.regs.filter fun r => r.name = n).length ≤ 2 := by
  apply length_le_two_of_xor (p := fun r : Register => r.wordCount = 1)
  refine (List.Pairwise.filter _ h).imp_of_mem ?_
  intro r r' hr hr' hxor
  have hn := of_decide_eq_true (List.mem_filter.1 hr).2
  have hn' := of_decide_eq_true (List.mem_filter.1 hr').2
  exact hxor (hn.trans hn'.symm)

/-- The name of a register gives an earlier one that has it too, and this is not the register. -/
theorem register_of_earlier {before after : List Register} {r x : Register}
    (hanswers : page.regIndex.Answers page.register (.register page.name) Register.name page.regs)
    (hpaired : page.Paired) (hregs : page.regs = before ++ r :: after) (hx : x ∈ before)
    (hname : x.name = r.name) : page.register r.name = .ok x ∧ x ≠ r := by
  rw [Paired, hregs, List.pairwise_append] at hpaired
  obtain ⟨hbefore, -, hcross⟩ := hpaired
  have hxor := hcross x hx r List.mem_cons_self hname
  obtain ⟨first, second, rfl⟩ := List.append_of_mem hx
  refine ⟨(hanswers.found _ _).2 ⟨first, second ++ r :: after, ?_, hname, ?_⟩, ?_⟩
  · rw [hregs, List.append_assoc, List.cons_append]
  · -- A third register of the name would stand before both of them.
    intro y hy hy'
    have hyr := hcross y (List.mem_append_left _ hy) r List.mem_cons_self hy'
    have hyx := (List.pairwise_append.1 hbefore).2.2 y hy x List.mem_cons_self
      (hy'.trans hname.symm)
    exact not_xor_xor_xor hyx hyr hxor
  · rintro rfl
    exact hxor.elim (fun h => h.2 h.1) fun h => h.2 h.1

/-- A register is found by a name when no earlier one has its name. -/
theorem reached_iff {before after : List Register} {r : Register}
    (hanswers : page.regIndex.Answers page.register (.register page.name) Register.name page.regs)
    (hpaired : page.Paired) (hregs : page.regs = before ++ r :: after) :
    (∃ n, page.register n = .ok r) ↔ ∀ x ∈ before, x.name ≠ r.name := by
  constructor
  · rintro ⟨n, hn⟩ x hx hname
    obtain ⟨hearlier, hne⟩ := register_of_earlier hanswers hpaired hregs hx hname
    obtain ⟨-, -, -, rfl, -⟩ := (hanswers.found n r).1 hn
    exact hne (Except.ok.inj (hearlier.symm.trans hn))
  · intro hfirst
    exact ⟨r.name, (hanswers.found _ _).2 ⟨before, after, hregs, rfl, hfirst⟩⟩

end Page

/-! ## § Accepted devices -/

namespace Device

variable {text : String} {d : Device}

/-- The pages of an accepted device are those of its draft, and all indexes are those of their
lists. -/
theorem lists_of_ofText (haccepted : (ofText text).result = .ok d) :
    (∃ draft, Draft.Device.ofText text = .ok draft ∧
      List.Forall₂ Page.DeclaredBy d.pages draft.pages) ∧
    d.pageIndex = NameIndex.ofNames (d.pages.map Page.name) ∧
    ∀ page ∈ d.pages, page.Paired ∧
      page.regIndex = NameIndex.ofNames (page.regs.map Register.name) ∧
      ∀ r ∈ page.regs, r.fieldIndex = NameIndex.ofNames (r.fields.map Field.name) := by
  have hsound := (sound_of_ofText haccepted).pages
  obtain ⟨draft, hdraft, hbuilt⟩ := ofText_eq_ok.1 haccepted
  obtain ⟨s, -, pages, hpages, t, ht, tables, -, rfl⟩ := build_eq_ok.1 hbuilt
  refine ⟨⟨draft, hdraft, ?_⟩, rfl, fun page hpage => ⟨?_, ?_⟩⟩
  · exact (mapM_eq_ok.1 hpages).flip.imp fun _ _ hp => (Page.regIndex_of_build hp).1
  · exact FlatEntry.paired_of_build hsound ⟨t, ht⟩ hpage
  · exact forall_mem_of_mapM hpages (fun _ _ _ hp => (Page.regIndex_of_build hp).2) page hpage

/-- **A lookup gives the first element of the name.** The pages and registers of an accepted device
stand in the order of its draft, and the fields of a register in descending order of their lowest
bits. A page, an entry of the flat table, a register of a page or a field of a register is found by a
name exactly when it is the first one in its list that has the name, the lookup fails exactly when
there is none, and each place of an index is that of an element with the name. At most two registers
of a page have one name, and then exactly one of them has a single word; so a name gives every
register of the page but the later one of such a pair, whose name gives the earlier one. -/
theorem lookups_first (haccepted : (ofText text).result = .ok d) :
    (∃ draft, Draft.Device.ofText text = .ok draft ∧
      List.Forall₂ Page.DeclaredBy d.pages draft.pages) ∧
    d.pageIndex.Answers d.page .page Page.name d.pages ∧
    d.flatIndex.Answers d.entry .entry FlatEntry.name d.flat ∧
    ∀ page ∈ d.pages,
      page.regIndex.Answers page.register (.register page.name) Register.name page.regs ∧
      (∀ r ∈ page.regs, r.fieldIndex.Answers r.field (.field r.name) Field.name r.fields ∧
        r.fields.Pairwise fun f g => g.lo ≤ f.lo) ∧
      (∀ n, (page.regs.filter fun r => r.name = n).length ≤ 2) ∧
      page.regs.Pairwise (fun r r' =>
        r.name = r'.name → Xor (r.wordCount = 1) (r'.wordCount = 1)) ∧
      ∀ before r after, page.regs = before ++ r :: after →
        ((∃ n, page.register n = .ok r) ↔ ∀ x ∈ before, x.name ≠ r.name) ∧
        ∀ x ∈ before, x.name = r.name → page.register r.name = .ok x := by
  obtain ⟨hdraft, hpageIndex, hpages⟩ := lists_of_ofText haccepted
  refine ⟨hdraft, page_answers hpageIndex, entry_answers (flat_of_ofText haccepted).2,
    fun page hpage => ?_⟩
  obtain ⟨hpaired, hregIndex, hfieldIndex⟩ := hpages page hpage
  have hregisters := Page.register_answers hregIndex
  refine ⟨hregisters, ?_, hpaired.length_named_le_two, hpaired, ?_⟩
  · intro r hr
    have hsound := ((sound_of_ofText haccepted).pages page hpage).regs r hr
    exact ⟨Register.field_answers (hfieldIndex r hr), hsound.descending⟩
  · intro before r after hregs
    exact ⟨Page.reached_iff hregisters hpaired hregs, fun x hx hname =>
      (Page.register_of_earlier hregisters hpaired hregs hx hname).1⟩

end Device

/-! ## § A device with repeated names -/

namespace Echo

/-- **text** — two pages `A`; the first one has a register `X` of two words with two fields `F`, and
a register `X` of one word. -/
def text : String :=
  "name: Echo\naddr_width: 8\ndata_width: 8\npages:\n- name: A\n  regs:\n  - name: X\n"
    ++ "    addr: \"1:2\"\n    fields:\n    - name: F\n      bits: \"3:0\"\n    - name: F\n"
    ++ "      bits: \"7:4\"\n  - name: X\n    addr: 5\n- name: A\n  regs:\n  - name: Y\n"
    ++ "    addr: 6\n"

/-- **bits** — a field `F` of four bits. -/
def bits (lo : Nat) : Field :=
  ⟨"F", "F", .range (lo + 3) lo, BitMask.ofRange lo 4, .ones 4, {}⟩

/-- **pair** — the register of two words. -/
def pair : Register where
  name := "X"
  addrHi := 2
  addrLo := 1
  bigOrder := true
  fields := [bits 4, bits 0]
  fieldIndex := .ofNames ["F", "F"]

/-- **single** — a register of one word without fields. -/
def single (name : String) (addr : Nat) : Register where
  name
  addrHi := addr
  addrLo := addr
  bigOrder := false
  fields := [⟨"VALUE", name, .range 7 0, BitMask.ofRange 0 8, .ones 8, {}⟩]
  fieldIndex := .ofNames ["VALUE"]

/-- **front** — the first page. -/
def front : Page := ⟨"A", [pair, single "X" 5], .ofNames ["X", "X"]⟩

/-- **back** — the second page. -/
def back : Page := ⟨"A", [single "Y" 6], .ofNames ["Y"]⟩

/-- **device** — what the text describes. -/
def device : Device where
  name := "Echo"
  desc := "Echo"
  regPrefix := ""
  pagePrefix := false
  fieldPrefix := []
  fieldMacros := false
  addrWidth := 8
  dataWidth := 8
  bus := {}
  pages := [front, back]
  tables := []
  flat := FlatEntry.ofPages false [front, back]
  pageIndex := .ofNames ["A", "A"]
  flatIndex := .ofNames ["X_BY0", "X_BY1", "X", "Y"]

theorem accepted : (Device.ofText text).result = .ok device :=
  Device.ofText_of_chars (Text.ofList_parts (Text.ofList_parts (Text.ofList_parts rfl rfl) rfl) rfl)
    (by decide +kernel)

end Echo

/-- The first page, register and field of each name are found, and the register of one word is not
found by any name. -/
theorem Device.lookups_first_echo :
    (ofText Echo.text).result = .ok Echo.device ∧
      Echo.device.page "A" = .ok Echo.front ∧
      Echo.front.register "X" = .ok Echo.pair ∧
      Echo.pair.field "F" = .ok (Echo.bits 4) ∧
      Echo.front.register "Y" = .error (.register "A" "Y") ∧
      ¬ ∃ n, Echo.front.register n = .ok (Echo.single "X" 5) := by
  obtain ⟨-, hdevice, -, hpages⟩ := lookups_first Echo.accepted
  obtain ⟨hfront, hfields, -, -, hreached⟩ := hpages Echo.front List.mem_cons_self
  refine ⟨Echo.accepted, (hdevice.found _ _).2 ⟨[], [Echo.back], rfl, rfl, by simp⟩,
    (hfront.found _ _).2 ⟨[], [Echo.single "X" 5], rfl, rfl, by simp⟩, ?_,
    (hfront.missing _ _).2 ⟨rfl, by decide⟩, ?_⟩
  · exact ((hfields Echo.pair List.mem_cons_self).1.found _ _).2 ⟨[], [Echo.bits 0], rfl, rfl, by simp⟩
  · intro hfound
    have hfirst := (hreached [Echo.pair] (Echo.single "X" 5) [] rfl).1.1 hfound
    exact hfirst Echo.pair (List.mem_singleton_self _) rfl

end RegisterMap
