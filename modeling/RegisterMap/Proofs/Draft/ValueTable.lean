import Mathlib.Data.List.Forall2
import Mathlib.Data.List.Induction
import Mathlib.Data.List.Nodup
import RegisterMap.Device.Build.ValueTable
import RegisterMap.Proofs.Draft.Scalar
import RegisterMap.Proofs.Yaml.Reader

/-!
# Value tables — first place, last value

The keys of a description that start with `x-` name tables, all other keys have no say in them. A
table takes the labels of its mapping one after another. A label that is new goes to the end, a label
that is there already only changes its value: in the end it stands where it came first, with the
value that it came with last. Labels are compared as texts, so the number 1 and the text `1` are one.

## § What is here

* `isTableKey`, `nameOf_eq_some` — the keys that name tables;
* `Value.KeysInRange`, `Value.Lists` — a mapping, as labels with values in the order of the text;
* `Settled`, `Settled.assign`, `settled_ofEntries` — first place and last value, by one step and, by
  induction on the labels, by a whole table;
* `Settled.unique` — no two tables are settled of the same labels;
* `exists_build_iff` — the tables of a description that has been read;
* `tables_settled` — the tables of any entries, and when there are none.
-/

namespace RegisterMap

open Outcome

open Yaml (Value)

/-! ## § Mappings -/

namespace Yaml.Value

/-- **InRange** — a value that is a number only if a document can have this number. -/
def InRange : Value → Prop
  | .number n => n.InRange
  | _ => True

/-- **KeysInRange** — a value that, as a mapping, has no numbers as keys but those of a document. -/
def KeysInRange (v : Value) : Prop := ∀ entries ∈ v.mapping?, ∀ x ∈ entries, x.1.InRange

/-- **Lists** — the entries of a mapping as labels with their values, one by one. -/
def Lists (entries : List (Value × Value)) (pairs : List (String × Nat)) : Prop :=
  List.Forall₂ (fun x p => x.1.IsKey p.2 ∧ x.2.Labels p.1) entries pairs

instance : DecidablePred InRange
  | .number (.integer _) => inferInstanceAs (Decidable (_ ∧ _))
  | .number (.float _) => .isTrue trivial
  | .null => .isTrue trivial
  | .bool _ => .isTrue trivial
  | .text _ => .isTrue trivial
  | .sequence _ => .isTrue trivial
  | .mapping _ => .isTrue trivial
  | .tagged _ _ => .isTrue trivial

instance : DecidablePred KeysInRange := fun v =>
  inferInstanceAs (Decidable (∀ entries ∈ v.mapping?, ∀ x ∈ entries, x.1.InRange))

theorem Plain.inRange {v : Value} (hv : v.Plain) : v.InRange := by
  cases hv with
  | number h => exact h
  | null => trivial
  | bool _ => trivial
  | text _ => trivial
  | sequence _ => trivial
  | mapping _ _ => trivial

/-- A plain value is a mapping without a tag around it. -/
theorem Plain.mapping?_eq_some {v : Value} (hv : v.Plain) {entries : List (Value × Value)} :
    v.mapping? = some entries ↔ v = .mapping entries := by
  cases hv <;> simp [mapping?, untagged]

theorem Plain.keysInRange {v : Value} (hv : v.Plain) : v.KeysInRange := by
  intro entries hentries x hx
  rw [Option.mem_def, hv.mapping?_eq_some] at hentries
  subst hentries
  cases hv with
  | mapping hkeys _ => exact (hkeys x hx).inRange

theorem exists_labels_iff {v : Value} : (∃ label, v.Labels label) ↔ v.IsLabel := by
  cases v <;> simp [Labels, IsLabel]

end Yaml.Value

namespace ValueTable

theorem naturalOf_eq_ok_iff_isKey (what : String) {v : Value} (hv : v.InRange) {n : Nat} :
    naturalOf what v = .ok n ↔ v.IsKey n := by
  constructor
  · intro h
    have hlt : n < capacity 64 := by
      rcases naturalOf_eq_ok.1 h with rfl | ⟨s, -, hspells⟩
      · exact Int.ofNat_lt.1 hv.2
      · exact hspells.1
    exact (naturalOf_eq_ok_of_lt hlt).1 h
  · intro h
    exact (naturalOf_eq_ok_of_lt h.lt).2 h

theorem readEntry_eq_ok (what : String) {x : Value × Value} (hx : x.1.InRange)
    {p : String × Nat} :
    readEntry what x = .ok p ↔ x.1.IsKey p.2 ∧ x.2.Labels p.1 := by
  constructor
  · intro h
    obtain ⟨n, hn, h⟩ := bind_eq_ok.1 h
    obtain ⟨label, hlabel, h⟩ := bind_eq_ok.1 h
    cases h
    exact ⟨(naturalOf_eq_ok_iff_isKey what hx).1 hn, labelOf_eq_ok.1 hlabel⟩
  · rintro ⟨hkey, hlabel⟩
    exact bind_eq_ok.2 ⟨p.2, (naturalOf_eq_ok_iff_isKey what hx).2 hkey,
      bind_eq_ok.2 ⟨p.1, labelOf_eq_ok.2 hlabel, rfl⟩⟩

/-- The entries of a mapping are read as the labels and values that it lists. -/
theorem mapM_readEntry_eq_ok (what : String) {entries : List (Value × Value)}
    (hentries : ∀ x ∈ entries, x.1.InRange) {pairs : List (String × Nat)} :
    entries.mapM (readEntry what) = .ok pairs ↔ Value.Lists entries pairs :=
  mapM_eq_ok_iff_of_forall fun x hx _ => readEntry_eq_ok what (hentries x hx)

/-! ## § Keys of tables -/

/-- **isTableKey** — a text, tagged or not, that starts with the mark of a table. -/
def isTableKey (key : Value) : Bool := key.text?.any fun s => "x-".toList.isPrefixOf s.toList

/-- A table has the name that stands after the mark. -/
theorem nameOf_eq_some {key : Value} {name : String} :
    nameOf key = some name ↔ key.text? = some ("x-" ++ name) := by
  rw [nameOf]
  cases key.text? with
  | none => simp
  | some s =>
    rw [Option.some.injEq, ← String.toList_inj, String.toList_append]
    dsimp only
    constructor
    · intro h
      split at h
      · rename_i cs hcs
        cases h
        show s.toList = 'x' :: '-' :: (String.ofList cs).toList
        rw [String.toList_ofList, hcs]
      · cases h
    · intro h
      have hcs : s.toList = 'x' :: '-' :: name.toList := h
      rw [hcs]
      show some (String.ofList name.toList) = some name
      rw [String.ofList_toList]

theorem isTableKey_iff {key : Value} : isTableKey key = true ↔ ∃ name, nameOf key = some name := by
  simp only [nameOf_eq_some]
  rw [isTableKey]
  cases key.text? with
  | none => simp
  | some s =>
    rw [Option.any_some, List.isPrefixOf_iff_prefix]
    constructor
    · rintro ⟨cs, hcs⟩
      refine ⟨String.ofList cs, congrArg some (String.toList_inj.1 ?_)⟩
      simpa using hcs.symm
    · rintro ⟨name, hname⟩
      refine ⟨name.toList, ?_⟩
      rw [Option.some.inj hname, String.toList_append]

/-- **marked** — the entries whose keys name tables. -/
def marked (es : List (Value × Value)) : List (Value × Value) := es.filter fun e => isTableKey e.1

theorem mem_marked {es : List (Value × Value)} {e : Value × Value} :
    e ∈ marked es ↔ e ∈ es ∧ ∃ name, nameOf e.1 = some name := by
  rw [marked, List.mem_filter, isTableKey_iff]

/-- The tables of a description are those of its entries whose keys name tables. -/
theorem build_eq_mapM (es : List (Value × Value)) :
    build es = (marked es).mapM fun e => ofValue ((nameOf e.1).getD "") e.2 := by
  induction es with
  | nil => rfl
  | cons e es ih =>
    rw [build, marked, List.filter_cons]
    cases hname : nameOf e.1 with
    | none =>
      have hkey : ¬ isTableKey e.1 = true := by
        rw [isTableKey_iff, hname]
        simp
      rw [if_neg hkey]
      exact ih
    | some name =>
      rw [if_pos (isTableKey_iff.2 ⟨name, hname⟩), List.mapM_cons, hname, ← marked, ← ih]
      rfl

/-- All other entries have no say in the tables. -/
theorem build_eq_of_marked_eq {es es' : List (Value × Value)} (h : marked es' = marked es) :
    build es' = build es := by
  rw [build_eq_mapM, build_eq_mapM, h]

/-! ## § First place, last value -/

/-- **IsLast** — a label with the value that it comes with last. -/
def IsLast (pairs : List (String × Nat)) (e : String × Nat) : Prop :=
  ∃ before after, pairs = before ++ e :: after ∧ ∀ p ∈ after, p.1 ≠ e.1

/-- **Settled** — the entries that labels come to when they get their values one after another. -/
structure Settled (pairs entries : List (String × Nat)) : Prop where
  /-- No label stands twice. -/
  nodup : (entries.map Prod.fst).Nodup
  /-- No label is lost, and none is added. -/
  labels : ∀ label, label ∈ entries.map Prod.fst ↔ label ∈ pairs.map Prod.fst
  /-- Labels stand in the order in which they come first. -/
  order : (entries.map Prod.fst).Pairwise fun l l' =>
    (pairs.map Prod.fst).idxOf l < (pairs.map Prod.fst).idxOf l'
  /-- Each label has the value that it comes with last. -/
  last : ∀ e ∈ entries, IsLast pairs e

variable {pairs es es' : List (String × Nat)} {label : String} {value : Nat}

/-- What a label comes with last, it comes with first from the other end. -/
theorem IsLast.lookup_reverse {e : String × Nat} (h : IsLast pairs e) :
    pairs.reverse.lookup e.1 = some e.2 := by
  obtain ⟨before, after, rfl, hafter⟩ := h
  refine List.lookup_eq_some_iff.2 ⟨after.reverse, before.reverse, ?_, ?_⟩
  · rw [List.reverse_append, List.reverse_cons, List.append_assoc, List.singleton_append]
  · intro p hp
    exact bne_iff_ne.2 (hafter p (List.mem_reverse.1 hp)).symm

theorem isLast_concat (pairs : List (String × Nat)) (p : String × Nat) :
    IsLast (pairs ++ [p]) p :=
  ⟨pairs, [], rfl, fun q hq => by cases hq⟩

/-- A label that does not come again keeps its last value. -/
theorem IsLast.concat {e p : String × Nat} (h : IsLast pairs e) (hne : p.1 ≠ e.1) :
    IsLast (pairs ++ [p]) e := by
  obtain ⟨before, after, rfl, hafter⟩ := h
  refine ⟨before, after ++ [p], by rw [List.append_assoc, List.cons_append], ?_⟩
  intro q hq
  rcases List.mem_append.1 hq with hq | hq
  · exact hafter q hq
  · rw [List.mem_singleton.1 hq]
    exact hne

/-- A label that is there keeps its place, a new one goes to the end. -/
theorem map_fst_assign (label : String) (value : Nat) (es : List (String × Nat)) :
    (assign label value es).map Prod.fst
      = if label ∈ es.map Prod.fst then es.map Prod.fst else es.map Prod.fst ++ [label] := by
  induction es with
  | nil => rfl
  | cons e es ih =>
    obtain ⟨l, v⟩ := e
    rw [assign]
    by_cases h : l = label
    · subst h
      simp
    · rw [if_neg h, List.map_cons, ih]
      simp only [List.map_cons, List.mem_cons, Ne.symm h, false_or]
      split
      · rfl
      · rfl

/-- The label has the value, and all others have what they had. -/
theorem mem_assign (hnodup : (es.map Prod.fst).Nodup) {e : String × Nat} :
    e ∈ assign label value es ↔ e = (label, value) ∨ (e ∈ es ∧ e.1 ≠ label) := by
  induction es with
  | nil => simp [assign]
  | cons x es ih =>
    obtain ⟨l, v⟩ := x
    obtain ⟨hnew, hrest⟩ := List.nodup_cons.1 hnodup
    rw [assign]
    by_cases h : l = label
    · subst h
      -- No other entry has this label.
      have hother : ∀ x ∈ es, x.1 ≠ l := by
        rintro x hx rfl
        exact hnew (List.mem_map.2 ⟨x, hx, rfl⟩)
      rw [if_pos rfl, List.mem_cons, List.mem_cons]
      constructor
      · rintro (rfl | he)
        · exact .inl rfl
        · exact .inr ⟨.inr he, hother e he⟩
      · rintro (rfl | ⟨rfl | he, hne⟩)
        · exact .inl rfl
        · exact absurd rfl hne
        · exact .inr he
    · rw [if_neg h, List.mem_cons, List.mem_cons, ih hrest]
      constructor
      · rintro (rfl | rfl | ⟨he, hne⟩)
        · exact .inr ⟨.inl rfl, h⟩
        · exact .inl rfl
        · exact .inr ⟨.inr he, hne⟩
      · rintro (rfl | ⟨rfl | he, hne⟩)
        · exact .inr (.inl rfl)
        · exact .inl rfl
        · exact .inr (.inr ⟨he, hne⟩)

/-- A label that has come does not come first at another place later. -/
theorem idxOf_map_concat (p : String × Nat) (h : label ∈ pairs.map Prod.fst) :
    ((pairs ++ [p]).map Prod.fst).idxOf label = (pairs.map Prod.fst).idxOf label := by
  rw [List.map_append]
  exact List.idxOf_append_of_mem h

theorem Settled.isLast_assign (h : Settled pairs es) (label : String) (value : Nat) :
    ∀ e ∈ ValueTable.assign label value es, IsLast (pairs ++ [(label, value)]) e := by
  intro e he
  rcases (mem_assign h.nodup).1 he with rfl | ⟨he, hne⟩
  · exact isLast_concat pairs _
  · exact (h.last e he).concat hne.symm

/-- One more label with a value leaves the entries settled. -/
theorem Settled.assign (h : Settled pairs es) (label : String) (value : Nat) :
    Settled (pairs ++ [(label, value)]) (ValueTable.assign label value es) := by
  have hfirst : ∀ l ∈ es.map Prod.fst,
      ((pairs ++ [(label, value)]).map Prod.fst).idxOf l = (pairs.map Prod.fst).idxOf l :=
    fun l hl => idxOf_map_concat _ ((h.labels l).1 hl)
  have horder : (es.map Prod.fst).Pairwise fun l l' =>
      ((pairs ++ [(label, value)]).map Prod.fst).idxOf l
        < ((pairs ++ [(label, value)]).map Prod.fst).idxOf l' := by
    refine h.order.imp_of_mem fun hl hl' hlt => ?_
    rwa [hfirst _ hl, hfirst _ hl']
  have hlabels : ∀ l, l ∈ (pairs ++ [(label, value)]).map Prod.fst ↔
      l ∈ es.map Prod.fst ∨ l = label := by
    intro l
    rw [List.map_append, List.mem_append, ← h.labels l]
    simp
  have hlast := h.isLast_assign label value
  -- A label that is there leaves all places as they are, a new one takes the last one.
  by_cases hin : label ∈ es.map Prod.fst
  · have hsame : (ValueTable.assign label value es).map Prod.fst = es.map Prod.fst := by
      rw [map_fst_assign, if_pos hin]
    refine ⟨hsame ▸ h.nodup, fun l => ?_, hsame ▸ horder, hlast⟩
    rw [hsame, hlabels, or_iff_left_of_imp]
    rintro rfl
    exact hin
  · have hmore : (ValueTable.assign label value es).map Prod.fst = es.map Prod.fst ++ [label] := by
      rw [map_fst_assign, if_neg hin]
    have hnew : label ∉ pairs.map Prod.fst := fun hl => hin ((h.labels label).2 hl)
    refine ⟨?_, fun l => ?_, ?_, hlast⟩
    · rw [hmore, ← List.concat_eq_append]
      exact h.nodup.concat hin
    · rw [hmore, hlabels, List.mem_append, List.mem_singleton]
    · rw [hmore]
      refine List.pairwise_append.2 ⟨horder, List.pairwise_singleton _ _, fun l hl l' hl' => ?_⟩
      rw [List.mem_singleton.1 hl', hfirst l hl, List.map_append,
        List.idxOf_append_of_notMem hnew]
      exact Nat.lt_add_right _ (List.idxOf_lt_length_of_mem ((h.labels l).1 hl))

/-- The entries of a table are settled. -/
theorem settled_ofEntries (pairs : List (String × Nat)) : Settled pairs (ofEntries pairs) := by
  induction pairs using List.reverseRecOn with
  | nil => exact ⟨List.nodup_nil, fun _ => Iff.rfl, .nil, fun e he => by cases he⟩
  | append_singleton pairs p ih =>
    rw [ofEntries, List.foldl_append]
    exact ih.assign p.1 p.2

theorem Settled.subset (h : Settled pairs es) (h' : Settled pairs es') : es ⊆ es' := by
  intro e he
  have hlabel : e.1 ∈ es'.map Prod.fst :=
    (h'.labels e.1).2 ((h.labels e.1).1 (List.mem_map_of_mem he))
  obtain ⟨e', he', hsame⟩ := List.mem_map.1 hlabel
  have hvalue : some e'.2 = some e.2 := by
    rw [← (h'.last e' he').lookup_reverse, ← (h.last e he).lookup_reverse, hsame]
  rwa [← Prod.ext hsame (Option.some.inj hvalue)]

/-- What labels come to is known from where they come first and what they come with last. -/
theorem Settled.unique (h : Settled pairs es) (h' : Settled pairs es') : es = es' := by
  have hperm : es.Perm es' :=
    (List.perm_ext_iff_of_nodup h.nodup.of_map h'.nodup.of_map).2 fun _ =>
      ⟨fun he => h.subset h' he, fun he => h'.subset h he⟩
  have horder := List.pairwise_map.1 h.order
  have horder' := List.pairwise_map.1 h'.order
  refine List.Perm.eq_of_pairwise ?_ horder horder' hperm
  intro a b _ _ hab hba
  exact absurd hba (Nat.lt_asymm hab)

/-! ## § Tables -/

/-- **IsTable** — the table that an entry of a description names and holds. -/
structure IsTable (e : Value × Value) (t : ValueTable) : Prop where
  /-- The key is the name of the table after the mark. -/
  name : e.1.text? = some ("x-" ++ t.name)
  /-- The table has what the labels of the mapping come to. -/
  entries : ∃ entries pairs, e.2.mapping? = some entries ∧ Value.Lists entries pairs ∧
    Settled pairs t.entries

/-- A value gives the table that its mapping settles, under each name. -/
theorem ofValue_eq_ok {name : String} {v : Value} (hv : v.KeysInRange) {t : ValueTable} :
    ofValue name v = .ok t ↔ t.name = name ∧ ∃ entries pairs, v.mapping? = some entries ∧
      Value.Lists entries pairs ∧ Settled pairs t.entries := by
  rw [ofValue]
  cases hmapping : v.mapping? with
  | none => simp
  | some entries =>
    have hread : ∀ pairs, entries.mapM (readEntry ("enum `" ++ name ++ "`")) = .ok pairs ↔
        Value.Lists entries pairs :=
      fun _ => mapM_readEntry_eq_ok _ (hv entries hmapping)
    constructor
    · intro h
      obtain ⟨pairs, hpairs, h⟩ := bind_eq_ok.1 h
      cases h
      exact ⟨rfl, entries, pairs, rfl, (hread pairs).1 hpairs, settled_ofEntries pairs⟩
    · rintro ⟨rfl, _, pairs, hentries, hpairs, hsettled⟩
      cases hentries
      refine bind_eq_ok.2 ⟨pairs, (hread pairs).2 hpairs, ?_⟩
      rw [(settled_ofEntries pairs).unique hsettled]

/-- Under the name that its key gives, an entry gives the table that it names and holds. -/
theorem ofValue_eq_ok_iff_isTable {e : Value × Value} {name : String}
    (hname : nameOf e.1 = some name) (he : e.2.KeysInRange) {t : ValueTable} :
    ofValue name e.2 = .ok t ↔ IsTable e t := by
  have hsame : e.1.text? = some ("x-" ++ t.name) ↔ t.name = name := by
    rw [← nameOf_eq_some, hname, Option.some.injEq, eq_comm]
  rw [ofValue_eq_ok he, ← hsame]
  constructor
  · rintro ⟨hkey, hentries⟩
    exact ⟨hkey, hentries⟩
  · rintro ⟨hkey, hentries⟩
    exact ⟨hkey, hentries⟩

/-- The tables of a description are those that its entries name and hold, in their order. -/
theorem build_eq_ok {es : List (Value × Value)} (hes : ∀ e ∈ marked es, e.2.KeysInRange)
    {ts : List ValueTable} : build es = .ok ts ↔ List.Forall₂ IsTable (marked es) ts := by
  rw [build_eq_mapM]
  refine mapM_eq_ok_iff_of_forall fun e he t => ?_
  obtain ⟨-, name, hname⟩ := mem_marked.1 he
  rw [hname, Option.getD_some]
  exact ofValue_eq_ok_iff_isTable hname (hes e he)

/-! ## § When there are tables -/

theorem exists_lists_iff {entries : List (Value × Value)} : (∃ pairs, Value.Lists entries pairs) ↔
    ∀ x ∈ entries, (∃ n, x.1.IsKey n) ∧ x.2.IsLabel := by
  induction entries with
  | nil => exact iff_of_true ⟨[], .nil⟩ fun x hx => by cases hx
  | cons x entries ih =>
    rw [List.forall_mem_cons, ← ih, ← Value.exists_labels_iff]
    constructor
    · rintro ⟨pairs, h⟩
      obtain ⟨p, rest, ⟨hkey, hlabel⟩, hrest, -⟩ := List.forall₂_cons_left_iff.1 h
      exact ⟨⟨⟨p.2, hkey⟩, p.1, hlabel⟩, rest, hrest⟩
    · rintro ⟨⟨⟨n, hkey⟩, label, hlabel⟩, rest, hrest⟩
      exact ⟨(label, n) :: rest, .cons ⟨hkey, hlabel⟩ hrest⟩

/-- A value holds a table when it is a mapping of numbers to labels. -/
theorem exists_ofValue_iff {name : String} {v : Value} (hv : v.KeysInRange) :
    (∃ t, ofValue name v = .ok t) ↔ ∃ entries, v.mapping? = some entries ∧
      ∀ x ∈ entries, (∃ n, x.1.IsKey n) ∧ x.2.IsLabel := by
  simp only [ofValue_eq_ok hv, ← exists_lists_iff]
  constructor
  · rintro ⟨t, -, entries, pairs, hentries, hpairs, -⟩
    exact ⟨entries, hentries, pairs, hpairs⟩
  · rintro ⟨entries, hentries, pairs, hpairs⟩
    exact ⟨⟨name, ofEntries pairs⟩, rfl, entries, pairs, hentries, hpairs, settled_ofEntries pairs⟩

/-- There are tables when each entry whose key names one holds one. -/
theorem exists_build_iff_marked {es : List (Value × Value)}
    (hes : ∀ e ∈ marked es, e.2.KeysInRange) :
    (∃ ts, build es = .ok ts) ↔ ∀ e ∈ marked es, ∃ entries, e.2.mapping? = some entries ∧
      ∀ x ∈ entries, (∃ n, x.1.IsKey n) ∧ x.2.IsLabel := by
  rw [build_eq_mapM, exists_mapM_iff]
  exact forall₂_congr fun e he => exists_ofValue_iff (hes e he)

/-- Of a description that has been read, the tables are accepted when each key after `x-` holds a
mapping of numbers to labels. -/
theorem exists_build_iff {es : List (Value × Value)} (hkept : Draft.Kept es) :
    (∃ ts, build es = .ok ts) ↔ ∀ e ∈ es, ∀ name, e.1 = .text ("x-" ++ name) →
      ∃ entries, e.2 = .mapping entries ∧ ∀ x ∈ entries, (∃ n, x.1.IsKey n) ∧ x.2.IsLabel := by
  have hname : ∀ e ∈ es, ∀ name, nameOf e.1 = some name ↔ e.1 = .text ("x-" ++ name) := by
    intro e he name
    obtain ⟨⟨key, hkey⟩, -⟩ := hkept e he
    have htext : (Value.text key).text? = some key := rfl
    rw [nameOf_eq_some, hkey, htext, Option.some.injEq, Value.text.injEq]
  rw [exists_build_iff_marked fun e he => (hkept e (mem_marked.1 he).1).2.keysInRange]
  simp only [mem_marked, and_imp, forall_exists_index]
  refine forall₂_congr fun e he => forall_congr' fun name => ?_
  rw [hname e he]
  simp only [(hkept e he).2.mapping?_eq_some]

/-- **First place, last value.** Let the entries whose keys name tables have no numbers as keys but
those of 64 bits that a document can have. The tables are built when they are those of these entries
in their order: each is called what stands after the mark, and has the labels of its mapping once
each, in the order in which they come first, with the values that they come with last. All other
entries may be anything. The build fails when one of these entries holds no mapping, or a mapping
with a key that is no number of 64 bits or with a value that is no label. -/
theorem tables_settled {es : List (Value × Value)} (hes : ∀ e ∈ marked es, e.2.KeysInRange) :
    (∀ ts, build es = .ok ts ↔ List.Forall₂ IsTable (marked es) ts) ∧
    (∀ es', marked es' = marked es → build es' = build es) ∧
    ((∃ fault, build es = .error fault) ↔ ∃ e ∈ marked es, e.2.mapping? = none ∨
      ∃ entries, e.2.mapping? = some entries ∧
        ∃ x ∈ entries, (∀ n, ¬ x.1.IsKey n) ∨ ¬ x.2.IsLabel) := by
  refine ⟨fun ts => build_eq_ok hes, fun es' => build_eq_of_marked_eq, ?_⟩
  rw [exists_error_iff, exists_build_iff_marked hes]
  simp only [not_forall, exists_prop]
  refine exists_congr fun e => and_congr_right fun _ => ?_
  cases e.2.mapping? with
  | none => simp
  | some entries =>
    simp only [Option.some.injEq, exists_eq_left', reduceCtorEq, false_or, not_forall,
      exists_prop, not_and_or, not_exists]

/-! ## § A mapping whose labels come again -/

/-- **Modes.entries** — a table whose labels come again in other spellings, an entry that names no
table, and a table without a name and labels. -/
def Modes.entries : List (Value × Value) :=
  [(.text "x-mode", .mapping
    [(.number (.integer 0), .text "idle"), (.text "0x1", .number (.integer 1)),
      (.number (.integer 2), .text "1"), (.number (.integer 3), .bool true),
      (.text "0b100", .text "true"), (.number (.integer 5), .text "idle")]),
    (.text "c-cache", .number (.integer (-1))), (.text "x-", .mapping [])]

/-- **Modes.tables** — the tables of these entries. -/
def Modes.tables : List ValueTable := [⟨"mode", [("idle", 5), ("1", 2), ("true", 4)]⟩, ⟨"", []⟩]

/-- **Modes.broken** — a table with a key that is no number of 64 bits. -/
def Modes.broken : List (Value × Value) :=
  [(.text "x-mode", .mapping [(.number (.integer 0), .text "idle"), (.text "-1", .text "busy")])]

/-- The labels `idle`, `1` and `true` come twice. Each stands where it came first, with the value
that it came with last. A key that spells no number makes the build fail. -/
theorem tables_settled_modes :
    (∀ e ∈ marked Modes.entries, e.2.KeysInRange) ∧ build Modes.entries = .ok Modes.tables ∧
    List.Forall₂ IsTable (marked Modes.entries) Modes.tables ∧
    (∀ e ∈ marked Modes.broken, e.2.KeysInRange) ∧ ∃ fault, build Modes.broken = .error fault := by
  have hrange : ∀ e ∈ marked Modes.entries, e.2.KeysInRange := by decide +kernel
  have hbroken : ∀ e ∈ marked Modes.broken, e.2.KeysInRange := by decide +kernel
  obtain ⟨htables, -, -⟩ := tables_settled hrange
  obtain ⟨-, -, hfails⟩ := tables_settled hbroken
  have hbuild : build Modes.entries = .ok Modes.tables :=
    toOption_eq_some.1 (by decide +kernel)
  refine ⟨hrange, hbuild, (htables _).1 hbuild, hbroken, hfails.2 ?_⟩
  refine ⟨_, List.mem_singleton_self _, .inr ⟨_, rfl, _, List.mem_cons_of_mem _ List.mem_cons_self,
    .inl fun n hn => ?_⟩⟩
  have hnone : Text.readInteger "-1".toList = none := by decide +kernel
  rw [Text.readInteger_eq_some_iff.2 hn] at hnone
  cases hnone

end ValueTable

end RegisterMap
