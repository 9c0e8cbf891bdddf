import RegisterMap.Proofs.Yaml.Reader

/-!
# Keys of options — what a description that can be read says of them

The options of a field are read as a mapping, and a mapping with a key twice cannot be read. So in a
draft the keys of each field are different. They are different as data only: a number and a text
are never the same key, whatever the text spells.

## § What is here

* `KeysApart`, `entries_keysApart`, `mapping_gives` — mappings, by induction on their entries;
* `Field.Keyed`, `Register.Keyed`, `Page.Keyed` — the parts of a draft whose options have different
  keys;
* `readField_gives`, `readRegister_gives`, `readPage_gives` — only such parts are read;
* `keyed_of_ofText` — and so each page of a description is one.
-/

namespace RegisterMap.Yaml

/-- **KeysApart** — no key comes again. -/
def Value.KeysApart (entries : List (Value × Value)) : Prop :=
  entries.Pairwise fun e e' => e.1.same e'.1 = false

theorem Value.same_of_hasKey {k : Value} {entries : List (Value × Value)}
    (h : hasKey k entries = false) : ∀ e ∈ entries, e.1.same k = false := by
  intro e he
  have hnone := List.any_eq_false.1 h e he
  simpa using hnone

namespace Reader

variable {α : Type} {P : α → Prop}

/-! ## § Mappings without fixed keys -/

/-- Entries that are read as values have different keys. -/
theorem entries_keysApart (value : Node → Reader Value) (items : List Node)
    {before : List (Value × Value)} (hbefore : Value.KeysApart before.reverse) :
    Gives (entries .asValue value before items) Value.KeysApart := by
  match items with
  | [] => exact gives_pure hbefore
  | [k] => exact gives_bind fun _ => gives_pure hbefore
  | k :: v :: rest =>
    rw [entries]
    refine gives_bind fun key => ?_
    split
    · exact gives_unreadable _
    · rename_i hnew
      refine gives_bind fun val => entries_keysApart value rest ?_
      have hnew : Value.hasKey key before = false := by simpa using hnew
      rw [List.reverse_cons]
      refine List.pairwise_append.2 ⟨hbefore, List.pairwise_singleton _ _, ?_⟩
      intro e he e' he'
      rw [List.mem_singleton.1 he']
      exact Value.same_of_hasKey hnew e (List.mem_reverse.1 he)

theorem mapping_gives (depth : Nat) (n : Node) : Gives (mapping depth n) Value.KeysApart := by
  unfold mapping
  refine gives_bind fun n => ?_
  split
  · exact gives_unreadable _
  · exact entries_keysApart _ _ List.Pairwise.nil
  · split
    · exact gives_pure List.Pairwise.nil
    · exact wrongType_gives _ _

/-! ## § Parts that may be missing -/

theorem optional_gives {reader : Node → Reader α} (h : ∀ n, Gives (reader n) P) (n : Node) :
    Gives (optional reader n) fun o => ∀ a ∈ o, P a := by
  unfold optional
  refine gives_bind fun n => gives_bind fun absent => ?_
  split
  · exact gives_pure fun a ha => by cases ha
  · refine (h n).bind fun a ha => gives_pure fun b hb => ?_
    rwa [← Option.some.inj hb]

theorem once_gives {name : String} {before : Option α} {reader : Reader α} (h : Gives reader P) :
    Gives (once name before reader) fun o => ∀ a ∈ o, P a := by
  unfold once
  split
  · exact gives_fail _
  · refine h.bind fun a ha => gives_pure fun b hb => ?_
    rwa [← Option.some.inj hb]

theorem required_gives {name : String} {value : Option α} (h : ∀ a ∈ value, P a) :
    Gives (required name value) P := by
  unfold required
  split
  · exact gives_pure (h _ rfl)
  · exact gives_fail _

theorem sequence_gives {item : Nat → Node → Reader α} (h : ∀ depth n, Gives (item depth n) P)
    (depth : Nat) (n : Node) : Gives (sequence item depth n) fun as => ∀ a ∈ as, P a := by
  unfold sequence
  refine gives_bind fun n => ?_
  split
  · exact gives_unreadable _
  · exact Gives.mapM (h _) _
  · split
    · exact gives_pure fun a ha => by cases ha
    · exact wrongType_gives _ _

end Reader

end RegisterMap.Yaml

namespace RegisterMap.Draft

open Yaml Yaml.Reader

/-! ## § Parts of a draft -/

/-- **Keyed** — a field whose options have different keys. -/
def Field.Keyed (f : Field) : Prop := ∀ es ∈ f.opts, Value.KeysApart es

/-- **Keyed** — a register whose fields are. -/
def Register.Keyed (r : Register) : Prop := ∀ fs ∈ r.fields, ∀ f ∈ fs, f.Keyed

/-- **Keyed** — a page whose registers are. -/
def Page.Keyed (p : Page) : Prop := ∀ r ∈ p.regs, r.Keyed

theorem readFieldPart_gives (depth : Nat) {p : FieldParts} (key : String) (n : Node)
    (hp : ∀ es ∈ p.opts.join, Value.KeysApart es) :
    Gives (readFieldPart depth p key n) fun q => ∀ es ∈ q.opts.join, Value.KeysApart es := by
  unfold readFieldPart
  split
  case h_4 =>
    refine (once_gives (optional_gives (mapping_gives depth) n)).bind fun o ho => gives_pure ?_
    intro es hes
    exact ho _ (Option.join_eq_some_iff.1 hes) es rfl
  all_goals exact gives_bind fun _ => gives_pure hp

theorem readField_gives (depth : Nat) (n : Node) : Gives (readField depth n) Field.Keyed := by
  unfold readField
  have hfields : Gives (fields "struct RawField" {} readFieldPart depth n) fun p =>
      ∀ es ∈ p.opts.join, Value.KeysApart es :=
    fields_gives (fun es hes => by cases hes) (fun depth _ key n hp =>
      readFieldPart_gives depth key n hp) depth n
  refine hfields.bind fun p hp => ?_
  exact gives_bind fun name => gives_bind fun bits => gives_pure hp

theorem readRegisterPart_gives (depth : Nat) {p : RegisterParts} (key : String) (n : Node)
    (hp : ∀ fs ∈ p.fields.join, ∀ f ∈ fs, f.Keyed) :
    Gives (readRegisterPart depth p key n) fun q => ∀ fs ∈ q.fields.join, ∀ f ∈ fs, f.Keyed := by
  unfold readRegisterPart
  split
  case h_3 =>
    have hread := optional_gives (sequence_gives readField_gives depth) n
    refine (once_gives hread).bind fun o ho => gives_pure ?_
    intro fs hfs
    exact ho _ (Option.join_eq_some_iff.1 hfs) fs rfl
  all_goals exact gives_bind fun _ => gives_pure hp

theorem readRegister_gives (depth : Nat) (n : Node) :
    Gives (readRegister depth n) Register.Keyed := by
  unfold readRegister
  have hfields : Gives (fields "struct RawReg" {} readRegisterPart depth n) fun p =>
      ∀ fs ∈ p.fields.join, ∀ f ∈ fs, f.Keyed :=
    fields_gives (fun fs hfs => by cases hfs) (fun depth _ key n hp =>
      readRegisterPart_gives depth key n hp) depth n
  refine hfields.bind fun p hp => ?_
  exact gives_bind fun name => gives_bind fun addr => gives_pure hp

theorem readPagePart_gives (depth : Nat) {p : PageParts} (key : String) (n : Node)
    (hp : ∀ rs ∈ p.regs, ∀ r ∈ rs, r.Keyed) :
    Gives (readPagePart depth p key n) fun q => ∀ rs ∈ q.regs, ∀ r ∈ rs, r.Keyed := by
  unfold readPagePart
  split
  case h_2 =>
    exact (once_gives (sequence_gives readRegister_gives depth n)).bind fun o ho => gives_pure ho
  all_goals exact gives_bind fun _ => gives_pure hp

theorem readPage_gives (depth : Nat) (n : Node) : Gives (readPage depth n) Page.Keyed := by
  unfold readPage
  have hfields : Gives (fields "struct RawPage" {} readPagePart depth n) fun p =>
      ∀ rs ∈ p.regs, ∀ r ∈ rs, r.Keyed :=
    fields_gives (fun rs hrs => by cases hrs) (fun depth _ key n hp =>
      readPagePart_gives depth key n hp) depth n
  refine hfields.bind fun p hp => gives_bind fun name => ?_
  exact (required_gives hp).bind fun regs hregs => gives_pure hregs

/-! ## § The device -/

theorem readDevicePart_keyed (depth : Nat) {p : DeviceParts} (key : String) (n : Node)
    (hp : ∀ ps ∈ p.pages, ∀ p ∈ ps, p.Keyed) :
    Gives (readDevicePart depth p key n) fun q => ∀ ps ∈ q.pages, ∀ p ∈ ps, p.Keyed := by
  unfold readDevicePart
  split
  case h_10 =>
    exact (once_gives (sequence_gives readPage_gives depth n)).bind fun o ho => gives_pure ho
  all_goals exact gives_bind fun _ => gives_pure hp

theorem readDevice_keyed (n : Node) : Gives (readDevice n) fun d => ∀ p ∈ d.pages, p.Keyed := by
  unfold readDevice
  have hfields : Gives (fields "struct RawTop" {} readDevicePart maxDepth n) fun p =>
      ∀ ps ∈ p.pages, ∀ p ∈ ps, p.Keyed :=
    fields_gives (fun ps hps => by cases hps) (fun depth _ key n hp =>
      readDevicePart_keyed depth key n hp) maxDepth n
  refine hfields.bind fun p hp => ?_
  refine gives_bind fun name => gives_bind fun addrWidth => gives_bind fun dataWidth => ?_
  exact (required_gives hp).bind fun pages hpages => gives_bind fun extra => gives_pure hpages

/-- In a description that can be read, the options of each field have different keys. -/
theorem keyed_of_ofText {text : String} {d : Device} (h : Device.ofText text = .ok d) :
    ∀ p ∈ d.pages, p.Keyed :=
  (readDevice_keyed _).of_run h

end RegisterMap.Draft
