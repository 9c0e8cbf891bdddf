import RegisterMap.Draft
import RegisterMap.Proofs.Outcome

/-!
# Readers — what everything that is read has in common

A reader may fail in many ways, but what it gives when it does not fail is known from its parts.
This module follows the data without a fixed shape that a description keeps: its integers have 64
bits, and nothing in it has a tag.

## § What is here

* `Gives` — a property of everything that a reader gives;
* `Number.InRange`, `Value.Plain` — integers of 64 bits, values without tags;
* `value_gives` — what is kept for later is plain, by induction on the depth;
* `extra_of_ofText` — the extra entries of a description have texts as keys and plain values.
-/

namespace RegisterMap.Yaml

/-! ## § Numbers -/

/-- **InRange** — an integer from `-2 ^ 63` to `2 ^ 64 - 1`, or any other number. -/
def Number.InRange : Number → Prop
  | .integer n => -(capacity 63 : Int) ≤ n ∧ n < capacity 64
  | .float _ => True

namespace Scalar

theorem magnitude_lt {limit n : Nat} {cs : List Char} (h : magnitude limit cs = some n) :
    n < limit := by
  have hbased : ∀ base rest, (if startsWithSign rest then none
      else Text.readNumeral base limit rest) = some n → n < limit := by
    intro base rest hread
    split at hread
    · cases hread
    · exact Text.readNumeral_lt hread
  unfold magnitude at h
  split at h
  · exact hbased 16 _ h
  · exact hbased 8 _ h
  · exact hbased 2 _ h
  · split at h
    · cases h
    · exact hbased 10 _ h

/-- An integer that is read as one of 64 bits has 64 bits. -/
theorem inRange_of_readInteger {cs : List Char} {n : Int} (h : readInteger cs = some (.integer n)) :
    (Number.integer n).InRange := by
  have hcap : (0 : Int) < capacity 63 ∧ (0 : Int) < capacity 64 := by decide
  show -(capacity 63 : Int) ≤ n ∧ n < capacity 64
  unfold readInteger at h
  cases hpos : readUnsigned (capacity 64) cs with
  | some k =>
    rw [hpos] at h
    cases h
    have hlt := magnitude_lt hpos
    omega
  | none =>
    rw [hpos] at h
    cases hneg : readNegative (capacity 63) cs with
    | some k =>
      rw [hneg] at h
      cases h
      unfold readNegative at hneg
      split at hneg
      · obtain ⟨m, hm, rfl⟩ := Option.map_eq_some_iff.1 hneg
        obtain ⟨k, hk, hm⟩ := Option.bind_eq_some_iff.1 hm
        obtain rfl : (k : Int) = m := Option.some.inj hm
        have hlt := magnitude_lt hk
        omega
      · cases hneg
    | none =>
      -- What is left does not fit 64 bits and is kept apart.
      rw [hneg] at h
      cases hwide : readUnsigned (capacity 128) cs with
      | some k =>
        rw [hwide] at h
        cases h
      | none =>
        rw [hwide] at h
        obtain ⟨k, -, hk⟩ := Option.map_eq_some_iff.1 h
        cases hk

theorem inRange_of_ofPlain {cs : List Char} {n : Int} (h : ofPlain cs = .integer n) :
    (Number.integer n).InRange := by
  unfold ofPlain at h
  split at h
  · cases h
  · split at h
    · cases h
    · split at h
      · rename_i m hm
        exact inRange_of_readInteger (hm.trans (congrArg some h))
      · split at h
        · cases h
        · split at h <;> cases h

/-- So has every integer that a scalar means. -/
theorem inRange_of_meaning {tag : Option Bytes} {style : Style} {cs : List Char} {n : Int}
    (h : meaning tag style cs = some (.integer n)) : (Number.integer n).InRange := by
  unfold meaning at h
  cases tag with
  | none =>
    simp only [Option.some.injEq] at h
    split at h
    · exact inRange_of_ofPlain h
    · cases h
  | some tag =>
    simp only at h
    split at h
    · obtain ⟨b, -, hb⟩ := Option.map_eq_some_iff.1 h
      cases hb
    · split at h
      · exact inRange_of_readInteger h
      · split at h
        · obtain ⟨x, -, hx⟩ := Option.map_eq_some_iff.1 h
          cases hx
        · split at h
          · split at h <;> cases h
          · split at h
            · exact inRange_of_ofPlain (Option.some.inj h)
            · cases h

end Scalar

/-! ## § Plain values -/

/-- **Plain** — a value without a tag, whose integers have 64 bits. -/
inductive Value.Plain : Value → Prop
  | null : Plain .null
  | bool (b : Bool) : Plain (.bool b)
  | number {n : Number} (h : n.InRange) : Plain (.number n)
  | text (s : String) : Plain (.text s)
  | sequence {items : List Value} (h : ∀ v ∈ items, Plain v) : Plain (.sequence items)
  | mapping {entries : List (Value × Value)} (keys : ∀ e ∈ entries, Plain e.1)
    (values : ∀ e ∈ entries, Plain e.2) : Plain (.mapping entries)

/-! ## § What a reader gives -/

namespace Reader

variable {α β : Type} {P : α → Prop} {Q : β → Prop}

/-- **Gives** — all that the reader gives has the property. -/
def Gives (x : Reader α) (P : α → Prop) : Prop := ∀ d n a m, x d n = .ok (a, m) → P a

theorem gives_pure {a : α} (h : P a) : Gives (pure a) P := by
  intro d n b m hrun
  cases hrun
  exact h

theorem gives_fail (f : ReadFault) : Gives (fail f : Reader α) P := by
  intro d n a m hrun
  cases hrun

theorem gives_unreadable (cause : Unreadable) : Gives (unreadable cause : Reader α) P :=
  gives_fail _

/-- One reader after another gives what the second one gives on what the first one gives. -/
theorem Gives.bind {x : Reader α} {f : α → Reader β} (hx : Gives x P)
    (hf : ∀ a, P a → Gives (f a) Q) : Gives (x >>= f) Q := by
  intro d n b m hrun
  change (x d n >>= fun p => f p.1 d p.2) = .ok (b, m) at hrun
  obtain ⟨⟨a, k⟩, hfirst, hsecond⟩ := Outcome.bind_eq_ok.1 hrun
  exact hf a (hx d n a k hfirst) d k b m hsecond

/-- The second reader may say it all. -/
theorem gives_bind {x : Reader α} {f : α → Reader β} (hf : ∀ a, Gives (f a) Q) :
    Gives (x >>= f) Q :=
  Gives.bind (P := fun _ => True) (fun _ _ _ _ _ => trivial) fun a _ => hf a

theorem Gives.mapM {f : α → Reader β} (hf : ∀ a, Gives (f a) Q) (as : List α) :
    Gives (as.mapM f) fun bs => ∀ b ∈ bs, Q b := by
  induction as with
  | nil => exact gives_pure fun b hb => by cases hb
  | cons a as ih =>
    rw [List.mapM_cons]
    refine (hf a).bind fun b hb => ?_
    refine ih.bind fun bs hbs => ?_
    exact gives_pure (List.forall_mem_cons.2 ⟨hb, hbs⟩)

/-! ## § Data without a fixed shape -/

theorem meaning_gives (tag : Option Bytes) (style : Style) (cs : List Char) :
    Gives (meaning tag style cs) fun m => ∀ n, m = .integer n → (Number.integer n).InRange := by
  unfold meaning
  split
  · rename_i m hm
    apply gives_pure
    rintro n rfl
    exact Scalar.inRange_of_meaning hm
  · exact gives_unreadable _

theorem ofMeaning_gives {keeping : Keeping} {m : Scalar.Meaning}
    (h : ∀ n, m = .integer n → (Number.integer n).InRange) :
    Gives (ofMeaning keeping m) Value.Plain := by
  cases m with
  | null => exact gives_pure .null
  | bool b => exact gives_pure (.bool b)
  | integer n => exact gives_pure (.number (h n rfl))
  | wide n => exact gives_fail _
  | float x => exact gives_pure (.number trivial)
  | text s => exact gives_pure (.text s)

/-- Entries are plain when their keys and values are read as plain values. -/
theorem entries_gives {keeping : Keeping} {value : Node → Reader Value}
    (hvalue : ∀ n, Gives (value n) Value.Plain) (items : List Node)
    {before : List (Value × Value)} (hbefore : ∀ e ∈ before, e.1.Plain ∧ e.2.Plain) :
    Gives (entries keeping value before items) fun es => ∀ e ∈ es, e.1.Plain ∧ e.2.Plain := by
  have hreverse : ∀ e ∈ before.reverse, e.1.Plain ∧ e.2.Plain := fun e he =>
    hbefore e (List.mem_reverse.1 he)
  match items with
  | [] => exact gives_pure hreverse
  | [k] => exact gives_bind fun _ => gives_pure hreverse
  | k :: v :: rest =>
    rw [entries]
    refine (hvalue k).bind fun key hkey => ?_
    split
    · exact gives_unreadable _
    · refine (hvalue v).bind fun val hval => ?_
      exact entries_gives hvalue rest (List.forall_mem_cons.2 ⟨⟨hkey, hval⟩, hbefore⟩)

/-- No tag can be kept for later. -/
theorem localTag_gives {body : Reader Value} (h : Gives body Value.Plain) (n : Node) :
    Gives (match localTag n with
      | none => body
      | some tag => if Keeping.forLater = .forLater then unreadable .localTag
        else .tagged tag <$> body) Value.Plain := by
  split
  · exact h
  · exact gives_unreadable _

/-- A value for later is plain when its items are. -/
theorem shapeless_gives {inner : Option (Node → Reader Value)}
    (hinner : ∀ read, inner = some read → ∀ n, Gives (read n) Value.Plain) (n : Node) :
    Gives (shapeless .forLater inner n) Value.Plain := by
  unfold shapeless
  refine gives_bind fun n => localTag_gives ?_ n
  split
  · exact (meaning_gives _ _ _).bind fun m hm => ofMeaning_gives hm
  · exact gives_unreadable _
  · exact gives_unreadable _
  · rename_i read _
    refine (Gives.mapM (hinner read rfl) _).bind fun vs hvs => ?_
    exact gives_pure (.sequence hvs)
  · rename_i read _
    refine (entries_gives (hinner read rfl) _ (by simp)).bind fun es hes => ?_
    exact gives_pure (.mapping (fun e he => (hes e he).1) fun e he => (hes e he).2)
  · exact gives_pure .null

/-- What is kept for later is plain, however deep it nests. -/
theorem value_gives (depth : Nat) (n : Node) : Gives (value .forLater depth n) Value.Plain := by
  induction depth generalizing n with
  | zero => exact shapeless_gives (fun read hread => by cases hread) n
  | succ depth ih =>
    apply shapeless_gives
    intro read hread
    cases hread
    exact ih

/-! ## § Mappings with fixed keys -/

/-- The fields of a mapping keep what each of them keeps. -/
theorem foldFields_gives {σ : Type} {I : σ → Prop} {field : σ → String → Node → Reader σ}
    (hfield : ∀ s key n, I s → Gives (field s key n) I) (items : List Node) {s : σ} (hs : I s) :
    Gives (foldFields field s items) I := by
  match items with
  | [] => exact gives_pure hs
  | [k] => exact gives_bind fun _ => gives_pure hs
  | k :: v :: rest =>
    rw [foldFields]
    refine gives_bind fun name => ?_
    refine (hfield s name v hs).bind fun t ht => ?_
    exact foldFields_gives hfield rest ht

theorem wrongType_gives (expected : String) (n : Node) :
    Gives (wrongType expected n : Reader α) P := by
  unfold wrongType
  split
  · exact gives_bind fun _ => gives_fail _
  · exact gives_fail _
  · exact gives_fail _
  · exact gives_unreadable _

theorem fields_gives {σ : Type} {I : σ → Prop} {type : String} {start : σ}
    {field : Nat → σ → String → Node → Reader σ} (hstart : I start)
    (hfield : ∀ depth s key n, I s → Gives (field depth s key n) I) (depth : Nat) (n : Node) :
    Gives (fields type start field depth n) I := by
  unfold fields
  apply gives_bind
  intro n
  split
  · exact gives_unreadable _
  · exact foldFields_gives (hfield _) _ hstart
  · split
    · exact gives_pure hstart
    · exact wrongType_gives _ _

/-- What a reader gives of a whole document is what it gives of the root. -/
theorem Gives.of_run {reader : Node → Reader α} {doc : Document}
    (hreader : Gives (reader doc.root) P) {a : α} (h : run reader doc = .ok a) : P a := by
  unfold run at h
  obtain ⟨⟨b, m⟩, hrun, h⟩ := Outcome.bind_eq_ok.1 h
  cases hfault : doc.fault with
  | some f =>
    simp only [hfault] at h
    cases h
  | none =>
    simp only [hfault] at h
    cases h
    exact hreader _ _ _ _ hrun

end Reader

end RegisterMap.Yaml

/-! ## § The extra entries of a description -/

namespace RegisterMap.Draft

open Yaml Yaml.Reader

/-- **Kept** — entries with texts as keys and plain values. -/
def Kept (entries : List (Value × Value)) : Prop :=
  ∀ e ∈ entries, (∃ key, e.1 = .text key) ∧ e.2.Plain

/-- Only a key without a meaning of its own adds an entry. -/
theorem readDevicePart_gives (depth : Nat) {p : DeviceParts} (key : String) (n : Node)
    (hp : Kept p.extra) : Gives (readDevicePart depth p key n) fun q => Kept q.extra := by
  unfold readDevicePart
  split
  case h_11 =>
    refine (value_gives depth n).bind fun v hv => ?_
    exact gives_pure (List.forall_mem_cons.2 ⟨⟨⟨key, rfl⟩, hv⟩, hp⟩)
  all_goals exact gives_bind fun _ => gives_pure hp

theorem readExtra_gives {p : DeviceParts} (hp : Kept p.extra) : Gives (readExtra p) Kept := by
  unfold readExtra
  split
  · exact gives_pure fun e he => hp e (List.mem_reverse.1 he)
  · exact gives_unreadable _

theorem readDevice_gives (n : Node) : Gives (readDevice n) fun d => Kept d.extra := by
  unfold readDevice
  have hfields : Gives (fields "struct RawTop" {} readDevicePart maxDepth n) fun p =>
      Kept p.extra :=
    fields_gives (fun e he => by cases he) (fun depth _ key n hp =>
      readDevicePart_gives depth key n hp) maxDepth n
  refine hfields.bind fun p hp => ?_
  refine gives_bind fun name => gives_bind fun addrWidth => gives_bind fun dataWidth =>
    gives_bind fun pages => ?_
  exact (readExtra_gives hp).bind fun extra hextra => gives_pure hextra

/-- The extra entries of a description that can be read have texts as keys and plain values. -/
theorem extra_of_ofText {text : String} {d : Device} (h : Device.ofText text = .ok d) :
    Kept d.extra :=
  (readDevice_gives _).of_run h

end RegisterMap.Draft
