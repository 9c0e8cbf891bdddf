import Mathlib.Data.List.Forall2

/-!
# Outcomes — what a success or a failure says about its parts

A computation in steps succeeds exactly when each of its steps does, and fails with its first step
that fails. These are the laws by which both are taken apart, step by step and item by item.

## § What is here

* `bind_eq_ok`, `mapError_eq_ok`, `mapM_eq_ok`, `mapM_eq_ok_iff_of_forall` — the parts of a success;
* `mapM_flatMap` — lists in a list, as one list;
* `exists_of_mem_mapM`, `pairwise_iff_of_forall₂` — lists that go together, item by item;
* `mapM_eq_of_forall₂`, `option_mapM_eq_of_rel` — items that are computed alike;
* `mem_of_lookup`, `lookup_eq_none` — what is found in a list of pairs;
* `bind_eq_error`, `mapError_eq_error`, `mapM_eq_error` — the part that failed.
-/

namespace RegisterMap.Outcome

variable {ε ε' α β : Type}

/-! ## § Successes -/

/-- Two steps succeed when the first one does, and the second one on what the first one gives. -/
theorem bind_eq_ok {x : Except ε α} {f : α → Except ε β} {b : β} :
    (x >>= f) = .ok b ↔ ∃ a, x = .ok a ∧ f a = .ok b := by
  cases x with
  | error e => simp [bind, Except.bind]
  | ok a => simp [bind, Except.bind]

/-- Another name for the error does not change when there is none. -/
theorem mapError_eq_ok {x : Except ε α} {f : ε → ε'} {a : α} :
    x.mapError f = .ok a ↔ x = .ok a := by
  cases x with
  | error e => simp [Except.mapError]
  | ok b => simp [Except.mapError]

theorem toOption_eq_some {x : Except ε α} {a : α} : x.toOption = some a ↔ x = .ok a := by
  cases x with
  | error e => simp [Except.toOption]
  | ok b => simp [Except.toOption]

/-- The items of a list succeed together when each of them does. -/
theorem mapM_eq_ok {f : α → Except ε β} {as : List α} {bs : List β} :
    as.mapM f = .ok bs ↔ List.Forall₂ (fun a b => f a = .ok b) as bs := by
  induction as generalizing bs with
  | nil =>
    rw [List.mapM_nil, List.forall₂_nil_left_iff]
    exact ⟨fun h => (Except.ok.inj h).symm, fun h => h ▸ rfl⟩
  | cons a as ih =>
    rw [List.mapM_cons, bind_eq_ok]
    constructor
    · rintro ⟨b, hb, hrest⟩
      obtain ⟨cs, hcs, hpure⟩ := bind_eq_ok.1 hrest
      obtain rfl : b :: cs = bs := Except.ok.inj hpure
      exact .cons hb (ih.1 hcs)
    · intro h
      obtain ⟨b, cs, hb, hcs, rfl⟩ := List.forall₂_cons_left_iff.1 h
      exact ⟨b, hb, bind_eq_ok.2 ⟨cs, ih.2 hcs, rfl⟩⟩

/-- The items of a list succeed together with results that stand to them as the result of each item
does. -/
theorem mapM_eq_ok_iff_of_forall {f : α → Except ε β} {r : α → β → Prop} {as : List α}
    (h : ∀ a ∈ as, ∀ b, f a = .ok b ↔ r a b) {bs : List β} :
    as.mapM f = .ok bs ↔ List.Forall₂ r as bs := by
  rw [mapM_eq_ok]
  constructor
  · intro hall
    have hmem := (List.forall₂_and_left as bs).2 ⟨fun a ha => ha, hall⟩
    exact hmem.imp fun a b hab => (h a hab.1 b).1 hab.2
  · intro hall
    have hmem := (List.forall₂_and_left as bs).2 ⟨fun a ha => ha, hall⟩
    exact hmem.imp fun a b hab => (h a hab.1 b).2 hab.2

/-- When each item has at most one result, the results of a list are those of its items. -/
theorem mapM_eq_ok_map {f : α → Except ε β} {p : α → Prop} {g : α → β} {as : List α} {bs : List β}
    (h : ∀ a b, f a = .ok b ↔ p a ∧ b = g a) :
    as.mapM f = .ok bs ↔ (∀ a ∈ as, p a) ∧ bs = as.map g := by
  simp only [mapM_eq_ok, h]
  induction as generalizing bs with
  | nil => simp
  | cons a as ih =>
    rw [List.forall₂_cons_left_iff, List.forall_mem_cons, List.map_cons]
    simp only [ih]
    refine ⟨?_, ?_⟩
    · intro ⟨b, cs, ⟨ha, hb⟩, ⟨has, hcs⟩, hbs⟩
      exact ⟨⟨ha, has⟩, by rw [hbs, hb, hcs]⟩
    · intro ⟨⟨ha, has⟩, hbs⟩
      exact ⟨g a, as.map g, ⟨ha, rfl⟩, ⟨has, rfl⟩, hbs⟩

/-- Items that stand in lists are computed as those of one list. -/
theorem mapM_flatMap {γ : Type} {f : β → Except ε γ} {g : α → List β} (as : List α) :
    (as.flatMap g).mapM f = (as.mapM fun a => (g a).mapM f) >>= fun css => .ok css.flatten := by
  induction as with
  | nil => rfl
  | cons a as ih =>
    rw [List.flatMap_cons, List.mapM_append, List.mapM_cons, ih]
    simp only [bind_assoc]
    rfl

theorem exists_mapM_iff {f : α → Except ε β} {as : List α} :
    (∃ bs, as.mapM f = .ok bs) ↔ ∀ a ∈ as, ∃ b, f a = .ok b := by
  induction as with
  | nil =>
    constructor
    · intro _ a ha
      cases ha
    · intro _
      exact ⟨[], rfl⟩
  | cons a as ih =>
    rw [List.forall_mem_cons, ← ih, List.mapM_cons]
    constructor
    · rintro ⟨cs, h⟩
      obtain ⟨b, hb, h⟩ := bind_eq_ok.1 h
      obtain ⟨bs, hbs, -⟩ := bind_eq_ok.1 h
      exact ⟨⟨b, hb⟩, bs, hbs⟩
    · rintro ⟨⟨b, hb⟩, bs, hbs⟩
      exact ⟨b :: bs, bind_eq_ok.2 ⟨b, hb, bind_eq_ok.2 ⟨bs, hbs, rfl⟩⟩⟩

/-- The items of a list succeed together with results that go with them, when each of them does. -/
theorem exists_mapM_forall₂ {f : α → Except ε β} {p : α → β → Prop} {as : List α}
    (h : ∀ a ∈ as, ∃ b, f a = .ok b ∧ p a b) :
    ∃ bs, as.mapM f = .ok bs ∧ List.Forall₂ p as bs := by
  induction as with
  | nil => exact ⟨[], rfl, .nil⟩
  | cons a as ih =>
    obtain ⟨⟨b, hb, hp⟩, hrest⟩ := List.forall_mem_cons.1 h
    obtain ⟨bs, hbs, hps⟩ := ih hrest
    refine ⟨b :: bs, ?_, .cons hp hps⟩
    rw [List.mapM_cons]
    exact bind_eq_ok.2 ⟨b, hb, bind_eq_ok.2 ⟨bs, hbs, rfl⟩⟩

/-- An optional item succeeds when it does if there is one. -/
theorem exists_option_mapM_iff {f : α → Except ε β} {o : Option α} :
    (∃ r, o.mapM f = .ok r) ↔ ∀ a ∈ o, ∃ b, f a = .ok b := by
  cases o with
  | none =>
    refine iff_of_true ⟨none, rfl⟩ ?_
    intro a ha
    cases ha
  | some a =>
    have hmap : ∀ r, (some a).mapM f = .ok r ↔ ∃ b, f a = .ok b ∧ r = some b := by
      intro r
      show (f a >>= fun b => pure (some b)) = .ok r ↔ _
      rw [bind_eq_ok]
      exact exists_congr fun b => and_congr_right fun _ =>
        ⟨fun h => (Except.ok.inj h).symm, fun h => congrArg Except.ok h.symm⟩
    simp only [hmap, Option.mem_def, Option.some.injEq, forall_eq']
    exact ⟨fun ⟨_, b, hb, _⟩ => ⟨b, hb⟩, fun ⟨b, hb⟩ => ⟨some b, b, hb, rfl⟩⟩

/-- What an optional item gives is there when the item is. -/
theorem option_mapM_eq_none {f : α → Except ε β} {o : Option α} {r : Option β}
    (h : o.mapM f = .ok r) : r = none ↔ o = none := by
  cases o with
  | none =>
    cases h
    exact iff_of_true rfl rfl
  | some a =>
    obtain ⟨b, -, hr⟩ := bind_eq_ok.1 (show (f a >>= fun b => pure (some b)) = .ok r from h)
    cases hr
    exact iff_of_false (by simp) (by simp)

/-- Of lists that go together, the items at one place go together. -/
theorem exists_of_forall₂ {r : α → β → Prop} {as : List α} {bs : List β}
    (h : List.Forall₂ r as bs) {i : Nat} {a : α} (ha : as[i]? = some a) :
    ∃ b, bs[i]? = some b ∧ r a b := by
  obtain ⟨hi, rfl⟩ := List.getElem?_eq_some_iff.1 ha
  have hi' : i < bs.length := h.length_eq ▸ hi
  exact ⟨bs[i], List.getElem?_eq_getElem hi', h.get hi hi'⟩

theorem exists_of_mem_forall₂ {r : α → β → Prop} {as : List α} {bs : List β}
    (h : List.Forall₂ r as bs) {b : β} (hb : b ∈ bs) : ∃ a ∈ as, r a b := by
  obtain ⟨i, hi, rfl⟩ := List.mem_iff_getElem.1 hb
  obtain ⟨a, ha, hr⟩ := exists_of_forall₂ h.flip (List.getElem?_eq_getElem hi)
  exact ⟨a, List.mem_of_getElem? ha, hr⟩

/-- Two items of a list stand to each other as the items that go with them do. -/
theorem pairwise_iff_of_forall₂ {r : α → β → Prop} {s : α → α → Prop} {t : β → β → Prop}
    (hst : ∀ a a' b b', r a b → r a' b' → (s a a' ↔ t b b')) {as : List α} {bs : List β}
    (h : List.Forall₂ r as bs) : as.Pairwise s ↔ bs.Pairwise t := by
  have hlength := h.length_eq
  have hget : ∀ i (ha : i < as.length) (hb : i < bs.length), r as[i] bs[i] :=
    fun i ha hb => h.get ha hb
  rw [List.pairwise_iff_getElem, List.pairwise_iff_getElem]
  constructor
  · intro hs i j hi hj hij
    have hi' : i < as.length := hlength ▸ hi
    have hj' : j < as.length := hlength ▸ hj
    exact (hst _ _ _ _ (hget i hi' hi) (hget j hj' hj)).1 (hs i j hi' hj' hij)
  · intro ht i j hi hj hij
    have hi' : i < bs.length := hlength ▸ hi
    have hj' : j < bs.length := hlength ▸ hj
    exact (hst _ _ _ _ (hget i hi hi') (hget j hj hj')).2 (ht i j hi' hj' hij)

/-- Items that give the same results one by one give the same list of results. -/
theorem mapM_of_forall₂ {f : α → Except ε β} {r : α → α → Prop}
    (hr : ∀ a a' b, r a a' → f a = .ok b → f a' = .ok b) {as as' : List α} {bs : List β}
    (hsame : List.Forall₂ r as as') (h : as.mapM f = .ok bs) : as'.mapM f = .ok bs := by
  rw [mapM_eq_ok] at h ⊢
  induction hsame generalizing bs with
  | nil => exact h
  | cons ha _ ih =>
    obtain ⟨b, cs, hb, hcs, rfl⟩ := List.forall₂_cons_left_iff.1 h
    exact .cons (hr _ _ b ha hb) (ih hcs)

/-- Items that are computed alike one by one give the same list, and whatever else the computation
does. -/
theorem mapM_eq_of_forall₂ {m : Type → Type} [Monad m] [LawfulMonad m] {f : α → m β}
    {r : α → α → Prop} (hr : ∀ a a', r a a' → f a = f a') {as as' : List α}
    (hsame : List.Forall₂ r as as') : as.mapM f = as'.mapM f := by
  induction hsame with
  | nil => rfl
  | cons ha _ ih => rw [List.mapM_cons, List.mapM_cons, hr _ _ ha, ih]

theorem option_mapM_eq_of_rel {f : α → Except ε β} {r : α → α → Prop}
    (hr : ∀ a a', r a a' → f a = f a') {o o' : Option α} (hsame : Option.Rel r o o') :
    o.mapM f = o'.mapM f := by
  cases hsame with
  | none => rfl
  | some ha => rw [Option.mapM_some, Option.mapM_some, hr _ _ ha]

/-- Each result of a list is that of one of its items. -/
theorem exists_of_mem_mapM {f : α → Except ε β} {as : List α} {bs : List β}
    (h : as.mapM f = .ok bs) {b : β} (hb : b ∈ bs) : ∃ a ∈ as, f a = .ok b :=
  exists_of_mem_forall₂ (mapM_eq_ok.1 h) hb

/-- What holds of each result of a list holds when it holds of the result of each item. -/
theorem forall_mem_of_mapM {f : α → Except ε β} {as : List α} {bs : List β} {p : β → Prop}
    (h : as.mapM f = .ok bs) (hp : ∀ a ∈ as, ∀ b, f a = .ok b → p b) : ∀ b ∈ bs, p b := by
  intro b hb
  obtain ⟨a, ha, hresult⟩ := exists_of_mem_mapM h hb
  exact hp a ha b hresult

/-! ## § Lookups -/

/-- What is found under a key stands with it in the list. -/
theorem mem_of_lookup [BEq α] [LawfulBEq α] {es : List (α × β)} {a : α} {b : β}
    (h : es.lookup a = some b) : (a, b) ∈ es := by
  obtain ⟨before, after, rfl, -⟩ := List.lookup_eq_some_iff.1 h
  exact List.mem_append_right _ List.mem_cons_self

theorem lookup_eq_none [BEq α] [LawfulBEq α] {es : List (α × β)} {a : α}
    (h : ∀ e ∈ es, e.1 ≠ a) : es.lookup a = none := by
  rw [List.lookup_eq_none_iff]
  intro e he
  exact bne_iff_ne.2 (h e he).symm

/-! ## § Failures -/

/-- A computation fails when it does not succeed. -/
theorem exists_error_iff {x : Except ε α} : (∃ e, x = .error e) ↔ ¬ ∃ a, x = .ok a := by
  cases x with
  | error e => simp
  | ok a => simp

/-- Two steps fail when the first one does, or the second one on what the first one gives. -/
theorem bind_eq_error {x : Except ε α} {f : α → Except ε β} {e : ε} :
    (x >>= f) = .error e ↔ x = .error e ∨ ∃ a, x = .ok a ∧ f a = .error e := by
  cases x with
  | error e' => simp [bind, Except.bind]
  | ok a => simp [bind, Except.bind]

theorem mapError_eq_error {x : Except ε α} {f : ε → ε'} {e : ε'} :
    x.mapError f = .error e ↔ ∃ cause, x = .error cause ∧ f cause = e := by
  cases x with
  | error e' => simp [Except.mapError]
  | ok a => simp [Except.mapError]

/-- An optional item fails when it is there and does. -/
theorem option_mapM_eq_error {f : α → Except ε β} {o : Option α} {e : ε}
    (h : o.mapM f = .error e) : ∃ a ∈ o, f a = .error e := by
  cases o with
  | none => cases h
  | some a =>
    rcases bind_eq_error.1 (show (f a >>= fun b => pure (some b)) = .error e from h) with
      ha | ⟨b, -, hpure⟩
    · exact ⟨a, rfl, ha⟩
    · cases hpure

/-- The items of a list fail with the first of them that does. -/
theorem mapM_eq_error {f : α → Except ε β} {as : List α} {e : ε} :
    as.mapM f = .error e ↔ ∃ before a after, as = before ++ a :: after ∧
      (∀ x ∈ before, ∃ b, f x = .ok b) ∧ f a = .error e := by
  induction as with
  | nil =>
    rw [List.mapM_nil]
    refine iff_of_false (by simp [pure, Except.pure]) ?_
    rintro ⟨before, a, after, h, -⟩
    simp at h
  | cons a as ih =>
    rw [List.mapM_cons, bind_eq_error]
    constructor
    · rintro (ha | ⟨b, hb, hrest⟩)
      · exact ⟨[], a, as, rfl, by simp, ha⟩
      · rcases bind_eq_error.1 hrest with has | ⟨bs, -, hpure⟩
        · obtain ⟨before, c, after, rfl, hbefore, hc⟩ := ih.1 has
          exact ⟨a :: before, c, after, rfl, List.forall_mem_cons.2 ⟨⟨b, hb⟩, hbefore⟩, hc⟩
        · cases hpure
    · rintro ⟨before, c, after, h, hbefore, hc⟩
      cases before with
      | nil =>
        obtain ⟨rfl, -⟩ := List.cons.inj h
        exact .inl hc
      | cons x before =>
        obtain ⟨rfl, rfl⟩ := List.cons.inj h
        obtain ⟨⟨b, hb⟩, hbefore⟩ := List.forall_mem_cons.1 hbefore
        have hfail := ih.2 ⟨before, c, after, rfl, hbefore, hc⟩
        exact .inr ⟨b, hb, bind_eq_error.2 (.inl hfail)⟩

end RegisterMap.Outcome
