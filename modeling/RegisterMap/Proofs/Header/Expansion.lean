import RegisterMap.Proofs.Header.Macro

/-!
# Expansion — what calls of macros give way to

A call of a macro gives way to its body, whatever comes behind it. With expressions as arguments,
what comes out is the body with these in the places of the parameters, which is an expression again;
so it stands for the value of that. A call whose name is declared as different macros is left over,
and then nothing is read.

## § What is here

* `meaning?_eq_some` — a name that is declared as one macro stands for it;
* `Expands`, `expands_callOf` — what tokens expand to, whatever comes behind them;
* `expandIn_once`, `expandIn_twice` — calls whose expansions have no more calls, or one more;
* `ranked_filled`, `instantiate_tokens` — the body of a macro with expressions as arguments;
* `expands_call`, `evaluate_call` — a call with expressions.
-/

namespace RegisterMap.Header

/-! ## § Meanings -/

section Meanings

variable {ds : List Declaration} {m n : Macro}

/-- A name that is declared as one macro stands for it. -/
theorem meaning?_eq_some (hm : m ∈ macros ds) (h : Agree ds m.name) :
    meaning? ds m.name = some m := by
  rw [meaning?, if_pos h]
  cases hfind : (macros ds).find? (·.name = m.name) with
  | none => exact absurd (List.find?_eq_none.1 hfind m hm) (by simp)
  | some n =>
    have hname : n.name = m.name := by simpa using List.find?_some hfind
    rw [h n (List.mem_of_find?_eq_some hfind) m hm hname rfl]

theorem meaning?_eq_none {name : String} (h : ¬ Agree ds name) : meaning? ds name = none :=
  if_neg h

theorem two_le_length_macros (hm : m ∈ macros ds) (hn : n ∈ macros ds) (hne : m ≠ n) :
    2 ≤ (macros ds).length := by
  match hms : macros ds with
  | [] => simp [hms] at hm
  | [a] =>
    rw [hms, List.mem_singleton] at hm hn
    exact absurd (hm.trans hn.symm) hne
  | a :: b :: ms => simp

theorem mem_macros {d : Declaration} (hd : d ∈ ds) (hm : Macro.ofDeclaration? d = some m) :
    m ∈ macros ds := List.mem_filterMap.2 ⟨d, hd, hm⟩

end Meanings

/-! ## § Expanding -/

/-- **Settled** — no name that is called stands for a macro. -/
def Settled (table : String → Option Macro) (ts : List Token) : Prop :=
  ∀ text ∈ calls ts, table text = none

theorem settled_of_calls {table : String → Option Macro} {ts : List Token} (h : calls ts = []) :
    Settled table ts := by
  intro text htext
  rw [h] at htext
  cases htext

/-- **Expands** — what some tokens expand to, whatever comes behind them but a parenthesis. -/
def Expands (table : String → Option Macro) (ts us : List Token) : Prop :=
  ∀ rest, rest.head? ≠ some .leftParen →
    expandCalls table (ts ++ rest) = (expandCalls table rest).map (us ++ ·)

theorem expandCalls_cons {table : String → Option Macro} {t : Token} {ts : List Token}
    (h : (called? t ts).bind table = none) :
    expandCalls table (t :: ts) = (expandCalls table ts).map (t :: ·) := by
  rw [expandCalls, h, Option.map_eq_bind]
  rfl

/-- At a call the macro takes what stands behind its name. -/
theorem expandCalls_callOf {table : String → Option Macro} {name : String} {m : Macro}
    (hm : table name = some m) (args : List (List Token)) (rest : List Token) :
    expandCalls table (callOf name args ++ rest)
      = (expandCalls table (.leftParen :: (separated args ++ [.rightParen]) ++ rest)).bind
          m.expandCall := by
  have hcalled : (called? (.name name)
      (.leftParen :: (separated args ++ [.rightParen]) ++ rest)).bind table = some m := hm
  rw [callOf, List.cons_append, expandCalls, hcalled]

namespace Expands

variable {table : String → Option Macro} {ts us ts' us' : List Token}

theorem append (hts : Expands table ts ts') (hus : Expands table us us')
    (hhead : us.head? ≠ some .leftParen) : Expands table (ts ++ us) (ts' ++ us') := by
  intro rest hrest
  have hbehind : (us ++ rest).head? ≠ some .leftParen := by
    cases us with
    | nil => exact hrest
    | cons u us => exact hhead
  rw [List.append_assoc, hts _ hbehind, hus rest hrest, Option.map_map]
  exact congrArg (Option.map · _) (funext fun a => (List.append_assoc ts' us' a).symm)

/-- A token that is no name stays. -/
theorem cons {t : Token} (ht : ∀ text, t ≠ .name text) (h : Expands table ts us) :
    Expands table (t :: ts) (t :: us) := by
  intro rest hrest
  have hnone : called? t (ts ++ rest) = none := by
    cases t with
    | name text => exact absurd rfl (ht text)
    | _ => rfl
  rw [List.cons_append, expandCalls_cons (by rw [hnone]; rfl), h rest hrest, Option.map_map]
  rfl

/-- Settled tokens stay. -/
theorem of_settled (h : Settled table ts) : Expands table ts ts := by
  induction ts with
  | nil =>
    intro rest hrest
    show _ = (expandCalls table rest).map fun us => us
    rw [Option.map_id', List.nil_append]
  | cons t ts ih =>
    intro rest hrest
    have htail : Settled table ts := fun text htext => h text (List.mem_append_right _ htext)
    have hnone : (called? t (ts ++ rest)).bind table = none := by
      rw [called?_append hrest, Option.bind_eq_none_iff]
      exact fun text htext => h text (List.mem_append_left _ (Option.mem_toList.2 htext))
    rw [List.cons_append, expandCalls_cons hnone, ih htail rest hrest, Option.map_map]
    rfl

theorem of_calls (h : calls ts = []) : Expands table ts ts := of_settled (settled_of_calls h)

theorem expandCalls_eq (h : Expands table ts us) : expandCalls table ts = some us := by
  have hrun := h [] (by simp)
  rw [List.append_nil] at hrun
  rw [hrun, expandCalls, Option.map_some, List.append_nil]

end Expands

section Calls

variable {table : String → Option Macro} {m : Macro}

/-- Between the parentheses the arguments are found, and the body is put together with them. -/
theorem Macro.expandCall_eq {args : List (List Token)} {body : List Token} (hne : args ≠ [])
    (hwhole : ∀ x ∈ args, Whole x) (hbody : m.instantiate args = some body)
    (rest : List Token) :
    m.expandCall (.leftParen :: (separated args ++ [.rightParen]) ++ rest)
      = some (body ++ rest) := by
  cases args with
  | nil => exact absurd rfl hne
  | cons a as =>
    have hfound : arguments 0 (separated (a :: as) ++ [.rightParen] ++ rest)
        = some ⟨a, as, rest⟩ := by
      rw [List.append_assoc]
      exact arguments_separated rest a as hwhole
    rw [expandCall, List.cons_append, List.tail_cons, hfound, Option.bind_some, hbody,
      Option.map_some]

/-- A call of a macro gives way to its body, with its arguments expanded before. -/
theorem expands_callOf {args args' : List (List Token)} {body : List Token}
    (hm : table m.name = some m) (hargs : Expands table (separated args) (separated args'))
    (hne : args' ≠ []) (hwhole : ∀ x ∈ args', Whole x) (hbody : m.instantiate args' = some body) :
    Expands table (callOf m.name args) body := by
  intro rest hrest
  have hclosed : Expands table (.leftParen :: (separated args ++ [.rightParen]))
      (.leftParen :: (separated args' ++ [.rightParen])) :=
    .cons (by simp) (hargs.append (.of_calls rfl) (by simp))
  rw [expandCalls_callOf hm, hclosed rest hrest]
  cases expandCalls table rest with
  | none => rfl
  | some rest' => exact m.expandCall_eq hne hwhole hbody rest'

end Calls

/-! ## § Expanding again -/

theorem expand_of_settled {table : String → Option Macro} {ts : List Token}
    (h : Settled table ts) (n : Nat) : expand table n ts = some ts := by
  induction n with
  | zero => rfl
  | succ n ih => rw [expand, (Expands.of_settled h).expandCalls_eq, Option.bind_some, ih]

section Declarations

variable {ds : List Declaration} {m n : Macro} {ts us vs : List Token}

theorem expandIn_settled (h : Settled (meaning? ds) ts) : expandIn ds ts = some ts :=
  expand_of_settled h _

/-- One expansion is enough when it leaves nothing to expand. -/
theorem expandIn_once (hm : m ∈ macros ds) (hts : Expands (meaning? ds) ts us)
    (hus : Settled (meaning? ds) us) : expandIn ds ts = some us := by
  obtain ⟨k, hk⟩ := Nat.exists_eq_add_one.2 (List.length_pos_of_mem hm)
  rw [expandIn, hk, expand, hts.expandCalls_eq, Option.bind_some, expand_of_settled hus]

/-- So are two, which there are for two macros. -/
theorem expandIn_twice (hm : m ∈ macros ds) (hn : n ∈ macros ds) (hne : m ≠ n)
    (hts : Expands (meaning? ds) ts us) (hus : Expands (meaning? ds) us vs)
    (hvs : Settled (meaning? ds) vs) : expandIn ds ts = some vs := by
  obtain ⟨k, hk⟩ := Nat.exists_eq_add_of_le' (two_le_length_macros hm hn hne)
  rw [expandIn, hk, expand, hts.expandCalls_eq, Option.bind_some, expand, hus.expandCalls_eq,
    Option.bind_some, expand_of_settled hvs]

theorem evaluate_of_expandIn (h : expandIn ds ts = some us) (numbers : String → Option Nat) :
    evaluate ds numbers ts = (read us).bind fun t => t.value numbers := by
  rw [evaluate, h, Option.bind_some]

/-- Where a call is left over, there is no number. -/
theorem evaluate_of_call (h : expandIn ds ts = some us) {text : String} (htext : text ∈ calls us)
    (numbers : String → Option Nat) : evaluate ds numbers ts = none := by
  rw [evaluate_of_expandIn h, read_eq_none htext, Option.bind_none]

end Declarations

/-! ## § Substitution -/

namespace Macro

theorem substitute_separated (args : String → Option (List Token)) :
    ∀ as : List (List Token), substitute args (separated as)
      = separated (as.map (substitute args))
  | [] => rfl
  | [a] => rfl
  | a :: b :: as => by
    have hrest := substitute_separated args (b :: as)
    rw [List.map_cons] at hrest
    rw [separated, substitute_append, List.map_cons, List.map_cons, separated, ← hrest]
    rfl

/-- Substitution in a use is substitution in its arguments. -/
theorem substitute_callOf {args : String → Option (List Token)} {callee : String}
    (h : args callee = none) (as : List (List Token)) :
    substitute args (callOf callee as) = callOf callee (as.map (substitute args)) := by
  show (args callee).getD _ ++ .leftParen :: substitute args (separated as ++ [.rightParen]) = _
  rw [h, substitute_append, substitute_separated]
  rfl

/-! ## § Expressions as arguments -/

theorem argument?_map {α β : Type} (f : α → β) (params : List String) (args : List α)
    (text : String) :
    argument? params (args.map f) text = (argument? params args text).map f := by
  induction params generalizing args with
  | nil => rfl
  | cons p ps ih =>
    cases args with
    | nil => rfl
    | cons a as =>
      have hrest := ih as
      simp only [argument?, List.map_cons, List.zip_cons_cons, List.lookup_cons] at hrest ⊢
      cases text == p with
      | false => exact hrest
      | true => rfl

theorem argument?_eq_none {α : Type} {params : List String} {args : List α} {text : String}
    (h : text ∉ params) : argument? params args text = none := by
  apply Outcome.lookup_eq_none
  rintro p hp rfl
  exact h (List.of_mem_zip hp).1

/-- Parameters that are all different have the arguments at their own places. -/
theorem argument?_of_mem_zip {α : Type} {params : List String} {args : List α} {text : String}
    {a : α} (hnodup : params.Nodup) (h : (text, a) ∈ params.zip args) :
    argument? params args text = some a := by
  induction params generalizing args with
  | nil => simp at h
  | cons p ps ih =>
    cases args with
    | nil => simp at h
    | cons b bs =>
      obtain ⟨hp, hps⟩ := List.nodup_cons.1 hnodup
      rw [argument?, List.zip_cons_cons, List.lookup_cons]
      rw [List.zip_cons_cons] at h
      rcases List.mem_cons.1 h with heq | hmem
      · obtain ⟨rfl, rfl⟩ := Prod.mk.inj heq
        simp
      · have hne : (text == p) = false := by
          refine beq_eq_false_iff_ne.2 fun e => hp ?_
          rw [← e]
          exact (List.of_mem_zip hmem).1
        simp only [hne]
        exact ih hps hmem

theorem mem_of_argument? {α : Type} {params : List String} {args : List α} {text : String} {a : α}
    (h : argument? params args text = some a) : a ∈ args :=
  (List.of_mem_zip (Outcome.mem_of_lookup h)).2

/-- A body keeps its rank with expressions in the places of its parameters. -/
theorem ranked_filled {params : List String} {args : List Expr} {body : Expr} {rank : Nat}
    (hbody : body.Ranked params rank) (hargs : ∀ a ∈ args, a.Ranked [] 0) :
    (body.subst (argument? params args)).Ranked [] rank :=
  Expr.ranked_subst (fun _ => argument?_eq_none) (fun _ a ha => hargs a (mem_of_argument? ha)) body
    hbody

/-- Expressions take the places of parameters as their tokens do. -/
theorem substitute_tokens {params : List String} {body : Expr} {rank : Nat}
    (hbody : body.Ranked params rank) (args : List Expr) :
    substitute (argument? params (args.map Expr.tokens)) body.tokens
      = (body.subst (argument? params args)).tokens := by
  rw [Expr.tokens_subst body hbody]
  exact congrArg (substitute · _) (funext fun text => argument?_map _ params args text)

/-- The body of a macro with expressions as arguments is the expression with these in the places of
the parameters. -/
theorem instantiate_tokens {name : String} {params : List String} {body : Expr} {args : List Expr}
    {rank : Nat} (hnodup : params.Nodup) (hlength : params.length = args.length)
    (hbody : body.Ranked params rank) :
    instantiate ⟨name, params, body.tokens⟩ (args.map Expr.tokens)
      = some (body.subst (argument? params args)).tokens := by
  rw [instantiate, if_pos ⟨hnodup, by rw [List.length_map]; exact hlength⟩,
    substitute_tokens hbody]

end Macro

/-! ## § Calls with expressions -/

section Expressions

variable {ds : List Declaration} {name : String} {params : List String} {body : Expr}
  {args : List Expr} {rank : Nat}

theorem ranked_variable (text : String) : ∀ e ∈ [Expr.name text], e.Ranked [] 0 :=
  List.forall_mem_singleton.2 (Expr.ranked_name text 0)

/-- Whatever a variable is called, it is an argument as another expression is. -/
theorem ranked_operands (text : String) {e : Expr} (he : e.Ranked [] 0) :
    ∀ a ∈ [.name text, e], a.Ranked [] 0 :=
  List.forall_mem_cons.2 ⟨Expr.ranked_name text 0, List.forall_mem_singleton.2 he⟩

theorem whole_and_calls (hargs : ∀ a ∈ args, a.Ranked [] 0) :
    ∀ x ∈ args.map Expr.tokens, Whole x ∧ calls x = [] :=
  List.forall_mem_map.2 fun a ha => ⟨a.whole_tokens, Expr.calls_tokens (hargs a ha)⟩

/-- A call stays when its name is declared as different macros. -/
theorem settled_callOf (hagree : ¬ Agree ds name) (hargs : ∀ a ∈ args, a.Ranked [] 0) :
    Settled (meaning? ds) (callOf name (args.map Expr.tokens)) := by
  intro text htext
  rw [calls_callOf name fun x hx => (whole_and_calls hargs x hx).2, List.mem_singleton] at htext
  rw [htext, meaning?_eq_none hagree]

/-- A call gives way to the body with the expressions in it. -/
theorem expands_call (hm : ⟨name, params, body.tokens⟩ ∈ macros ds) (hagree : Agree ds name)
    (hnodup : params.Nodup) (hlength : params.length = args.length) (hne : args ≠ [])
    (hbody : body.Ranked params rank) (hargs : ∀ a ∈ args, a.Ranked [] 0) :
    Expands (meaning? ds) (callOf name (args.map Expr.tokens))
      (body.subst (Macro.argument? params args)).tokens := by
  have hcalls : calls (separated (args.map Expr.tokens)) = [] :=
    calls_separated fun x hx => (whole_and_calls hargs x hx).2
  exact expands_callOf (m := ⟨name, params, body.tokens⟩) (meaning?_eq_some hm hagree)
    (.of_calls hcalls) (mt List.map_eq_nil_iff.1 hne) (fun x hx => (whole_and_calls hargs x hx).1)
    (Macro.instantiate_tokens hnodup hlength hbody)

/-- It stands for the value of that, and for nothing when its name is declared as different
macros. -/
theorem evaluate_call (hm : ⟨name, params, body.tokens⟩ ∈ macros ds) (hnodup : params.Nodup)
    (hlength : params.length = args.length) (hne : args ≠ []) (hbody : body.Ranked params 0)
    (hargs : ∀ a ∈ args, a.Ranked [] 0) (numbers : String → Option Nat) :
    evaluate ds numbers (callOf name (args.map Expr.tokens)) = if Agree ds name then
        (body.subst (Macro.argument? params args)).value numbers
      else none := by
  have hfilled := Macro.ranked_filled hbody hargs
  split
  · rename_i hagree
    have hexpand := expandIn_once hm (expands_call hm hagree hnodup hlength hne hbody hargs)
      (settled_of_calls (Expr.calls_tokens hfilled))
    rw [evaluate_of_expandIn hexpand, Expr.value_read hfilled]
  · rename_i hagree
    exact evaluate_of_call (expandIn_settled (settled_callOf hagree hargs)) (mem_calls [] name _)
      numbers

end Expressions

end RegisterMap.Header
