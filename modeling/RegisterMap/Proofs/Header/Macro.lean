import RegisterMap.Proofs.Header.Value

/-!
# Macros — names that stand for tokens

A name with an opening parenthesis right behind it is a call. If it is declared as a macro, the call
gives way to the body of the macro with the arguments in the places of the parameters; commas
outside of inner parentheses part the arguments. Arguments are expanded before they take their
places, and what comes out is expanded again, as often as there are macros.

A name that is declared as two different macros stands for none, so its calls stay, and nothing that
has a call in it is read. A macro whose parameters are not all different, and a call with too few or
too many arguments, have no expansion.

## § What is here

* `arguments` — the arguments of a call;
* `Macro`, `Agree`, `meaning?` — macros, and which of them a name stands for;
* `expandCalls`, `expand`, `evaluate` — their expansion, and the number that tokens stand for;
* `Whole`, `Expr.whole_tokens` — the tokens of an expression stay together in an argument;
* `arguments_separated` — the arguments of a call are found again;
* `calls`, `calls_of_read`, `Expr.calls_tokens` — what is read has no calls, and no expression has.
-/

namespace RegisterMap.Header

/-! ## § Arguments -/

/-- **Arguments** — the arguments up to a closing parenthesis, and the tokens behind it. -/
structure Arguments where
  first : List Token
  others : List (List Token)
  rest : List Token
  deriving DecidableEq, Repr

namespace Arguments

/-- **attach** — more tokens in front of the first argument. -/
def attach (ts : List Token) (a : Arguments) : Arguments := { a with first := ts ++ a.first }

/-- **part** — an empty argument before all others. -/
def part (a : Arguments) : Arguments := ⟨[], a.first :: a.others, a.rest⟩

theorem attach_attach (ts us : List Token) (a : Arguments) :
    (a.attach us).attach ts = a.attach (ts ++ us) := by
  simp only [attach, List.append_assoc]

end Arguments

/-- **depthAfter** — how many parentheses are open after a token. -/
def depthAfter (depth : Nat) : Token → Nat
  | .leftParen => depth + 1
  | .rightParen => depth - 1
  | _ => depth

/-- **arguments** — the arguments from a place inside so many inner parentheses on. -/
def arguments (depth : Nat) : List Token → Option Arguments
  | [] => none
  | t :: ts =>
    if depth = 0 ∧ t = .rightParen then some ⟨[], [], ts⟩
    else if depth = 0 ∧ t = .comma then (arguments 0 ts).map Arguments.part
    else (arguments (depthAfter depth t) ts).map (Arguments.attach [t])

/-- **callOf** — a macro with arguments. -/
def callOf (name : String) (args : List (List Token)) : List Token :=
  .name name :: .leftParen :: (separated args ++ [.rightParen])

/-- **numerals** — numbers as arguments. -/
def numerals (values : List Nat) : List (List Token) := (values.map Expr.decimal).map Expr.tokens

/-! ## § Macros -/

/-- **Macro** — a name with parameters that stands for tokens. -/
structure Macro where
  name : String
  params : List String
  body : List Token
  deriving DecidableEq, Repr

namespace Macro

/-- **ofDeclaration?** — the macro that is declared. -/
def ofDeclaration? : Declaration → Option Macro
  | .define name params body => some ⟨name, params, body.tokens⟩
  | _ => none

/-- **argument?** — what takes the place of a name. -/
def argument? {α : Type} (params : List String) (args : List α) (text : String) : Option α :=
  (params.zip args).lookup text

/-- **instantiate** — the body with arguments in the places of the parameters. -/
def instantiate (m : Macro) (args : List (List Token)) : Option (List Token) :=
  if m.params.Nodup ∧ m.params.length = args.length then
    some (substitute (argument? m.params args) m.body)
  else none

end Macro

/-- **macros** — the macros that are declared. -/
def macros (ds : List Declaration) : List Macro := ds.filterMap Macro.ofDeclaration?

/-- **Agree** — a name is declared as one macro only, if as any. -/
def Agree (ds : List Declaration) (name : String) : Prop :=
  ∀ m ∈ macros ds, ∀ n ∈ macros ds, m.name = name → n.name = name → m = n

instance (ds : List Declaration) (name : String) : Decidable (Agree ds name) :=
  inferInstanceAs (Decidable (∀ m ∈ macros ds, ∀ n ∈ macros ds, m.name = name → n.name = name →
    m = n))

/-- **meaning?** — the macro that a name stands for. -/
def meaning? (ds : List Declaration) (name : String) : Option Macro :=
  if Agree ds name then (macros ds).find? (·.name = name) else none

/-! ## § Expansion -/

/-- **called?** — the name that is called where a token stands, by what is behind it. -/
def called? : Token → List Token → Option String
  | .name text, .leftParen :: _ => some text
  | _, _ => none

/-- **expandCall** — the body of a macro, given what stands behind its name. -/
def Macro.expandCall (m : Macro) (behind : List Token) : Option (List Token) :=
  (arguments 0 behind.tail).bind fun a =>
    (m.instantiate (a.first :: a.others)).map fun body => body ++ a.rest

/-- **expandCalls** — tokens with the calls of macros expanded, the last one first. So arguments are
expanded before they take their places. -/
def expandCalls (table : String → Option Macro) : List Token → Option (List Token)
  | [] => some []
  | t :: ts => (expandCalls table ts).bind fun behind =>
    match (called? t ts).bind table with
    | some m => m.expandCall behind
    | none => some (t :: behind)

/-- **expand** — tokens expanded so many times over. -/
def expand (table : String → Option Macro) : Nat → List Token → Option (List Token)
  | 0, ts => some ts
  | n + 1, ts => (expandCalls table ts).bind (expand table n)

/-- **expandIn** — tokens expanded by the macros of some declarations. A call can bring calls of
other macros with it, so the macros are expanded as often as there are some. -/
def expandIn (ds : List Declaration) (ts : List Token) : Option (List Token) :=
  expand (meaning? ds) (macros ds).length ts

/-- **evaluate** — the natural number that tokens stand for among some declarations, when names
have numbers. -/
def evaluate (ds : List Declaration) (numbers : String → Option Nat) (ts : List Token) :
    Option Nat :=
  (expandIn ds ts).bind fun us => (read us).bind fun t => t.value numbers

/-! ## § Tokens that stay together -/

/-- **Inside** — tokens that belong to one argument when a parenthesis is open before them. -/
def Inside (ts : List Token) : Prop :=
  ∀ depth rest, arguments (depth + 1) (ts ++ rest)
    = (arguments (depth + 1) rest).map (Arguments.attach ts)

/-- **Whole** — tokens that belong to one argument. -/
def Whole (ts : List Token) : Prop :=
  ∀ depth rest, arguments depth (ts ++ rest) = (arguments depth rest).map (Arguments.attach ts)

namespace Whole

theorem inside {ts : List Token} (h : Whole ts) : Inside ts := fun depth rest => h (depth + 1) rest

theorem nil : Whole [] := by
  intro depth rest
  show _ = (arguments depth rest).map fun a => a
  rw [Option.map_id', List.nil_append]

theorem append {ts us : List Token} (hts : Whole ts) (hus : Whole us) : Whole (ts ++ us) := by
  intro depth rest
  rw [List.append_assoc, hts, hus, Option.map_map]
  exact congrArg (Option.map · _) (funext fun a => Arguments.attach_attach ts us a)

/-- A token that is no parenthesis and no comma. -/
theorem single {t : Token} (hleft : t ≠ .leftParen) (hright : t ≠ .rightParen)
    (hcomma : t ≠ .comma) : Whole [t] := by
  intro depth rest
  have hdepth : depthAfter depth t = depth := by
    cases t <;> first | rfl | contradiction
  rw [List.singleton_append, arguments, if_neg fun h => hright h.2, if_neg fun h => hcomma h.2,
    hdepth]

theorem cons {t : Token} {ts : List Token} (hleft : t ≠ .leftParen) (hright : t ≠ .rightParen)
    (hcomma : t ≠ .comma) (hts : Whole ts) : Whole (t :: ts) :=
  (single hleft hright hcomma).append hts

end Whole

namespace Inside

theorem append {ts us : List Token} (hts : Inside ts) (hus : Inside us) : Inside (ts ++ us) := by
  intro depth rest
  rw [List.append_assoc, hts, hus, Option.map_map]
  exact congrArg (Option.map · _) (funext fun a => Arguments.attach_attach ts us a)

theorem comma : Inside [.comma] := by
  intro depth rest
  rw [List.singleton_append, arguments, if_neg fun h => absurd h.1 (Nat.succ_ne_zero depth),
    if_neg fun h => absurd h.1 (Nat.succ_ne_zero depth)]
  rfl

/-- What is inside of parentheses stays together with them. -/
theorem paren {ts : List Token} (h : Inside ts) : Whole (.leftParen :: (ts ++ [.rightParen])) := by
  intro depth rest
  have hclose : arguments (depth + 1) (.rightParen :: rest)
      = (arguments depth rest).map (Arguments.attach [.rightParen]) := by
    rw [arguments, if_neg fun h => absurd h.1 (Nat.succ_ne_zero depth),
      if_neg fun h => absurd h.1 (Nat.succ_ne_zero depth)]
    rfl
  -- One step deeper for the opening one, then what is inside, then back at the closing one.
  have hinner : (ts ++ [Token.rightParen]) ++ rest = ts ++ .rightParen :: rest := by simp
  rw [List.cons_append, hinner, arguments, if_neg (by simp), if_neg (by simp)]
  show (arguments (depth + 1) (ts ++ .rightParen :: rest)).map _ = _
  rw [h, hclose, Option.map_map, Option.map_map]
  refine congrArg (Option.map · _) (funext fun a => ?_)
  simp only [Function.comp_apply, Arguments.attach_attach, List.singleton_append]

end Inside

theorem whole_between {ts us : List Token} {t : Token} (hts : Whole ts) (hus : Whole us)
    (hleft : t ≠ .leftParen) (hright : t ≠ .rightParen) (hcomma : t ≠ .comma) :
    Whole (ts ++ t :: us) := hts.append (.cons hleft hright hcomma hus)

/-- Commas do not part anything once a parenthesis is open around them. -/
theorem inside_separated : ∀ args : List (List Token), (∀ a ∈ args, Whole a) →
    Inside (separated args)
  | [], _ => Whole.nil.inside
  | [a], h => (h a List.mem_cons_self).inside
  | a :: b :: as, h => by
    have hrest := inside_separated (b :: as) fun x hx => h x (List.mem_cons_of_mem _ hx)
    exact (h a List.mem_cons_self).inside.append (Inside.comma.append hrest)

/-- A use of a macro is one argument when its arguments are. -/
theorem whole_callOf (name : String) {args : List (List Token)} (h : ∀ a ∈ args, Whole a) :
    Whole (callOf name args) :=
  .cons (by simp) (by simp) (by simp) (inside_separated args h).paren

namespace Expr

mutual

/-- The tokens of an expression stay together. -/
theorem whole_tokens : ∀ e : Expr, Whole e.tokens
  | name text => .single (by simp) (by simp) (by simp)
  | decimal n => .single (by simp) (by simp) (by simp)
  | hex n => .single (by simp) (by simp) (by simp)
  | paren e => (whole_tokens e).inside.paren
  | complement e => .cons (by simp) (by simp) (by simp) (whole_tokens e)
  | shiftLeft a b =>
    whole_between (whole_tokens a) (whole_tokens b) (by simp) (by simp) (by simp)
  | shiftRight a b =>
    whole_between (whole_tokens a) (whole_tokens b) (by simp) (by simp) (by simp)
  | and a b => whole_between (whole_tokens a) (whole_tokens b) (by simp) (by simp) (by simp)
  | or terms => whole_tokensAll terms
  | assign target value =>
    whole_between (whole_tokens target) (whole_tokens value) (by simp) (by simp) (by simp)
  | call callee first second => by
    have hargs : ∀ a ∈ [first.tokens, second.tokens], Whole a := by
      intro a ha
      rcases List.mem_cons.1 ha with rfl | ha
      · exact whole_tokens first
      · rw [List.mem_singleton.1 ha]
        exact whole_tokens second
    have hall := whole_callOf callee hargs
    have htokens : (call callee first second).tokens
        = callOf callee [first.tokens, second.tokens] := by
      simp [tokens, callOf, separated]
    rw [htokens]
    exact hall
  | spaced e => whole_tokens e
  | ownLine e => whole_tokens e

theorem whole_tokensAll : ∀ es : List Expr, Whole (tokensAll es)
  | [] => .nil
  | [e] => whole_tokens e
  | e :: f :: es =>
    whole_between (whole_tokens e) (whole_tokensAll (f :: es)) (by simp) (by simp) (by simp)

end

end Expr

theorem whole_numerals {values : List Nat} : ∀ x ∈ numerals values, Whole x := by
  intro x hx
  obtain ⟨e, -, rfl⟩ := List.mem_map.1 hx
  exact e.whole_tokens

/-- The arguments of a use are found again. -/
theorem arguments_separated (rest : List Token) : ∀ (a : List Token) (as : List (List Token)),
    (∀ x ∈ a :: as, Whole x) →
      arguments 0 (separated (a :: as) ++ .rightParen :: rest) = some ⟨a, as, rest⟩
  | a, [], h => by
    rw [separated, h a List.mem_cons_self, arguments, if_pos ⟨rfl, rfl⟩, Option.map_some,
      Arguments.attach, List.append_nil]
  | a, b :: as, h => by
    have hrest := arguments_separated rest b as fun x hx => h x (List.mem_cons_of_mem _ hx)
    rw [separated, List.append_assoc, h a List.mem_cons_self, List.cons_append, arguments,
      if_neg (by simp), if_pos ⟨rfl, rfl⟩, hrest]
    simp only [Option.map_some, Arguments.attach, Arguments.part, List.append_nil]

/-! ## § Calls -/

/-- **calls** — the names that are called in some tokens. -/
def calls : List Token → List String
  | [] => []
  | t :: ts => (called? t ts).toList ++ calls ts

theorem called?_append {t : Token} {ts rest : List Token} (h : rest.head? ≠ some .leftParen) :
    called? t (ts ++ rest) = called? t ts := by
  cases ts with
  | cons u us =>
    cases t with
    | name text => cases u <;> rfl
    | _ => rfl
  | nil =>
    cases t with
    | name text =>
      cases rest with
      | nil => rfl
      | cons u us =>
        cases u with
        | leftParen => exact absurd rfl h
        | _ => rfl
    | _ => rfl

/-- A call does not reach beyond tokens that no parenthesis stands behind. -/
theorem calls_append {ts us : List Token} (h : us.head? ≠ some .leftParen) :
    calls (ts ++ us) = calls ts ++ calls us := by
  induction ts with
  | nil => rfl
  | cons t ts ih => rw [List.cons_append, calls, calls, called?_append h, ih, List.append_assoc]

/-- A name in front of a parenthesis is called. -/
theorem mem_calls (front : List Token) (text : String) (back : List Token) :
    text ∈ calls (front ++ .name text :: .leftParen :: back) := by
  induction front with
  | nil => exact List.mem_cons_self
  | cons t front ih => exact List.mem_append_right _ ih

theorem calls_separated : ∀ {args : List (List Token)}, (∀ a ∈ args, calls a = []) →
    calls (separated args) = []
  | [], _ => rfl
  | [a], h => h a List.mem_cons_self
  | a :: b :: as, h => by
    have hrest : calls (separated (b :: as)) = [] :=
      calls_separated fun x hx => h x (List.mem_cons_of_mem _ hx)
    rw [separated, calls_append (by simp), h a List.mem_cons_self]
    exact hrest

/-- Without calls in its arguments, a call is the only one. -/
theorem calls_callOf (name : String) {args : List (List Token)} (h : ∀ a ∈ args, calls a = []) :
    calls (callOf name args) = [name] := by
  show name :: calls (separated args ++ [.rightParen]) = _
  rw [calls_append (by simp), calls_separated h]
  rfl

theorem calls_of_phrase {rank : Nat} {ts : List Token} {t : Term} (h : Phrase rank ts t) :
    calls ts = [] := by
  induction h with
  | name => rfl
  | number => rfl
  | paren rank hts ih =>
    show calls (_ ++ [.rightParen]) = []
    rw [calls_append (by simp), ih]
    rfl
  | complement hle hts ih => exact ih
  | binary o hle hts hus iha ihb =>
    rw [calls_append (by simp), iha]
    exact ihb

/-- The tokens of an expression have no calls. -/
theorem Expr.calls_tokens {params : List String} {rank : Nat} {e : Expr}
    (h : e.Ranked params rank) : calls e.tokens = [] := by
  obtain ⟨t, ht, -⟩ := e.phrase_tokens h
  exact calls_of_phrase ht

theorem calls_numerals {values : List Nat} : ∀ x ∈ numerals values, calls x = [] := by
  intro x hx
  obtain ⟨e, he, rfl⟩ := List.mem_map.1 hx
  obtain ⟨v, -, rfl⟩ := List.mem_map.1 he
  rfl

theorem calls_of_run {r r' : Reader} {ts : List Token} (h : r.run ts = some r') :
    calls ts = [] := by
  induction ts generalizing r with
  | nil => rfl
  | cons t ts ih =>
    rw [Reader.run_cons, Option.bind_eq_some_iff] at h
    obtain ⟨r₁, hstep, hrun⟩ := h
    have hnone : called? t ts = none := by
      cases t with
      | name text =>
        cases ts with
        | nil => rfl
        | cons u us =>
          cases u with
          | leftParen =>
            -- Behind a name there is an operand, and no parenthesis opens there.
            cases hr : r.operand with
            | none =>
              simp only [Reader.step, hr, Option.some.injEq] at hstep
              subst hstep
              rw [Reader.run_cons] at hrun
              cases hrun
            | some a => simp [Reader.step, hr] at hstep
          | _ => rfl
      | _ => rfl
    rw [calls, hnone, ih hrun]
    rfl

/-- What is read has no calls. -/
theorem calls_of_read {ts : List Token} {t : Term} (h : read ts = some t) : calls ts = [] := by
  obtain ⟨r, hrun, -⟩ := Option.bind_eq_some_iff.1 h
  exact calls_of_run hrun

theorem read_eq_none {ts : List Token} {text : String} (h : text ∈ calls ts) : read ts = none := by
  cases hread : read ts with
  | none => rfl
  | some t =>
    rw [calls_of_read hread] at h
    cases h

end RegisterMap.Header
