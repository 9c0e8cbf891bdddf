import RegisterMap.Proofs.Bits.Spread
import RegisterMap.Proofs.Header.Reading

/-!
# Values of expressions — what the tokens of an expression are worth

An expression has a value by its own tree. Its tokens have a value by how they are read, and that
needs no tree. Both are the same when every operand binds tight enough where it stands, and they
stay the same when other expressions take the places of names that stand alone in parentheses.

## § What is here

* `Expr.value` — the value by the tree;
* `Expr.subst` — other expressions in the places of names;
* `Expr.Ranked` — every operand binds tight enough, and parameters stand alone in parentheses;
* `phrase_tokens` — the tokens of such an expression are read as its tree;
* `value_subst`, `ranked_subst`, `tokens_subst` — what substitution does to each of these.
-/

namespace RegisterMap.Header

theorem Phrase.mono {rank rank' : Nat} {ts : List Token} {t : Term} (h : Phrase rank ts t)
    (hle : rank' ≤ rank) : Phrase rank' ts t := by
  cases h with
  | name => exact .name rank' _
  | number _ hn => exact .number rank' hn
  | paren _ hts => exact .paren rank' hts
  | complement hrank hts => exact .complement (Nat.le_trans hle hrank) hts
  | binary o hrank hts hus => exact .binary o (Nat.le_trans hle hrank) hts hus

namespace Expr

/-! ## § Values -/

mutual

/-- **value** — the natural number that an expression stands for, when its names have numbers. -/
def value (numbers : String → Option Nat) : Expr → Option Nat
  | name text => numbers text
  | decimal n => some n
  | hex n => some n
  | paren e => e.value numbers
  | complement _ => none
  | shiftLeft a b => Operator.shiftLeft.applyTo (a.value numbers) (b.value numbers)
  | shiftRight a b => Operator.shiftRight.applyTo (a.value numbers) (b.value numbers)
  | and a b => Operator.and.applyTo (a.value numbers) (b.value numbers)
  | or terms => (values numbers terms).map unionOf
  | assign _ _ => none
  | call _ _ _ => none
  | spaced e => e.value numbers
  | ownLine e => e.value numbers

/-- **values** — the numbers of some expressions. -/
def values (numbers : String → Option Nat) : List Expr → Option (List Nat)
  | [] => some []
  | e :: es => (e.value numbers).bind fun n => (values numbers es).map (n :: ·)

end

/-! ## § Rank -/

/-- **IsName** — a name and nothing more. -/
def IsName : Expr → Prop
  | name _ => True
  | _ => False

mutual

/-- **Ranked** — an expression that can stand where operators of a rank are expected: its operands
bind tight enough, and each of the parameters stands alone in parentheses. -/
def Ranked (params : List String) : Nat → Expr → Prop
  | _, name text => text ∉ params
  | _, decimal _ => True
  | _, hex _ => True
  | _, paren e => e.IsName ∨ e.Ranked params 0
  | rank, complement e => rank ≤ prefixRank ∧ e.Ranked params prefixRank
  | rank, shiftLeft a b =>
    rank ≤ Operator.shiftLeft.rank ∧ a.Ranked params Operator.shiftLeft.rank
      ∧ b.Ranked params (Operator.shiftLeft.rank + 1)
  | rank, shiftRight a b =>
    rank ≤ Operator.shiftRight.rank ∧ a.Ranked params Operator.shiftRight.rank
      ∧ b.Ranked params (Operator.shiftRight.rank + 1)
  | rank, and a b =>
    rank ≤ Operator.and.rank ∧ a.Ranked params Operator.and.rank
      ∧ b.Ranked params (Operator.and.rank + 1)
  | rank, or terms => rank ≤ Operator.or.rank ∧ terms ≠ [] ∧ RankedAll params terms
  | _, assign _ _ => False
  | _, call _ _ _ => False
  | rank, spaced e => e.Ranked params rank
  | rank, ownLine e => e.Ranked params rank

/-- **RankedAll** — expressions that can stand between `|`. -/
def RankedAll (params : List String) : List Expr → Prop
  | [] => True
  | e :: es => e.Ranked params (Operator.or.rank + 1) ∧ RankedAll params es

end

theorem ranked_name (text : String) (rank : Nat) : (name text).Ranked [] rank := List.not_mem_nil

/-! ## § Reading -/

theorem phrase_of_isName {e : Expr} (h : e.IsName) (rank : Nat) :
    ∃ t, Phrase rank e.tokens t ∧ ∀ numbers, t.value numbers = e.value numbers := by
  match e, h with
  | name text, _ => exact ⟨.name text, .name rank text, fun _ => rfl⟩

/-- Two phrases with an operator between them. -/
theorem phrase_binary {rank : Nat} (o : Operator) {a b : Expr}
    (ha : ∃ t, Phrase o.rank a.tokens t ∧ ∀ numbers, t.value numbers = a.value numbers)
    (hb : ∃ t, Phrase (o.rank + 1) b.tokens t ∧ ∀ numbers, t.value numbers = b.value numbers)
    (hrank : rank ≤ o.rank) :
    ∃ t, Phrase rank (a.tokens ++ .operator o :: b.tokens) t ∧
      ∀ numbers, t.value numbers = o.applyTo (a.value numbers) (b.value numbers) := by
  obtain ⟨s, hs, hsvalue⟩ := ha
  obtain ⟨t, ht, htvalue⟩ := hb
  refine ⟨.binary o s t, .binary o hrank hs ht, fun numbers => ?_⟩
  rw [Term.value, hsvalue, htvalue]

theorem tokensAll_cons (e : Expr) (es : List Expr) :
    tokensAll (e :: es) = e.tokens ++ es.flatMap fun f => .operator .or :: f.tokens := by
  induction es generalizing e with
  | nil => rw [tokensAll, List.flatMap_nil, List.append_nil]
  | cons f es ih => rw [tokensAll, ih, List.flatMap_cons, List.cons_append]

theorem value_or_cons (numbers : String → Option Nat) (e : Expr) (es : List Expr) :
    (or (e :: es)).value numbers
      = (e.value numbers).bind fun n => (values numbers es).map fun ns => ns.foldl (· ||| ·) n := by
  rw [value, values]
  cases e.value numbers with
  | none => rfl
  | some n =>
    simp only [Option.bind_some, Option.map_map]
    refine congrArg (Option.map · (values numbers es)) (funext fun ns => ?_)
    show (n :: ns).foldl (· ||| ·) 0 = _
    rw [List.foldl_cons, Nat.zero_or]

mutual

/-- The tokens of an expression are a phrase, and the term of that phrase has the value of the
expression. -/
theorem phrase_tokens {params : List String} : ∀ {rank : Nat} (e : Expr), e.Ranked params rank →
    ∃ t, Phrase rank e.tokens t ∧ ∀ numbers, t.value numbers = e.value numbers
  | rank, name text, _ => phrase_of_isName (e := name text) trivial rank
  | rank, decimal n, _ => ⟨.number n, .number rank (Text.readLiteral_decimal n), fun _ => rfl⟩
  | rank, hex n, _ => ⟨.number n, .number rank (Text.readLiteral_hex n), fun _ => rfl⟩
  | rank, paren e, h => by
    have hinner : ∃ t, Phrase 0 e.tokens t ∧ ∀ numbers, t.value numbers = e.value numbers := by
      rw [Ranked] at h
      rcases h with hname | hrank
      · exact phrase_of_isName hname 0
      · exact phrase_tokens e hrank
    obtain ⟨t, ht, hvalue⟩ := hinner
    exact ⟨t, .paren rank ht, hvalue⟩
  | rank, complement e, h => by
    rw [Ranked] at h
    obtain ⟨t, ht, -⟩ := phrase_tokens e h.2
    exact ⟨.complement t, .complement h.1 ht, fun _ => rfl⟩
  | rank, shiftLeft a b, h => by
    rw [Ranked] at h
    exact phrase_binary .shiftLeft (phrase_tokens a h.2.1)
      (phrase_tokens b h.2.2) h.1
  | rank, shiftRight a b, h => by
    rw [Ranked] at h
    exact phrase_binary .shiftRight (phrase_tokens a h.2.1)
      (phrase_tokens b h.2.2) h.1
  | rank, and a b, h => by
    rw [Ranked] at h
    exact phrase_binary .and (phrase_tokens a h.2.1) (phrase_tokens b h.2.2) h.1
  | rank, or [], h => by
    rw [Ranked] at h
    exact absurd rfl h.2.1
  | rank, or (e :: es), h => by
    rw [Ranked, RankedAll] at h
    obtain ⟨hrank, -, he, hes⟩ := h
    obtain ⟨t, ht, hvalue⟩ := phrase_tokens e he
    obtain ⟨u, hu, huvalue⟩ := phrase_tokensAll es hes (ht.mono (Nat.le_succ _))
    refine ⟨u, ?_, fun numbers => ?_⟩
    · rw [tokens, tokensAll_cons]
      exact hu.mono hrank
    · rw [huvalue, hvalue, value_or_cons]
  | rank, spaced e, h => by
    rw [Ranked] at h
    exact phrase_tokens e h
  | rank, ownLine e, h => by
    rw [Ranked] at h
    exact phrase_tokens e h

/-- A phrase and more terms after it are a phrase. The terms join it one by one from the left, and
`a` is what the ones before have become. -/
theorem phrase_tokensAll {params : List String} : ∀ (es : List Expr), RankedAll params es →
    ∀ {ts : List Token} {a : Term}, Phrase Operator.or.rank ts a →
    ∃ t, Phrase Operator.or.rank (ts ++ es.flatMap fun e => .operator .or :: e.tokens) t ∧
      ∀ numbers, t.value numbers
        = (a.value numbers).bind fun n => (values numbers es).map fun ns => ns.foldl (· ||| ·) n
  | [], _, ts, a, ha => by
    refine ⟨a, ?_, fun numbers => ?_⟩
    · rw [List.flatMap_nil, List.append_nil]
      exact ha
    · rw [values]
      cases a.value numbers with
      | none => rfl
      | some n => rfl
  | e :: es, h, ts, a, ha => by
    rw [RankedAll] at h
    obtain ⟨t, ht, hvalue⟩ := phrase_tokens e h.1
    obtain ⟨u, hu, huvalue⟩ := phrase_tokensAll es h.2 (.binary .or (Nat.le_refl _) ha ht)
    refine ⟨u, ?_, fun numbers => ?_⟩
    · rw [List.flatMap_cons, List.cons_append, ← List.cons_append, ← List.append_assoc]
      exact hu
    · rw [huvalue, Term.value, hvalue, values]
      cases a.value numbers with
      | none => rfl
      | some m =>
        cases e.value numbers with
        | none => rfl
        | some n =>
          simp only [Operator.applyTo_some, Option.bind_some, Option.map_map]
          rfl

end

/-- The tokens of an expression are read as a term with its value. -/
theorem value_read {e : Expr} (h : e.Ranked [] 0) (numbers : String → Option Nat) :
    ((read e.tokens).bind fun t => t.value numbers) = e.value numbers := by
  obtain ⟨t, ht, hvalue⟩ := e.phrase_tokens h
  rw [read_of_phrase ht, Option.bind_some, hvalue]

/-! ## § Substitution -/

mutual

/-- **subst** — an expression with other expressions in the places of names. -/
def subst (args : String → Option Expr) : Expr → Expr
  | name text => (args text).getD (name text)
  | decimal n => decimal n
  | hex n => hex n
  | paren e => paren (e.subst args)
  | complement e => complement (e.subst args)
  | shiftLeft a b => shiftLeft (a.subst args) (b.subst args)
  | shiftRight a b => shiftRight (a.subst args) (b.subst args)
  | and a b => and (a.subst args) (b.subst args)
  | or terms => or (substAll args terms)
  | assign target value => assign (target.subst args) (value.subst args)
  | call callee first second => call callee (first.subst args) (second.subst args)
  | spaced e => spaced (e.subst args)
  | ownLine e => ownLine (e.subst args)

/-- **substAll** — substitution in each of some expressions. -/
def substAll (args : String → Option Expr) : List Expr → List Expr
  | [] => []
  | e :: es => e.subst args :: substAll args es

end

end Expr

/-- **substitute** — tokens with other tokens in the places of names. -/
def substitute (args : String → Option (List Token)) (ts : List Token) : List Token :=
  ts.flatMap fun t =>
    match t with
    | .name text => (args text).getD [.name text]
    | t => [t]

theorem substitute_append (args : String → Option (List Token)) (ts us : List Token) :
    substitute args (ts ++ us) = substitute args ts ++ substitute args us :=
  List.flatMap_append

theorem substitute_between (args : String → Option (List Token)) (ts us : List Token)
    (o : Operator) : substitute args (ts ++ .operator o :: us)
      = substitute args ts ++ .operator o :: substitute args us := by
  rw [substitute_append]
  rfl

namespace Expr

mutual

/-- The value after a substitution is the value where the names have the numbers of what takes
their places. -/
theorem value_subst (numbers : String → Option Nat) (args : String → Option Expr) : ∀ e : Expr,
    (e.subst args).value numbers
      = e.value fun text => ((args text).map (value numbers)).getD (numbers text)
  | name text => by
    rw [subst, value]
    cases args text with
    | none => rfl
    | some a => rfl
  | decimal n => rfl
  | hex n => rfl
  | paren e => value_subst numbers args e
  | complement e => rfl
  | shiftLeft a b =>
    congrArg₂ Operator.shiftLeft.applyTo (value_subst numbers args a) (value_subst numbers args b)
  | shiftRight a b =>
    congrArg₂ Operator.shiftRight.applyTo (value_subst numbers args a) (value_subst numbers args b)
  | and a b =>
    congrArg₂ Operator.and.applyTo (value_subst numbers args a) (value_subst numbers args b)
  | or terms => congrArg (Option.map unionOf) (values_substAll numbers args terms)
  | assign target value => rfl
  | call callee first second => rfl
  | spaced e => value_subst numbers args e
  | ownLine e => value_subst numbers args e

theorem values_substAll (numbers : String → Option Nat) (args : String → Option Expr) :
    ∀ es : List Expr, values numbers (substAll args es)
      = values (fun text => ((args text).map (value numbers)).getD (numbers text)) es
  | [] => rfl
  | e :: es => by
    rw [substAll, values, values, value_subst numbers args e, values_substAll numbers args es]

end

section Parameters

variable {params : List String} {args : String → Option Expr}

mutual

/-- Expressions in the places of parameters leave every operand tight enough where it stands. -/
theorem ranked_subst (hother : ∀ text, text ∉ params → args text = none)
    (hargs : ∀ text a, args text = some a → a.Ranked [] 0) :
    ∀ {rank : Nat} (e : Expr), e.Ranked params rank → (e.subst args).Ranked [] rank
  | rank, name text, h => by
    rw [Ranked] at h
    rw [subst, hother text h]
    exact ranked_name text rank
  | rank, decimal n, _ => trivial
  | rank, hex n, _ => trivial
  | rank, paren e, h => by
    rw [Ranked] at h
    rw [subst, Ranked]
    rcases h with hname | hrank
    · match e, hname with
      | name text, _ =>
        rw [subst]
        cases harg : args text with
        | none => exact .inl trivial
        | some a => exact .inr (hargs text a harg)
    · exact .inr (ranked_subst hother hargs e hrank)
  | rank, complement e, h => by
    rw [Ranked] at h
    rw [subst, Ranked]
    exact ⟨h.1, ranked_subst hother hargs e h.2⟩
  | rank, shiftLeft a b, h => by
    rw [Ranked] at h
    rw [subst, Ranked]
    exact ⟨h.1, ranked_subst hother hargs a h.2.1, ranked_subst hother hargs b h.2.2⟩
  | rank, shiftRight a b, h => by
    rw [Ranked] at h
    rw [subst, Ranked]
    exact ⟨h.1, ranked_subst hother hargs a h.2.1, ranked_subst hother hargs b h.2.2⟩
  | rank, and a b, h => by
    rw [Ranked] at h
    rw [subst, Ranked]
    exact ⟨h.1, ranked_subst hother hargs a h.2.1, ranked_subst hother hargs b h.2.2⟩
  | rank, or [], h => by
    rw [Ranked] at h
    exact absurd rfl h.2.1
  | rank, or (e :: es), h => by
    rw [Ranked] at h
    rw [subst, Ranked]
    exact ⟨h.1, List.cons_ne_nil _ _, rankedAll_subst hother hargs (e :: es) h.2.2⟩
  | rank, spaced e, h => by
    rw [Ranked] at h
    rw [subst, Ranked]
    exact ranked_subst hother hargs e h
  | rank, ownLine e, h => by
    rw [Ranked] at h
    rw [subst, Ranked]
    exact ranked_subst hother hargs e h

theorem rankedAll_subst (hother : ∀ text, text ∉ params → args text = none)
    (hargs : ∀ text a, args text = some a → a.Ranked [] 0) :
    ∀ es : List Expr, RankedAll params es → RankedAll [] (substAll args es)
  | [], _ => trivial
  | e :: es, h => by
    rw [RankedAll] at h
    rw [substAll, RankedAll]
    exact ⟨ranked_subst hother hargs e h.1, rankedAll_subst hother hargs es h.2⟩

end

theorem tokens_subst_name (text : String) :
    ((name text).subst args).tokens
      = substitute (fun text => (args text).map tokens) (name text).tokens := by
  rw [subst, tokens]
  cases harg : args text with
  | none => simp [substitute, harg, tokens]
  | some a => simp [substitute, harg]

mutual

/-- Substitution in an expression is substitution in its tokens. -/
theorem tokens_subst : ∀ {rank : Nat} (e : Expr), e.Ranked params rank →
    (e.subst args).tokens = substitute (fun text => (args text).map tokens) e.tokens
  | rank, name text, _ => tokens_subst_name text
  | rank, decimal n, _ => rfl
  | rank, hex n, _ => rfl
  | rank, paren e, h => by
    have hinner : (e.subst args).tokens
        = substitute (fun text => (args text).map tokens) e.tokens := by
      rw [Ranked] at h
      rcases h with hname | hrank
      · match e, hname with
        | name text, _ => exact tokens_subst_name text
      · exact tokens_subst e hrank
    show Token.leftParen :: ((e.subst args).tokens ++ [.rightParen])
      = .leftParen :: substitute _ (e.tokens ++ [.rightParen])
    rw [hinner, substitute_append]
    rfl
  | rank, complement e, h => by
    rw [Ranked] at h
    show Token.complement :: (e.subst args).tokens = .complement :: substitute _ e.tokens
    rw [tokens_subst e h.2]
  | rank, shiftLeft a b, h => by
    rw [Ranked] at h
    rw [subst, tokens, tokens, substitute_between, tokens_subst a h.2.1, tokens_subst b h.2.2]
  | rank, shiftRight a b, h => by
    rw [Ranked] at h
    rw [subst, tokens, tokens, substitute_between, tokens_subst a h.2.1, tokens_subst b h.2.2]
  | rank, and a b, h => by
    rw [Ranked] at h
    rw [subst, tokens, tokens, substitute_between, tokens_subst a h.2.1, tokens_subst b h.2.2]
  | rank, or terms, h => by
    rw [Ranked] at h
    exact tokensAll_subst terms h.2.2
  | rank, spaced e, h => by
    rw [Ranked] at h
    exact tokens_subst e h
  | rank, ownLine e, h => by
    rw [Ranked] at h
    exact tokens_subst e h

theorem tokensAll_subst : ∀ es : List Expr, RankedAll params es →
    tokensAll (substAll args es) = substitute (fun text => (args text).map tokens) (tokensAll es)
  | [], _ => rfl
  | [e], h => by
    rw [RankedAll] at h
    exact tokens_subst e h.1
  | e :: f :: es, h => by
    rw [RankedAll] at h
    have hrest := tokensAll_subst (f :: es) h.2
    rw [substAll] at hrest
    rw [substAll, substAll, tokensAll, tokensAll, substitute_between, tokens_subst e h.1, hrest]

end

end Parameters

end Expr

end RegisterMap.Header
