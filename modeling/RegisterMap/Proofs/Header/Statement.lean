import Mathlib.Data.Int.Bitwise
import RegisterMap.Proofs.Header.Expansion

/-!
# Statements — macros that change a variable

The macro that changes a field is an assignment. Its value is no natural number term by term: to
clear the bits of the field it takes the complement of a mask, which is a negative number. So terms
get values among all integers here, with as many bits as they need and the complement taken bit by
bit; on terms without a complement these are the natural numbers from before. An assignment gives
its variable the value of its term, and all other names keep their numbers.

## § What is here

* `Memory`, `Term.integer` — numbers of names, and integers of terms;
* `integer_of_value`, `integer_tokens` — the natural number of a term is its integer;
* `evaluateIn`, `execute` — what tokens are worth, and what an assignment makes of the numbers;
* `evaluateIn_of_expandIn`, `execute_of_expandIn` — both by what the macros expand to.
-/

namespace RegisterMap.Header

/-! ## § Integers -/

/-- **Memory** — the integers of names. -/
def Memory := String → Option Int

namespace Memory

/-- **assign** — a name gets an integer, and all others keep theirs. -/
def assign (m : Memory) (name : String) (z : Int) : Memory :=
  fun text => if text = name then some z else m text

/-- **numbers** — the natural numbers among the integers of names. -/
def numbers (m : Memory) (text : String) : Option Nat := (m text).bind Int.toNat?

variable {m : Memory} {name other : String} {y z : Int}

theorem assign_self : m.assign name z name = some z := if_pos rfl

theorem assign_of_ne (h : other ≠ name) : m.assign name z other = m other := if_neg h

theorem assign_assign : (m.assign name y).assign name z = m.assign name z := by
  funext text
  by_cases h : text = name
  · rw [h, assign_self, assign_self]
  · rw [assign_of_ne h, assign_of_ne h, assign_of_ne h]

theorem assign_eq_self (h : m name = some z) : m.assign name z = m := by
  funext text
  by_cases hname : text = name
  · rw [hname, assign_self, h]
  · exact assign_of_ne hname

theorem numbers_eq_some {n : Nat} : m.numbers other = some n ↔ m other = some (n : Int) := by
  rw [numbers, Option.bind_eq_some_iff]
  refine ⟨fun ⟨z, hz, hn⟩ => ?_, fun h => ⟨n, h, Int.mem_toNat?.2 rfl⟩⟩
  rw [hz, Int.mem_toNat?.1 hn]

end Memory

/-- **applyInt** — an operator on integers. A shift by a negative number has no value. -/
def Operator.applyInt : Operator → Int → Int → Option Int
  | or, a, b => some (a.lor b)
  | and, a, b => some (a.land b)
  | shiftLeft, a, .ofNat n => some (a <<< n)
  | shiftRight, a, .ofNat n => some (a >>> n)
  | _, _, .negSucc _ => none

/-- **integer** — the integer that a term stands for. -/
def Term.integer (m : Memory) : Term → Option Int
  | name text => m text
  | number n => some n
  | complement t => (t.integer m).map Int.lnot
  | binary o a b => (a.integer m).bind fun x => (b.integer m).bind (o.applyInt x)

theorem Operator.applyInt_ofNat (o : Operator) (a b : Nat) :
    o.applyInt a b = some (o.apply a b : Nat) := by
  cases o with
  | or => rfl
  | and => rfl
  | shiftLeft => rfl
  | shiftRight => rfl

/-- The natural number of a term is its integer, too. -/
theorem Term.integer_of_value {m : Memory} {t : Term} {n : Nat}
    (h : t.value m.numbers = some n) : t.integer m = some (n : Int) := by
  induction t generalizing n with
  | name text => exact Memory.numbers_eq_some.1 h
  | number k =>
    obtain rfl := Option.some.inj h
    rfl
  | complement t => cases h
  | binary o a b iha ihb =>
    obtain ⟨x, hx, hrest⟩ := Option.bind_eq_some_iff.1 h
    obtain ⟨y, hy, rfl⟩ := Option.map_eq_some_iff.1 hrest
    rw [integer, iha hx, ihb hy]
    exact o.applyInt_ofNat x y

/-- Without macros, tokens of an expression stand for its value among all integers, too. -/
theorem integer_tokens {e : Expr} {m : Memory} {n : Nat} (he : e.Ranked [] 0)
    (hv : e.value m.numbers = some n) :
    ((read e.tokens).bind fun t => t.integer m) = some (n : Int) := by
  obtain ⟨t, ht, hvalue⟩ := Expr.phrase_tokens e he
  rw [read_of_phrase ht, Option.bind_some]
  exact Term.integer_of_value (by rw [hvalue, hv])

/-! ## § Assignments -/

/-- **assignment?** — the variable and the term of an assignment. -/
def assignment? (ts : List Token) : Option (String × Term) :=
  match ts.dropWhile (· ≠ .assign) with
  | [] => none
  | _ :: value =>
    match read (ts.takeWhile (· ≠ .assign)) with
    | some (.name x) => (read value).map (x, ·)
    | _ => none

/-- **evaluateIn** — the integer that tokens stand for among some declarations. -/
def evaluateIn (ds : List Declaration) (m : Memory) (ts : List Token) : Option Int :=
  (expandIn ds ts).bind fun us => (read us).bind fun t => t.integer m

/-- **execute** — the numbers after the assignment that tokens are among some declarations. -/
def execute (ds : List Declaration) (m : Memory) (ts : List Token) : Option Memory :=
  (expandIn ds ts).bind fun us => (assignment? us).bind fun a =>
    (a.2.integer m).map (m.assign a.1)

variable {ds : List Declaration} {ts us : List Token} {m : Memory}

theorem evaluateIn_of_expandIn (h : expandIn ds ts = some us) :
    evaluateIn ds m ts = (read us).bind fun t => t.integer m := by
  rw [evaluateIn, h, Option.bind_some]

/-- Where a call is left over, there is no integer. -/
theorem evaluateIn_of_call (h : expandIn ds ts = some us) {text : String}
    (htext : text ∈ calls us) : evaluateIn ds m ts = none := by
  rw [evaluateIn_of_expandIn h, read_eq_none htext, Option.bind_none]

theorem execute_of_expandIn (h : expandIn ds ts = some us) :
    execute ds m ts = (assignment? us).bind fun a => (a.2.integer m).map (m.assign a.1) := by
  rw [execute, h, Option.bind_some]

/-- An assignment to a variable in parentheses. -/
theorem assignment?_eq (x : String) {value : List Token} {t : Term} (h : read value = some t) :
    assignment? (.leftParen :: .name x :: .rightParen :: .assign :: value) = some (x, t) := by
  have htarget : read [.leftParen, .name x, .rightParen] = some (.name x) := rfl
  have hbefore : (Token.leftParen :: .name x :: .rightParen :: .assign :: value).takeWhile
      (· ≠ .assign) = [.leftParen, .name x, .rightParen] := by simp
  have hbehind : (Token.leftParen :: .name x :: .rightParen :: .assign :: value).dropWhile
      (· ≠ .assign) = .assign :: value := by simp
  simp only [assignment?, hbehind, hbefore, htarget, h, Option.map_some]

end RegisterMap.Header
