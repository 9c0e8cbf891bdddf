import RegisterMap.Proofs.Header.Token

/-!
# Reading expressions — which operands belong to which operator

The tokens of an expression are read from left to right by a small machine. It keeps the operators
that still wait for their right operand, and closes one of them as soon as an operator comes that
does not bind tighter. What it reads is a *term*, and the value of a term is a natural number, with
as many bits as it needs.

The grammar says the same without a machine: a *phrase* of a rank is a term whose operators outside
of parentheses all have at least this rank. The machine reads each phrase as its term.

## § What is here

* `Term`, `Term.value` — what is read, and its value;
* `Reader`, `read` — the machine;
* `Phrase` — the grammar;
* `run_phrase` — one phrase takes the machine from the place of an operand to behind it;
* `read_of_phrase` — the machine reads every phrase.
-/

namespace RegisterMap.Header

/-! ## § Terms -/

/-- **Term** — an expression whose operands are known. -/
inductive Term where
  | name (text : String)
  | number (n : Nat)
  | complement (t : Term)
  | binary (o : Operator) (a b : Term)
  deriving DecidableEq, Repr

/-- **value** — the natural number that a term stands for, when its names have numbers. A complement
is none. -/
def Term.value (numbers : String → Option Nat) : Term → Option Nat
  | name text => numbers text
  | number n => some n
  | complement _ => none
  | binary o a b => o.applyTo (a.value numbers) (b.value numbers)

/-! ## § The machine -/

/-- **Frame** — what waits for an operand that is not complete. -/
inductive Frame where
  | paren
  | complement
  | left (o : Operator) (a : Term)
  deriving DecidableEq, Repr

/-- **Reader** — the frames that wait, the last one first, and the operand that was read last, if
no operator came after it. -/
structure Reader where
  frames : List Frame := []
  operand : Option Term := none
  deriving DecidableEq, Repr

namespace Reader

/-- **close** — an operand with all frames closed that bind at least as tight as a rank. -/
def close (rank : Nat) : List Frame → Term → List Frame × Term
  | .complement :: fs, t => close rank fs (.complement t)
  | .left o a :: fs, t =>
    if rank ≤ o.rank then close rank fs (.binary o a t) else (.left o a :: fs, t)
  | fs, t => (fs, t)

/-- **leave** — the reader behind a closing parenthesis. -/
def leave : List Frame × Term → Option Reader
  | (.paren :: fs, t) => some ⟨fs, some t⟩
  | _ => none

/-- **step** — the reader after one token. -/
def step (r : Reader) (token : Token) : Option Reader :=
  match r.operand, token with
  | none, .name text => some ⟨r.frames, some (.name text)⟩
  | none, .number text =>
    (Text.readLiteral text.toList).map fun n => ⟨r.frames, some (.number n)⟩
  | none, .leftParen => some ⟨.paren :: r.frames, none⟩
  | none, .complement => some ⟨.complement :: r.frames, none⟩
  | some t, .operator o =>
    let (fs, a) := close o.rank r.frames t
    some ⟨.left o a :: fs, none⟩
  | some t, .rightParen => leave (close 0 r.frames t)
  | _, _ => none

theorem step_number {fs : List Frame} {text : String} {n : Nat}
    (hn : Text.readLiteral text.toList = some n) :
    step ⟨fs, none⟩ (.number text) = some ⟨fs, some (.number n)⟩ := by
  simp only [step, hn, Option.map_some]

theorem step_leftParen (fs : List Frame) :
    step ⟨fs, none⟩ .leftParen = some ⟨.paren :: fs, none⟩ := rfl

theorem step_complement (fs : List Frame) :
    step ⟨fs, none⟩ .complement = some ⟨.complement :: fs, none⟩ := rfl

theorem step_operator {fs fs' : List Frame} {t a : Term} {o : Operator}
    (hclose : close o.rank fs t = (fs', a)) :
    step ⟨fs, some t⟩ (.operator o) = some ⟨.left o a :: fs', none⟩ := by
  simp only [step, hclose]

theorem step_rightParen {fs fs' : List Frame} {t a : Term}
    (hclose : close 0 fs t = (.paren :: fs', a)) :
    step ⟨fs, some t⟩ .rightParen = some ⟨fs', some a⟩ := by
  simp only [step, hclose, leave]

/-- **run** — the reader after some tokens. -/
def run (r : Reader) (ts : List Token) : Option Reader := ts.foldlM step r

/-- **finish** — the term of a reader at the end of the tokens. -/
def finish (r : Reader) : Option Term :=
  match r.operand with
  | none => none
  | some t =>
    match close 0 r.frames t with
    | ([], t) => some t
    | _ => none

theorem run_nil (r : Reader) : r.run [] = some r := rfl

theorem run_cons (r : Reader) (t : Token) (ts : List Token) :
    r.run (t :: ts) = (r.step t).bind fun r => r.run ts := by
  rw [run, List.foldlM_cons]
  rfl

theorem run_append (r : Reader) (ts us : List Token) :
    r.run (ts ++ us) = (r.run ts).bind fun r => r.run us := by
  rw [run, List.foldlM_append]
  rfl

end Reader

/-- **read** — the term that some tokens are. -/
def read (ts : List Token) : Option Term := (Reader.run {} ts).bind Reader.finish

/-! ## § The grammar -/

/-- **prefixRank** — how tight a complement binds. -/
def prefixRank : Nat := 4

/-- **Phrase** — the tokens of a term whose operators outside of parentheses have at least the given
rank. Operators of one rank group from the left. -/
inductive Phrase : Nat → List Token → Term → Prop where
  | name (rank : Nat) (text : String) : Phrase rank [.name text] (.name text)
  | number (rank : Nat) {text : String} {n : Nat} :
    Text.readLiteral text.toList = some n → Phrase rank [.number text] (.number n)
  | paren (rank : Nat) {ts : List Token} {t : Term} :
    Phrase 0 ts t → Phrase rank (.leftParen :: (ts ++ [.rightParen])) t
  | complement {rank : Nat} {ts : List Token} {t : Term} :
    rank ≤ prefixRank → Phrase prefixRank ts t → Phrase rank (.complement :: ts) (.complement t)
  | binary {rank : Nat} (o : Operator) {ts us : List Token} {a b : Term} :
    rank ≤ o.rank → Phrase o.rank ts a → Phrase (o.rank + 1) us b →
      Phrase rank (ts ++ .operator o :: us) (.binary o a b)

/-- **Below** — the last frame that waits does not take an operand of the rank before it is
complete. -/
def Below (rank : Nat) : List Frame → Prop
  | .left o _ :: _ => o.rank < rank
  | .complement :: _ => prefixRank ≤ rank
  | _ => True

theorem Below.mono {rank rank' : Nat} {fs : List Frame} (hle : rank ≤ rank')
    (h : Below rank fs) : Below rank' fs := by
  match fs with
  | [] => trivial
  | .paren :: _ => trivial
  | .left o a :: _ => exact Nat.lt_of_lt_of_le h hle
  | .complement :: _ => exact Nat.le_trans h hle

namespace Reader

/-- Frames below the rank of an operator stay as they are when it comes. -/
theorem close_of_below {o : Operator} {fs : List Frame} (h : Below o.rank fs) (t : Term) :
    close o.rank fs t = (fs, t) := by
  match fs with
  | [] => rfl
  | .paren :: _ => rfl
  | .left p a :: _ =>
    have hlt : p.rank < o.rank := h
    rw [close, if_neg (Nat.not_le.2 hlt)]
  | .complement :: _ =>
    have hle : prefixRank ≤ o.rank := h
    cases o <;> exact absurd hle (by decide)

/-- A phrase takes the reader from the place of an operand to behind it. The operand that is read
may still have to be closed; for every operator that the phrase can stand before, closing gives the
frames from before the phrase and its whole term. -/
theorem run_phrase {rank : Nat} {ts : List Token} {t : Term} (h : Phrase rank ts t)
    {fs : List Frame} (hbelow : Below rank fs) :
    ∃ fs' t', run ⟨fs, none⟩ ts = some ⟨fs', some t'⟩ ∧
      ∀ q, q ≤ rank → close q fs' t' = close q fs t := by
  induction h generalizing fs with
  | name rank text => exact ⟨fs, .name text, rfl, fun _ _ => rfl⟩
  | number rank hn =>
    refine ⟨fs, .number _, ?_, fun _ _ => rfl⟩
    rw [run_cons, step_number hn, Option.bind_some, run_nil]
  | paren rank hts ih =>
    have hopen : Below 0 (.paren :: fs) := trivial
    obtain ⟨fs', t', hrun, hclose⟩ := ih hopen
    refine ⟨fs, _, ?_, fun _ _ => rfl⟩
    rw [run_cons, step_leftParen, Option.bind_some, run_append, hrun, Option.bind_some, run_cons,
      step_rightParen (hclose 0 (Nat.le_refl 0)), Option.bind_some, run_nil]
  | complement hle hts ih =>
    have hwait : Below prefixRank (.complement :: fs) := Nat.le_refl _
    obtain ⟨fs', t', hrun, hclose⟩ := ih hwait
    refine ⟨fs', t', ?_, fun q hq => ?_⟩
    · rw [run_cons, step_complement, Option.bind_some, hrun]
    · rw [hclose q (Nat.le_trans hq hle), close]
  | @binary rank o ts us a b hle hts hus iha ihb =>
    -- The left operand is complete when its operator comes, and the frames are as before.
    obtain ⟨fs₁, t₁, hrun₁, hclose₁⟩ := iha (hbelow.mono hle)
    have hleft : close o.rank fs₁ t₁ = (fs, a) := by
      rw [hclose₁ o.rank (Nat.le_refl _), close_of_below (hbelow.mono hle)]
    have hright : Below (o.rank + 1) (.left o a :: fs) := Nat.lt_succ_self _
    obtain ⟨fs₂, t₂, hrun₂, hclose₂⟩ := ihb hright
    refine ⟨fs₂, t₂, ?_, fun q hq => ?_⟩
    · rw [run_append, hrun₁, Option.bind_some, run_cons, step_operator hleft, Option.bind_some,
        hrun₂]
    · rw [hclose₂ q (by omega), close, if_pos (Nat.le_trans hq hle)]

end Reader

/-- The machine reads every phrase as its term. -/
theorem read_of_phrase {ts : List Token} {t : Term} (h : Phrase 0 ts t) : read ts = some t := by
  have hnone : Below 0 [] := trivial
  obtain ⟨fs, u, hrun, hclose⟩ := Reader.run_phrase h hnone
  have hend : Reader.close 0 fs u = ([], t) := hclose 0 (Nat.le_refl 0)
  show (Reader.run ⟨[], none⟩ ts).bind Reader.finish = some t
  rw [hrun, Option.bind_some, Reader.finish]
  simp only [hend]

end RegisterMap.Header
