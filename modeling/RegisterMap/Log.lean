/-!
# Log — records of what is done

A record has a level, the part of the program that writes it, and a text. `Logged` is a computation
that writes records and gives a result or an error; records written before an error are kept.
-/

namespace RegisterMap

namespace Log

/-- **Level** — the weight of a record, the weightiest first. -/
inductive Level where
  | info
  | debug
  | trace
  deriving DecidableEq, Repr

/-- **rank** — levels as numbers: a log of one level holds the records up to its rank. -/
def Level.rank : Level → Nat
  | .info => 1
  | .debug => 2
  | .trace => 3

/-- **name** — the name of a level. -/
def Level.name : Level → String
  | .info => "INFO"
  | .debug => "DEBUG"
  | .trace => "TRACE"

/-- **Origin** — the part of the program that writes a record. -/
inductive Origin where
  | description
  | header
  | command
  deriving DecidableEq, Repr

/-- **name** — the name of a part in the log. -/
def Origin.name : Origin → String
  | .description => "regmap_description::parse"
  | .header => "regmap_header_gen::emit"
  | .command => "regmap"

/-- **Record** — one line of the log. -/
structure Record where
  level : Level
  origin : Origin
  text : String
  deriving DecidableEq, Repr

/-- **upTo** — the records of a log that goes up to a rank. -/
def upTo (rank : Nat) (records : List Record) : List Record :=
  records.filter fun r => r.level.rank ≤ rank

end Log

/-- **Logged** — what a computation writes to the log, and what it gives. -/
structure Logged (ε α : Type) where
  records : List Log.Record
  result : Except ε α

namespace Logged

variable {ε α β : Type}

/-- **pure** — a value, without a record. -/
protected def pure (a : α) : Logged ε α := ⟨[], .ok a⟩

/-- **bind** — one computation after another; after an error nothing more is done. -/
protected def bind (x : Logged ε α) (f : α → Logged ε β) : Logged ε β :=
  match x.result with
  | .error e => ⟨x.records, .error e⟩
  | .ok a =>
    let y := f a
    ⟨x.records ++ y.records, y.result⟩

instance : Monad (Logged ε) where
  pure := Logged.pure
  bind := Logged.bind

/-- **ofExcept** — a result, without a record. -/
def ofExcept (r : Except ε α) : Logged ε α := ⟨[], r⟩

/-- **fail** — an error. -/
def fail (e : ε) : Logged ε α := ⟨[], .error e⟩

/-- **write** — one record. -/
def write (level : Log.Level) (origin : Log.Origin) (text : String) : Logged ε Unit :=
  ⟨[⟨level, origin, text⟩], .ok ()⟩

/-- **mapError** — the same with other errors. -/
def mapError {ε' : Type} (f : ε → ε') (x : Logged ε α) : Logged ε' α :=
  ⟨x.records, x.result.mapError f⟩

instance : LawfulMonad (Logged ε) := LawfulMonad.mk' (Logged ε)
  (by
    rintro α ⟨records, result⟩
    cases result <;> simp [Functor.map, Logged.bind, Logged.pure])
  (by
    intro α β a f
    simp [Bind.bind, Pure.pure, Logged.bind, Logged.pure])
  (by
    rintro α β γ ⟨records, result⟩ f g
    cases result with
    | error e => simp [Bind.bind, Logged.bind]
    | ok a =>
      simp only [Bind.bind, Logged.bind]
      cases (f a).result <;> simp)

/-! ## § The result alone -/

@[simp] theorem result_pure (a : α) : (pure a : Logged ε α).result = .ok a := rfl

@[simp] theorem result_bind (x : Logged ε α) (f : α → Logged ε β) :
    (x >>= f).result = x.result >>= fun a => (f a).result := by
  obtain ⟨records, result⟩ := x
  cases result <;> rfl

@[simp] theorem result_map (f : α → β) (x : Logged ε α) :
    (f <$> x).result = f <$> x.result := by
  obtain ⟨records, result⟩ := x
  cases result <;> rfl

@[simp] theorem result_ofExcept (r : Except ε α) : (ofExcept r).result = r := rfl

@[simp] theorem result_fail (e : ε) : (fail e : Logged ε α).result = .error e := rfl

@[simp] theorem result_write (level : Log.Level) (origin : Log.Origin) (text : String) :
    (write level origin text : Logged ε Unit).result = .ok () := rfl

/-- The results of a list are those of its computations, up to the first error. -/
theorem result_mapM (f : α → Logged ε β) (as : List α) :
    (as.mapM f).result = as.mapM fun a => (f a).result := by
  induction as with
  | nil => rfl
  | cons a as ih => simp [List.mapM_cons, ih]

end Logged

end RegisterMap
