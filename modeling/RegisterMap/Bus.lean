import RegisterMap.Text.Numeral

/-!
# Buses — words at addresses

A bus holds words at some addresses. Reading an address without a word fails, and so does writing to
a locked one. The bus keeps a trace of what is asked of it, failed accesses included.

## § Statements

* `word?_setWord` — a word that is set is found again, all others stay;
* `write_fst` — when a write succeeds;
* `word?_read`, `word?_write` — what an access changes.
-/

namespace RegisterMap

/-- **Access** — one access to a bus. -/
inductive Access where
  | read (addr : Nat)
  | write (addr word : Nat)
  deriving DecidableEq, Repr

/-- **BusFault** — why an access fails. -/
inductive BusFault where
  /-- There is no word at the address. -/
  | absent (addr : Nat)
  /-- The address is locked. -/
  | locked (addr : Nat)
  deriving DecidableEq, Repr

/-- **message** — the text of a fault. -/
def BusFault.message : BusFault → String
  | .absent addr => "no word at 0x" ++ Text.hex addr
  | .locked addr => "locked word at 0x" ++ Text.hex addr

/-- **Bus** — words in ascending order of their addresses, locked addresses, and the trace. -/
structure Bus where
  words : List (Nat × Nat) := []
  lockedAddrs : List Nat := []
  trace : List Access := []
  deriving DecidableEq, Repr

namespace Bus

/-- **word?** — the word at an address. -/
def word? (b : Bus) (addr : Nat) : Option Nat := b.words.lookup addr

/-- **isLocked** — the address cannot be written. -/
def isLocked (b : Bus) (addr : Nat) : Bool := b.lockedAddrs.contains addr

/-- **place** — a word among words in ascending order. -/
def place (addr word : Nat) : List (Nat × Nat) → List (Nat × Nat)
  | [] => [(addr, word)]
  | (a, w) :: rest =>
    if a = addr then (addr, word) :: rest
    else if addr < a then (addr, word) :: (a, w) :: rest
    else (a, w) :: place addr word rest

/-- **setWord** — a word as it is, without an access. -/
def setWord (b : Bus) (addr word : Nat) : Bus := { b with words := place addr word b.words }

/-- **lock** — the bus with the address locked, and whether it was not before. -/
def lock (b : Bus) (addr : Nat) : Bus × Bool :=
  if b.isLocked addr then (b, false)
  else ({ b with lockedAddrs := addr :: b.lockedAddrs }, true)

/-- **unlock** — the bus without a lock on the address, and whether there was one. -/
def unlock (b : Bus) (addr : Nat) : Bus × Bool :=
  if b.isLocked addr then ({ b with lockedAddrs := b.lockedAddrs.filter (· ≠ addr) }, true)
  else (b, false)

/-- **record** — one more access in the trace. -/
def record (b : Bus) (a : Access) : Bus := { b with trace := b.trace ++ [a] }

/-- **forget** — the bus with an empty trace. -/
def forget (b : Bus) : Bus := { b with trace := [] }

/-- **read** — the word at an address, and the bus after the access. -/
def read (addr : Nat) (b : Bus) : Except BusFault Nat × Bus :=
  let after := b.record (.read addr)
  match b.word? addr with
  | some w => (.ok w, after)
  | none => (.error (.absent addr), after)

/-- **write** — the bus after a word is written to an address. -/
def write (addr word : Nat) (b : Bus) : Except BusFault Unit × Bus :=
  let after := b.record (.write addr word)
  if b.isLocked addr then (.error (.locked addr), after) else (.ok (), after.setWord addr word)

/-! ## § Laws -/

theorem lookup_place (addr word key : Nat) (ws : List (Nat × Nat)) :
    (place addr word ws).lookup key = if key = addr then some word else ws.lookup key := by
  induction ws with
  | nil =>
    by_cases h : key = addr
    · simp [place, h]
    · have : (key == addr) = false := by simpa using h
      simp [place, List.lookup_cons, h, this]
  | cons e ws ih =>
    obtain ⟨a, w⟩ := e
    simp only [place]
    by_cases h : key = addr
    · subst h
      split
      · simp
      · rename_i hne
        split
        · simp
        · have : (key == a) = false := by simpa using fun e => hne e.symm
          simp [List.lookup_cons, this, ih]
    · have hk : (key == addr) = false := by simpa using h
      split
      · rename_i he
        subst he
        simp [List.lookup_cons, hk]
      · split
        · simp [List.lookup_cons, hk]
        · simp only [List.lookup_cons, ih, if_neg h]

/-- A word that is set is found again, and every other address keeps its word. -/
theorem word?_setWord (b : Bus) (addr word key : Nat) :
    (b.setWord addr word).word? key = if key = addr then some word else b.word? key :=
  lookup_place addr word key b.words

@[simp] theorem word?_record (b : Bus) (a : Access) (key : Nat) :
    (b.record a).word? key = b.word? key := rfl

/-- A read changes no word. -/
@[simp] theorem word?_read (addr : Nat) (b : Bus) (key : Nat) :
    (b.read addr).2.word? key = b.word? key := by
  unfold read
  split <;> rfl

/-- A write succeeds when the address is not locked. -/
theorem write_fst (addr word : Nat) (b : Bus) :
    (b.write addr word).1 = if b.isLocked addr then .error (.locked addr) else .ok () := by
  unfold write
  split <;> simp_all

/-- A write to an address that is not locked sets its word. -/
theorem word?_write (addr word : Nat) (b : Bus) (key : Nat) :
    (b.write addr word).2.word? key
      = if key = addr ∧ b.isLocked addr = false then some word else b.word? key := by
  unfold write
  split
  · simp_all
  · simp_all [word?_setWord]

/-- A write is one access in the trace, whether it succeeds or not. -/
@[simp] theorem trace_write (addr word : Nat) (b : Bus) :
    (b.write addr word).2.trace = b.trace ++ [.write addr word] := by
  unfold write
  split <;> rfl

/-- A write locks and unlocks nothing. -/
@[simp] theorem isLocked_write (addr word : Nat) (b : Bus) (key : Nat) :
    (b.write addr word).2.isLocked key = b.isLocked key := by
  unfold write
  split <;> rfl

end Bus

end RegisterMap
