import Mathlib.Order.Bounds.Defs
import RegisterMap.Proofs.Bus.Fields

/-!
# Failed transfers — what is left when an access fails

The words of a register are written in ascending order, so a locked address leaves the words below
it written and all others as they were. What was written does not depend on where the transfer
ended. Reading ends the same way at an address without a word, and changes nothing.

## § What is here

* `Bus.Stopped` — what a bus is after a write was refused, behind others that were not;
* `each_write_locked` — a run of writes up to the first locked address;
* `Register.exists_least` — the lowest address of a register with some property, and those below it;
* `writeRegister_locked`, `readRegister_absent`, `dumpPage_absent` — each transfer up to there;
* `failure_prefix` — all of this together.
-/

namespace RegisterMap

/-- **Stopped** — the bus `after` came of `b` when words were written to the addresses, in their
order, and then the write to `a` was refused. -/
structure Bus.Stopped (word : Nat → Nat) (as : List Nat) (a : Nat) (b after : Bus) : Prop where
  words : ∀ key, after.word? key = if key ∈ as then some (word key) else b.word? key
  locks : ∀ key, after.isLocked key = b.isLocked key
  trace : after.trace = b.trace ++ (as ++ [a]).map fun x => .write x (word x)

/-! ## § Writes -/

/-- A locked address refuses a write, which stays in the trace. -/
theorem Bus.write_locked {a : Nat} {b : Bus} (h : b.isLocked a = true) (word : Nat) :
    b.write a word = (.error (.locked a), b.recorded [.write a word]) := by
  rw [write, if_pos h]
  rfl

/-- The first locked address ends a run of writes, after it has been asked for. -/
theorem Transfer.each_write_locked (word : Nat → Nat) (after : List Nat) {before : List Nat}
    {a : Nat} {b : Bus} (hfree : ∀ x ∈ before, b.isLocked x = false)
    (hlocked : b.isLocked a = true) :
    ∃ stopped, each (fun x => Bus.write x (word x)) (before ++ a :: after) b
      = (.error (.locked a), stopped) ∧ Bus.Stopped word before a b stopped := by
  obtain ⟨middle, hrun, hwritten⟩ := each_write word before b hfree
  have hstill : middle.isLocked a = true := (hwritten.locks a).trans hlocked
  refine ⟨_, each_of_error hrun (Bus.write_locked hstill (word a)), hwritten.words,
    hwritten.locks, ?_⟩
  show middle.trace ++ [.write a (word a)] = _
  rw [hwritten.trace, List.map_append, List.append_assoc]
  rfl

/-! ## § The lowest address -/

/-- Among the addresses of a register with some property there is a lowest one; the addresses in
front of it are those from the start of the register on. -/
theorem Register.exists_least {dataWidth : Nat} {r : Register} (hr : r.Sound dataWidth)
    {p : Nat → Prop} [DecidablePred p] (h : ∃ x ∈ r.addresses, p x) :
    ∃ a after, r.addresses = List.range' r.addrLo (a - r.addrLo) ++ a :: after ∧
      (∀ x ∈ List.range' r.addrLo (a - r.addrLo), ¬ p x) ∧
      IsLeast {x | x ∈ r.addresses ∧ p x} a := by
  obtain ⟨before, a, after, haddresses, hbefore, ha⟩ := Transfer.exists_first h
  have hrange := haddresses
  rw [addresses_eq_range' hr] at hrange
  -- What is in front of an address in a range is the range up to it.
  obtain ⟨k, hk, hfront, hback⟩ := List.range'_eq_append_iff.1 hrange
  obtain ⟨hfirst, -⟩ := List.range'_eq_cons_iff.1 hback.symm
  have hlength : k = a - r.addrLo := by omega
  subst hlength
  subst hfront
  refine ⟨a, after, haddresses, hbefore, ⟨?_, ha⟩, ?_⟩
  · rw [haddresses]
    exact List.mem_append_right _ List.mem_cons_self
  · intro x ⟨hx, hp⟩
    by_contra hlt
    have hlow := (mem_addresses.1 hx).1
    exact hbefore x (List.mem_range'_1.2 ⟨hlow, by omega⟩) hp

namespace Device

variable {d : Device} {r : Register} {b : Bus}

/-! ## § Transfers -/

/-- A register with a locked address is written up to the lowest one. -/
theorem writeRegister_locked (hr : r.Sound d.dataWidth) (value : Nat)
    (h : ∃ x ∈ r.addresses, b.isLocked x = true) :
    ∃ a stopped, IsLeast {x | x ∈ r.addresses ∧ b.isLocked x = true} a ∧
      d.writeRegister r value b = (.error (.locked a), stopped) ∧
      Bus.Stopped (d.wordAt r value) (List.range' r.addrLo (a - r.addrLo)) a b stopped := by
  obtain ⟨a, after, haddresses, hbefore, hleast⟩ := Register.exists_least hr h
  obtain ⟨stopped, hrun, hstopped⟩ := Transfer.each_write_locked (d.wordAt r value) after
    (fun x hx => Bool.eq_false_iff.2 (hbefore x hx)) hleast.1.2
  refine ⟨a, stopped, hleast, ?_, hstopped⟩
  rw [writeRegister, haddresses]
  simp only [hrun]
  rfl

/-- A register with an address that holds no word is read up to the lowest one. -/
theorem readRegister_absent (hr : r.Sound d.dataWidth) (h : ∃ x ∈ r.addresses, b.word? x = none) :
    ∃ a, IsLeast {x | x ∈ r.addresses ∧ b.word? x = none} a ∧
      d.readRegister r b = (.error (.absent a),
        b.recorded ((List.range' r.addrLo (a - r.addrLo) ++ [a]).map Access.read)) := by
  obtain ⟨a, after, haddresses, hbefore, hleast⟩ := Register.exists_least hr h
  have hrun : Transfer.each (d.readPart r) r.addresses b = (.error (.absent a),
      b.recorded ((List.range' r.addrLo (a - r.addrLo) ++ [a]).map Access.read)) := by
    rw [haddresses]
    exact Transfer.each_reading_absent hbefore hleast.1.2
  refine ⟨a, hleast, ?_⟩
  simp only [readRegister, hrun]
  rfl

/-- A page with an address that holds no word is read up to the first one. -/
theorem dumpPage_absent (d : Device) {p : Page}
    (h : ∃ x ∈ p.regs.flatMap Register.addresses, b.word? x = none) :
    ∃ before a after, p.regs.flatMap Register.addresses = before ++ a :: after ∧
      (∀ x ∈ before, b.word? x ≠ none) ∧ b.word? a = none ∧
      d.dumpPage p b = (.error (.absent a), b.recorded ((before ++ [a]).map Access.read)) := by
  obtain ⟨before, a, after, haddresses, hbefore, ha⟩ := Transfer.exists_first h
  refine ⟨before, a, after, haddresses, hbefore, ha, ?_⟩
  rw [dumpPage, haddresses]
  exact Transfer.each_reading_absent hbefore ha

/-- Reading a register changes nothing but the trace. -/
theorem readRegister_recorded (d : Device) (r : Register) (b : Bus) :
    ∃ accesses, (d.readRegister r b).2 = b.recorded accesses :=
  Transfer.each_reading_recorded (d.wordPart r) r.addresses b

/-- Reading a page changes nothing but the trace. -/
theorem dumpPage_recorded (d : Device) (p : Page) (b : Bus) :
    ∃ accesses, (d.dumpPage p b).2 = b.recorded accesses :=
  Transfer.each_reading_recorded (fun addr word => (addr, word &&& d.dataMask)) _ b

/-- **Failures leave a prefix.** For every register of an accepted description, every value and
every bus. If an address of the register is locked, writing fails with the lowest locked address:
the addresses below it have been written in ascending order, with the words that they get when no
address is locked, the write to it has been asked for, and every other word and all locks are as
before. If an address holds no word, reading fails with the lowest such address after reading up to
it, and the page is read up to the first such address in the order of its registers. Reading a
register or a page never changes a word or a lock. -/
theorem failure_prefix {text : String} (haccepted : (ofText text).result = .ok d) {page : Page}
    (hpage : page ∈ d.pages) (hreg : r ∈ page.regs) (value : Nat) (b : Bus) :
    ((∃ x ∈ r.addresses, b.isLocked x = true) →
      ∃ a stopped, IsLeast {x | x ∈ r.addresses ∧ b.isLocked x = true} a ∧
        d.writeRegister r value b = (.error (.locked a), stopped) ∧
        stopped.trace = b.trace ++ ((List.range' r.addrLo (a - r.addrLo) ++ [a]).map fun x =>
          .write x (d.wordAt r value x)) ∧
        (∀ x, r.addrLo ≤ x → x < a → stopped.word? x = some (d.wordAt r value x) ∧
          ∀ free : Bus, (∀ y ∈ r.addresses, free.isLocked y = false) →
            (d.writeRegister r value free).1 = .ok () ∧
            (d.writeRegister r value free).2.word? x = some (d.wordAt r value x)) ∧
        (∀ x, x < r.addrLo ∨ a ≤ x → stopped.word? x = b.word? x) ∧
        (∀ x, stopped.isLocked x = b.isLocked x)) ∧
    ((∃ x ∈ r.addresses, b.word? x = none) →
      ∃ a, IsLeast {x | x ∈ r.addresses ∧ b.word? x = none} a ∧
        d.readRegister r b = (.error (.absent a),
          b.recorded ((List.range' r.addrLo (a - r.addrLo) ++ [a]).map Access.read))) ∧
    ((∃ x ∈ page.regs.flatMap Register.addresses, b.word? x = none) →
      ∃ before a after, page.regs.flatMap Register.addresses = before ++ a :: after ∧
        (∀ x ∈ before, b.word? x ≠ none) ∧ b.word? a = none ∧
        d.dumpPage page b = (.error (.absent a), b.recorded ((before ++ [a]).map Access.read))) ∧
    (∃ accesses, (d.readRegister r b).2 = b.recorded accesses) ∧
    (∃ accesses, (d.dumpPage page b).2 = b.recorded accesses) := by
  have hr := ((sound_of_ofText haccepted).pages page hpage).regs r hreg
  refine ⟨fun hlocked => ?_, readRegister_absent hr, dumpPage_absent d,
    readRegister_recorded d r b, dumpPage_recorded d page b⟩
  obtain ⟨a, stopped, hleast, hrun, hstopped⟩ := writeRegister_locked hr value hlocked
  refine ⟨a, stopped, hleast, hrun, hstopped.trace, fun x hlow hlt => ⟨?_, fun free hfree => ?_⟩,
    fun x houtside => ?_, hstopped.locks⟩
  · rw [hstopped.words, if_pos (List.mem_range'_1.2 ⟨hlow, by omega⟩)]
  · obtain ⟨hsuccess, hwords⟩ := writeRegister_spec d r value hfree
    have hhigh := (Register.mem_addresses.1 hleast.1.1).2
    refine ⟨hsuccess, ?_⟩
    rw [hwords, if_pos (Register.mem_addresses.2 ⟨hlow, by omega⟩)]
  · rw [hstopped.words, if_neg]
    intro hmem
    have hbounds := List.mem_range'_1.1 hmem
    omega

end Device

/-- **halfway** — a bus with a word at the first address of a long register and a lock on the
second. -/
def Tuner.halfway : Bus := { words := [(0x10, 7)], lockedAddrs := [0x11] }

/-- Of the three words only the first is written, and neither the register nor its page is read
beyond the second. -/
theorem Device.failure_prefix_tuner :
    ∃ stopped, Tuner.device.writeRegister Tuner.long (5 <<< 120) Tuner.halfway
        = (.error (.locked 0x11), stopped) ∧
      stopped.word? 0x10 = some 5 ∧ stopped.word? 0x12 = none ∧
      (Tuner.device.readRegister Tuner.long Tuner.halfway).1 = .error (.absent 0x11) ∧
      (Tuner.device.dumpPage Tuner.page Tuner.halfway).1 = .error (.absent 0x11) := by
  obtain ⟨hwrite, hread, hdump, -, -⟩ :=
    failure_prefix Tuner.accepted Tuner.page_mem Tuner.long_mem (5 <<< 120) Tuner.halfway
  obtain ⟨a, stopped, hleast, hrun, -, hbelow, hrest, -⟩ := hwrite ⟨0x11, by decide, by decide⟩
  obtain rfl : a = 0x11 := by
    have hlocked : Tuner.halfway.isLocked a = true := hleast.1.2
    simpa [Bus.isLocked, Tuner.halfway] using hlocked
  obtain ⟨c, hfirst, hvalue⟩ := hread ⟨0x11, by decide, by decide⟩
  obtain rfl : c = 0x11 := by
    have hle : c ≤ 0x11 := hfirst.2 ⟨by decide, by decide⟩
    have hlow : 0x10 ≤ c := (Register.mem_addresses.1 hfirst.1.1).1
    have hne : c ≠ 0x10 := by
      rintro rfl
      exact absurd hfirst.1.2 (by decide)
    omega
  obtain ⟨before, x, after, haddresses, hbefore, habsent, hpage⟩ :=
    hdump ⟨0x11, by decide, by decide⟩
  obtain rfl : x = 0x11 := by
    have hall : Tuner.page.regs.flatMap Register.addresses
        = [0x10, 0x11, 0x12, 0xffffffffffffffff] := by decide
    rw [hall] at haddresses
    match before with
    | [] =>
      obtain ⟨rfl, -⟩ := List.cons.inj haddresses
      exact absurd habsent (by decide)
    | [y] => exact (List.cons.inj (List.cons.inj haddresses).2).1.symm
    | y :: z :: rest =>
      obtain ⟨rfl, -⟩ := List.cons.inj (List.cons.inj haddresses).2
      exact absurd rfl (hbefore 0x11 (by simp))
  refine ⟨stopped, hrun, ?_, ?_, congrArg Prod.fst hvalue, congrArg Prod.fst hpage⟩
  · exact (hbelow 0x10 (by decide) (by decide)).1.trans (by decide +kernel)
  · exact hrest 0x12 (.inr (by decide))

end RegisterMap
