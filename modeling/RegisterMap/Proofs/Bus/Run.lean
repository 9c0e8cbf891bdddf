import RegisterMap.Proofs.Bus.Fields

/-!
# Runs of register writes — only the last value of a register stays

A run writes values to registers, one after another. What a bus holds afterwards is decided address
by address: by the last call whose register has the address. Where no two registers share an
address that is the last call for the register, so the order of calls for different registers does
not matter.

## § What is here

* `lastWord?`, `lastValue?` — what the last call left at an address, or in a register;
* `writeAll_run` — the bus after a run, by induction on the calls;
* `lastWord?_eq` — among registers apart, the last word is a word of the last value;
* `runs_keep_last` — so a run of writes is known from the last value of each register.
-/

namespace RegisterMap

/-! ## § Registers apart -/

namespace Register

variable {r s : Register}

/-- **Apart** — two registers without a common address. -/
def Apart (r s : Register) : Prop := ∀ a ∈ r.addresses, a ∉ s.addresses

instance : DecidableRel Apart := fun r s =>
  inferInstanceAs (Decidable (∀ a ∈ r.addresses, a ∉ s.addresses))

/-- An address belongs to one register of a set whose registers are apart. -/
theorem eq_of_common_address {S : Set Register} (hapart : S.Pairwise Apart) (hr : r ∈ S)
    (hs : s ∈ S) {a : Nat} (har : a ∈ r.addresses) (has : a ∈ s.addresses) : r = s := by
  by_contra hne
  exact hapart hr hs hne a har has

end Register

/-! ## § The last call -/

/-- **lastValue?** — the value of the last call for a register. -/
def lastValue? (r : Register) : List (Register × Nat) → Option Nat
  | [] => none
  | c :: cs => (lastValue? r cs).or (if c.1 = r then some c.2 else none)

/-- A register has a last value when it is written at all. -/
theorem lastValue?_isSome {r : Register} {calls : List (Register × Nat)} :
    (lastValue? r calls).isSome ↔ ∃ c ∈ calls, c.1 = r := by
  induction calls with
  | nil => simp [lastValue?]
  | cons c cs ih =>
    rw [lastValue?, Option.isSome_or, Bool.or_eq_true, ih, List.exists_mem_cons_iff, or_comm]
    by_cases h : c.1 = r
    · simp [h]
    · simp [h]

/-- The last value stands in a call that no other call for the register follows. -/
theorem lastValue?_eq_some {r : Register} {calls : List (Register × Nat)} {v : Nat} :
    lastValue? r calls = some v ↔
      ∃ before later, calls = before ++ (r, v) :: later ∧ ∀ c ∈ later, c.1 ≠ r := by
  induction calls with
  | nil => simp [lastValue?]
  | cons c cs ih =>
    rw [lastValue?, Option.or_eq_some_iff, ih]
    constructor
    · rintro (⟨before, later, rfl, hlater⟩ | ⟨hnone, hv⟩)
      · exact ⟨c :: before, later, rfl, hlater⟩
      · split at hv
        · rename_i hr
          cases hv
          refine ⟨[], cs, by rw [← hr]; rfl, fun x hx hxr => ?_⟩
          have hsome := lastValue?_isSome.2 ⟨x, hx, hxr⟩
          rw [hnone] at hsome
          cases hsome
        · cases hv
    · rintro ⟨before, later, hcalls, hlater⟩
      cases before with
      | nil =>
        obtain ⟨rfl, rfl⟩ := List.cons.inj hcalls
        refine .inr ⟨Option.not_isSome_iff_eq_none.1 fun hsome => ?_, if_pos rfl⟩
        obtain ⟨x, hx, hxr⟩ := lastValue?_isSome.1 hsome
        exact hlater x hx hxr
      | cons x before =>
        obtain ⟨rfl, rfl⟩ := List.cons.inj hcalls
        exact .inl ⟨before, later, rfl, hlater⟩

/-- Calls before and after each other: the later ones count first. -/
theorem lastValue?_append (r : Register) (before later : List (Register × Nat)) :
    lastValue? r (before ++ later) = (lastValue? r later).or (lastValue? r before) := by
  induction before with
  | nil => simp [lastValue?]
  | cons c cs ih => rw [List.cons_append, lastValue?, lastValue?, ih, Option.or_assoc]

/-- Two calls for different registers may change places. -/
theorem lastValue?_swap {c c' : Register × Nat} (hne : c.1 ≠ c'.1) (r : Register)
    (before later : List (Register × Nat)) :
    lastValue? r (before ++ c' :: c :: later) = lastValue? r (before ++ c :: c' :: later) := by
  rw [lastValue?_append, lastValue?_append]
  congr 1
  simp only [lastValue?, Option.or_assoc]
  congr 1
  by_cases hc : c.1 = r
  · have hc' : c'.1 ≠ r := fun h => hne (hc.trans h.symm)
    simp [hc, hc']
  · simp [hc]

namespace Device

variable {d : Device}

/-- **lastWord?** — the word that the last call for an address writes there. -/
def lastWord? (d : Device) (a : Nat) : List (Register × Nat) → Option Nat
  | [] => none
  | c :: cs => (d.lastWord? a cs).or (if a ∈ c.1.addresses then some (d.wordAt c.1 c.2 a) else none)

/-- Where no register of a run has an address, nothing is written. -/
theorem lastWord?_eq_none {a : Nat} {calls : List (Register × Nat)}
    (h : ∀ c ∈ calls, a ∉ c.1.addresses) : d.lastWord? a calls = none := by
  induction calls with
  | nil => rfl
  | cons c cs ih =>
    rw [lastWord?, ih fun x hx => h x (List.mem_cons_of_mem _ hx), if_neg (h c List.mem_cons_self)]
    rfl

/-- Among registers apart, the last call for an address is the last call for its register. -/
theorem lastWord?_eq {S : Set Register} (hapart : S.Pairwise Register.Apart) {r : Register}
    (hr : r ∈ S) {a : Nat} (ha : a ∈ r.addresses) {calls : List (Register × Nat)}
    (hcalls : ∀ c ∈ calls, c.1 ∈ S) :
    d.lastWord? a calls = (lastValue? r calls).map fun v => d.wordAt r v a := by
  induction calls with
  | nil => rfl
  | cons c cs ih =>
    have hc : c.1 ∈ S := hcalls c List.mem_cons_self
    rw [lastWord?, lastValue?, ih fun x hx => hcalls x (List.mem_cons_of_mem _ hx), Option.map_or]
    congr 1
    by_cases h : c.1 = r
    · subst h
      rw [if_pos ha, if_pos rfl]
      rfl
    · have hnot : a ∉ c.1.addresses := fun hmem =>
        h (Register.eq_of_common_address hapart hc hr hmem ha)
      rw [if_neg hnot, if_neg h]
      rfl

/-! ## § Runs -/

/-- **writeAll** — a run: one register after another is written. -/
def writeAll (d : Device) (calls : List (Register × Nat)) : Transfer (List Unit) :=
  Transfer.each (fun c => d.writeRegister c.1 c.2) calls

/-- **accesses** — what one call asks of the bus: the words of the value, from the lowest address
on. -/
def accesses (d : Device) (c : Register × Nat) : List Access :=
  (List.range' c.1.addrLo c.1.wordCount).map fun a => .write a (d.wordAt c.1 c.2 a)

/-- A run without a locked address succeeds. Its calls are written in their order, and the last call
for an address decides what the bus holds there. -/
theorem writeAll_run (d : Device) (calls : List (Register × Nat)) (b : Bus)
    (hsound : ∀ c ∈ calls, c.1.Sound d.dataWidth)
    (hfree : ∀ c ∈ calls, ∀ a ∈ c.1.addresses, b.isLocked a = false) :
    ∃ after, d.writeAll calls b = (.ok (calls.map fun _ => ()), after) ∧
      (∀ a, after.word? a = (d.lastWord? a calls).or (b.word? a)) ∧
      after.trace = b.trace ++ calls.flatMap d.accesses := by
  induction calls generalizing b with
  | nil => exact ⟨b, rfl, fun a => rfl, (List.append_nil _).symm⟩
  | cons c cs ih =>
    obtain ⟨middle, hfirst, hwritten⟩ :=
      writeRegister_run d c.1 c.2 (hfree c List.mem_cons_self)
    -- A write locks nothing, so the other calls find their addresses as they were.
    obtain ⟨after, hrest, hwords, htrace⟩ := ih middle
      (fun x hx => hsound x (List.mem_cons_of_mem _ hx)) (by
        intro x hx a ha
        rw [hwritten.locks]
        exact hfree x (List.mem_cons_of_mem _ hx) a ha)
    refine ⟨after, Transfer.each_cons hfirst hrest, ?_, ?_⟩
    · intro a
      rw [hwords, hwritten.words, lastWord?, Option.or_assoc]
      by_cases ha : a ∈ c.1.addresses
      · rw [if_pos ha, if_pos ha]
        rfl
      · rw [if_neg ha, if_neg ha]
        rfl
    · rw [htrace, hwritten.trace, List.flatMap_cons, List.append_assoc, accesses,
        ← Register.addresses_eq_range' (hsound c List.mem_cons_self)]

/-- **Runs keep the last values.** Registers of an accepted description that share no address are
written in any order and any number of times, over a bus that has none of their addresses locked.
Every call succeeds, and the bus is asked for one write for each address of its register in
ascending order, with a word of the data width. A register that was written is read as its last
value, cut to its words and to the bits of a value. The last values decide what the bus holds, in
particular two calls for different registers may change places; and no other address is changed. -/
theorem runs_keep_last {text : String} (haccepted : (ofText text).result = .ok d)
    {S : Set Register} (hS : ∀ r ∈ S, ∃ page ∈ d.pages, r ∈ page.regs)
    (hapart : S.Pairwise Register.Apart) {b : Bus}
    (hfree : ∀ r ∈ S, ∀ a ∈ r.addresses, b.isLocked a = false)
    {calls : List (Register × Nat)} (hcalls : ∀ c ∈ calls, c.1 ∈ S) :
    ∃ after, d.writeAll calls b = (.ok (calls.map fun _ => ()), after) ∧
      after.trace = b.trace ++ calls.flatMap d.accesses ∧
      (∀ c ∈ calls, c.1.addrLo + c.1.wordCount = c.1.addrHi + 1 ∧
        ∀ a, d.wordAt c.1 c.2 a < capacity d.dataWidth) ∧
      (∀ r v, lastValue? r calls = some v → (d.readRegister r after).1
        = .ok (v % capacity (min BitSpec.valueBits (d.dataWidth * r.wordCount)))) ∧
      (∀ others : List (Register × Nat), (∀ c ∈ others, c.1 ∈ S) →
        (∀ r, lastValue? r others = lastValue? r calls) →
        ∀ a, (d.writeAll others b).2.word? a = after.word? a) ∧
      (∀ before c c' later, calls = before ++ c :: c' :: later → c.1 ≠ c'.1 →
        ∀ a, (d.writeAll (before ++ c' :: c :: later) b).2.word? a = after.word? a) ∧
      (∀ a, (∀ c ∈ calls, a ∉ c.1.addresses) → after.word? a = b.word? a) := by
  have hd := sound_of_ofText haccepted
  have hsound : ∀ r ∈ S, r.Sound d.dataWidth := by
    intro r hr
    obtain ⟨page, hpage, hreg⟩ := hS r hr
    exact (hd.pages page hpage).regs r hreg
  obtain ⟨after, hrun, hwords, htrace⟩ := writeAll_run d calls b
    (fun c hc => hsound c.1 (hcalls c hc)) (fun c hc => hfree c.1 (hcalls c hc))
  -- What a bus holds at an address of the set is a word of the last value of its register.
  have hsame : ∀ others : List (Register × Nat), (∀ c ∈ others, c.1 ∈ S) →
      (∀ r, lastValue? r others = lastValue? r calls) →
      ∀ a, (d.writeAll others b).2.word? a = after.word? a := by
    intro others hothers hlast a
    obtain ⟨after', hrun', hwords', -⟩ := writeAll_run d others b
      (fun c hc => hsound c.1 (hothers c hc)) (fun c hc => hfree c.1 (hothers c hc))
    rw [hrun']
    show after'.word? a = after.word? a
    rw [hwords', hwords]
    congr 1
    by_cases hmem : ∃ r ∈ S, a ∈ r.addresses
    · obtain ⟨r, hr, ha⟩ := hmem
      rw [lastWord?_eq hapart hr ha hothers, lastWord?_eq hapart hr ha hcalls, hlast]
    · rw [lastWord?_eq_none fun c hc ha => hmem ⟨c.1, hothers c hc, ha⟩,
        lastWord?_eq_none fun c hc ha => hmem ⟨c.1, hcalls c hc, ha⟩]
  refine ⟨after, hrun, htrace, ?_, ?_, hsame, ?_, ?_⟩
  · intro c hc
    have hle := (hsound c.1 (hcalls c hc)).ordered
    refine ⟨?_, wordAt_lt hd c.1 c.2⟩
    rw [Register.wordCount]
    omega
  · intro r v hv
    obtain ⟨before, later, rfl, -⟩ := lastValue?_eq_some.1 hv
    have hr : r ∈ S := hcalls (r, v) (by simp)
    apply readRegister_of_words hd (hsound r hr)
    intro a ha
    rw [hwords, lastWord?_eq hapart hr ha hcalls, hv]
    rfl
  · rintro before c c' later rfl hne
    apply hsame _ _ fun r => lastValue?_swap hne r before later
    intro x hx
    apply hcalls x
    simp only [List.mem_append, List.mem_cons] at hx ⊢
    tauto
  · intro a ha
    rw [hwords, lastWord?_eq_none ha]
    rfl

theorem apart_tuner : ({Tuner.long, Tuner.last} : Set Register).Pairwise Register.Apart := by
  rintro r (rfl | rfl) s (rfl | rfl) hne
  · exact absurd rfl hne
  · decide
  · decide
  · exact absurd rfl hne

/-- Three calls for the registers of a device, one of them at the last address there is. -/
theorem runs_keep_last_tuner :
    ∃ after, Tuner.device.writeAll [(Tuner.long, 1), (Tuner.last, 2), (Tuner.long, 3)] {}
        = (.ok [(), (), ()], after) ∧
      after.trace.length = 7 ∧
      (Tuner.device.readRegister Tuner.long after).1 = .ok 3 ∧
      (Tuner.device.readRegister Tuner.last after).1 = .ok 2 := by
  have hpages : ∀ r ∈ ({Tuner.long, Tuner.last} : Set Register),
      ∃ page ∈ Tuner.device.pages, r ∈ page.regs := by
    rintro r (rfl | rfl)
    · exact ⟨Tuner.page, Tuner.page_mem, Tuner.long_mem⟩
    · exact ⟨Tuner.page, Tuner.page_mem, Tuner.last_mem⟩
  have hcalls : ∀ c ∈ [(Tuner.long, 1), (Tuner.last, 2), (Tuner.long, 3)],
      c.1 ∈ ({Tuner.long, Tuner.last} : Set Register) := by
    intro c hc
    simp only [List.mem_cons, List.not_mem_nil, or_false] at hc
    rcases hc with rfl | rfl | rfl
    · exact .inl rfl
    · exact .inr rfl
    · exact .inl rfl
  obtain ⟨after, hrun, htrace, -, hread, -⟩ :=
    runs_keep_last (b := {}) Tuner.accepted hpages apart_tuner (fun _ _ _ _ => rfl) hcalls
  refine ⟨after, hrun, ?_, ?_, ?_⟩
  · rw [htrace]
    rfl
  · exact hread Tuner.long 3 (by decide +kernel)
  · exact hread Tuner.last 2 (by decide +kernel)

end Device

end RegisterMap
