import RegisterMap.Proofs.Device.Sound

/-!
# Words of a register — their addresses and their entries of the flat table

Word `u` of a register, counted from the most significant one, has an address in both word orders,
and at that address stands word `u`. The flat table has an entry for it, named after the register.

## § What is here

* `mem_addresses`, `addresses_eq_map`, `exists_significance` — the addresses of a register, and
  the words at them;
* `wordAddress_spec` — the address of a word, and the word at it;
* `exists_entry_single`, `exists_entry_word` — the entries of a register in the flat table.
-/

namespace RegisterMap

namespace Register

variable {dataWidth : Nat} {r : Register}

theorem mem_addresses {a : Nat} : a ∈ r.addresses ↔ r.addrLo ≤ a ∧ a ≤ r.addrHi := by
  rw [addresses, List.mem_map]
  constructor
  · rintro ⟨i, hi, rfl⟩
    have hlt := List.mem_range.1 hi
    omega
  · rintro ⟨hlow, hhigh⟩
    exact ⟨a - r.addrLo, List.mem_range.2 (by omega), by omega⟩

/-- The addresses of a register are as many as it has words, from the lowest one on. -/
theorem addresses_eq_map (hordered : r.addrLo ≤ r.addrHi) :
    r.addresses = (List.range r.wordCount).map (r.addrLo + ·) := by
  have hcount : r.addrHi + 1 - r.addrLo = r.wordCount := by
    rw [wordCount]
    omega
  rw [addresses, hcount]

theorem addresses_eq_range' (hr : r.Sound dataWidth) :
    r.addresses = List.range' r.addrLo r.wordCount := by
  rw [addresses_eq_map hr.ordered, List.range'_eq_map_range]

/-- At each address of a register stands one of its words. -/
theorem exists_significance {a : Nat} (ha : a ∈ r.addresses) :
    ∃ u, u < r.wordCount ∧ r.significance? a = some u := by
  obtain ⟨hlow, hhigh⟩ := mem_addresses.1 ha
  rw [significance?, if_neg (by omega), wordCount]
  cases r.bigOrder with
  | true => exact ⟨a - r.addrLo, by omega, rfl⟩
  | false => exact ⟨r.addrHi - a, by omega, rfl⟩

/-- An address of a register is known from the word that stands there. -/
theorem eq_of_significance {a a' u : Nat} (ha : a ∈ r.addresses) (ha' : a' ∈ r.addresses)
    (hu : r.significance? a = some u) (hu' : r.significance? a' = some u) : a = a' := by
  obtain ⟨hlow, hhigh⟩ := mem_addresses.1 ha
  obtain ⟨hlow', hhigh'⟩ := mem_addresses.1 ha'
  have hinside : ¬ (a < r.addrLo ∨ r.addrHi < a) := by omega
  have hinside' : ¬ (a' < r.addrLo ∨ r.addrHi < a') := by omega
  have hsame := hu.trans hu'.symm
  rw [significance?, significance?, if_neg hinside, if_neg hinside'] at hsame
  by_cases hbig : r.bigOrder = true
  · rw [if_pos hbig, if_pos hbig] at hsame
    have hword := Option.some.inj hsame
    omega
  · rw [if_neg hbig, if_neg hbig] at hsame
    have hword := Option.some.inj hsame
    omega

/-- Each word has an address of the register, and the word at that address is the same one. -/
theorem wordAddress_spec (hr : r.Sound dataWidth) {u : Nat} (hu : u < r.wordCount) :
    ∃ a, r.wordAddress u = .ok a ∧ a ∈ r.addresses ∧ r.significance? a = some u := by
  have hle := hr.ordered
  have hcap := hr.addr_lt
  rw [wordCount] at hu
  -- Both orders count from the most significant word, one of them upwards.
  cases hbig : r.bigOrder with
  | true =>
    refine ⟨r.addrLo + u, ?_, mem_addresses.2 ⟨by omega, by omega⟩, ?_⟩
    · rw [wordAddress, if_pos hbig]
      exact checkedAdd_eq_ok.2 ⟨rfl, by omega⟩
    · rw [significance?, if_neg (by omega), if_pos hbig, Nat.add_sub_cancel_left]
  | false =>
    have hbig' : ¬ r.bigOrder = true := by simp [hbig]
    refine ⟨r.addrHi - u, ?_, mem_addresses.2 ⟨by omega, by omega⟩, ?_⟩
    · rw [wordAddress, if_neg hbig']
      exact checkedSub_eq_ok.2 ⟨rfl, by omega⟩
    · rw [significance?, if_neg (by omega), if_neg hbig']
      exact congrArg some (by omega)

end Register

namespace FlatEntry

/-- The flat table has all words of every register. -/
theorem mem_ofPages (pagePrefix : Bool) {pages : List Page} {page : Page} {reg : Register}
    (hpage : page ∈ pages) (hreg : reg ∈ page.regs) :
    ∃ i j, ∀ e ∈ ofRegister (canonicalName pagePrefix page reg) i j reg,
      e ∈ ofPages pagePrefix pages := by
  obtain ⟨i, hi, rfl⟩ := List.mem_iff_getElem.1 hpage
  obtain ⟨j, hj, rfl⟩ := List.mem_iff_getElem.1 hreg
  refine ⟨i, j, fun e he => ?_⟩
  refine List.mem_flatten.2 ⟨_, List.mem_mapIdx.2 ⟨i, hi, rfl⟩, ?_⟩
  exact List.mem_flatten.2 ⟨_, List.mem_mapIdx.2 ⟨j, hj, rfl⟩, he⟩

end FlatEntry

namespace Device

variable {d : Device} {page : Page} {reg : Register}

/-- A register of one word has an entry with its own name. -/
theorem exists_entry_single (hd : d.Sound) (hpage : page ∈ d.pages) (hreg : reg ∈ page.regs)
    (hone : reg.wordCount = 1) :
    ∃ e ∈ d.flat, e.name = d.registerName page reg ∧ e.addr = reg.addrLo := by
  obtain ⟨i, j, hmem⟩ := FlatEntry.mem_ofPages d.pagePrefix hpage hreg
  refine ⟨⟨d.registerName page reg, reg.addrLo, none, i, j⟩, ?_, rfl, rfl⟩
  rw [hd.flat_eq]
  apply hmem
  rw [FlatEntry.ofRegister, if_pos hone]
  exact List.mem_singleton_self _

/-- Each word of a longer register has an entry with the number of the word after the name. -/
theorem exists_entry_word (hd : d.Sound) (hpage : page ∈ d.pages) (hreg : reg ∈ page.regs)
    (hmany : reg.wordCount ≠ 1) {u a : Nat} (ha : a ∈ reg.addresses)
    (hu : reg.significance? a = some u) :
    ∃ e ∈ d.flat, e.name = d.registerName page reg ++ "_BY" ++ Text.decimal u ∧ e.addr = a := by
  obtain ⟨i, j, hmem⟩ := FlatEntry.mem_ofPages d.pagePrefix hpage hreg
  refine ⟨⟨d.registerName page reg ++ "_BY" ++ Text.decimal u, a, some u, i, j⟩, ?_, rfl, rfl⟩
  rw [hd.flat_eq]
  apply hmem
  rw [FlatEntry.ofRegister, if_neg hmany]
  refine List.mem_filterMap.2 ⟨a, ha, ?_⟩
  rw [FlatEntry.wordEntry, hu]
  rfl

end Device

end RegisterMap
