import RegisterMap.Proofs.Bus.Write
import RegisterMap.Proofs.Device.Namespace

/-!
# Word order — from two addresses to the words of a register

A register of several words names two addresses: the first one for its most significant word, the
last one for its least significant word. Everything else follows this order, whichever address is
the lower one: the address of each word, the word at each address, the entries of the flat table,
and the words that a bus holds after the register is written.

## § What is here

* `significance_eq_some_iff`, `exists_significance_iff` — the word at an address, and the address of
  a word;
* `range_of_build`, `wordAddress_first`, `wordAddress_last` — the two ends;
* `Device.entry_word` — the entry of a word;
* `word_order` — all of this together, for every register with two addresses.
-/

namespace RegisterMap

namespace Register

variable {dataWidth : Nat} {r : Register}

/-! ## § Words and addresses -/

/-- The addresses with a word are those between the two ends. -/
theorem exists_significance_iff {a : Nat} :
    (∃ u, r.significance? a = some u) ↔ r.addrLo ≤ a ∧ a ≤ r.addrHi := by
  refine ⟨?_, fun h => ?_⟩
  · intro ⟨u, hu⟩
    by_cases houtside : a < r.addrLo ∨ r.addrHi < a
    · rw [significance?, if_pos houtside] at hu
      cases hu
    · omega
  · obtain ⟨u, -, hu⟩ := exists_significance (mem_addresses.2 h)
    exact ⟨u, hu⟩

/-- A word stands at an address exactly when it has this address. -/
theorem significance_eq_some_iff (hr : r.Sound dataWidth) {a u : Nat} :
    r.significance? a = some u ↔ u < r.wordCount ∧ r.wordAddress u = .ok a := by
  refine ⟨fun hu => ?_, fun ⟨hlt, haddress⟩ => ?_⟩
  · have ha : a ∈ r.addresses := mem_addresses.2 (exists_significance_iff.1 ⟨u, hu⟩)
    obtain ⟨v, hv, hsame⟩ := exists_significance ha
    obtain rfl : u = v := Option.some.inj (hu.symm.trans hsame)
    obtain ⟨b, haddress, hb, hword⟩ := wordAddress_spec hr hv
    -- Both addresses have the same word, so they are the same address.
    obtain rfl := eq_of_significance ha hb hu hword
    exact ⟨hv, haddress⟩
  · obtain ⟨b, hb, -, hword⟩ := wordAddress_spec hr hlt
    obtain rfl : a = b := Except.ok.inj (haddress.symm.trans hb)
    exact hword

/-! ## § The two ends -/

section Ends

variable {draft : Draft.Register} {first last : Nat}

/-- The lower one of the two addresses is where a register starts. -/
theorem range_of_build (hbuilt : (build dataWidth draft).result = .ok r)
    (hends : draft.addr.Ends first last) :
    r.addrLo = min first last ∧ r.addrHi = max first last ∧
      r.bigOrder = decide (first < last) := by
  obtain ⟨-, range, hrange, fields, -, rfl⟩ := build_eq_ok.1 hbuilt
  obtain ⟨first', last', hends', -, rfl⟩ := (AddressRange.ofScalar_eq_ok _).1 hrange
  obtain ⟨rfl, rfl⟩ := hends.unique hends'
  show (AddressRange.ofEnds first last).lo = _ ∧ (AddressRange.ofEnds first last).hi = _ ∧
    (AddressRange.ofEnds first last).bigOrder = _
  by_cases hlt : first < last
  · simp [AddressRange.ofEnds, hlt, Nat.le_of_lt hlt]
  · simp [AddressRange.ofEnds, hlt, Nat.le_of_not_lt hlt]

theorem wordCount_of_build (hbuilt : (build dataWidth draft).result = .ok r)
    (hends : draft.addr.Ends first last) : r.wordCount = Nat.dist first last + 1 := by
  obtain ⟨hlow, hhigh, -⟩ := range_of_build hbuilt hends
  rw [wordCount, hlow, hhigh, Nat.dist]
  omega

/-- The most significant word has the first address. -/
theorem wordAddress_first (hbuilt : (build dataWidth draft).result = .ok r)
    (hends : draft.addr.Ends first last) : r.wordAddress 0 = .ok first := by
  obtain ⟨hlow, hhigh, hbig⟩ := range_of_build hbuilt hends
  have hcap := hends.lt.1
  rw [wordAddress, hbig, hlow, hhigh]
  by_cases hlt : first < last
  · simp only [decide_eq_true hlt, if_true]
    exact checkedAdd_eq_ok.2 ⟨by omega, by omega⟩
  · simp only [decide_eq_false hlt, Bool.false_eq_true, if_false]
    exact checkedSub_eq_ok.2 ⟨by omega, Nat.zero_le _⟩

/-- The least significant word has the last address. -/
theorem wordAddress_last (hbuilt : (build dataWidth draft).result = .ok r)
    (hends : draft.addr.Ends first last) : r.wordAddress (r.wordCount - 1) = .ok last := by
  obtain ⟨hlow, hhigh, hbig⟩ := range_of_build hbuilt hends
  have hcap := hends.lt.2
  rw [wordAddress, wordCount, hbig, hlow, hhigh]
  by_cases hlt : first < last
  · simp only [decide_eq_true hlt, if_true]
    exact checkedAdd_eq_ok.2 ⟨by omega, by omega⟩
  · simp only [decide_eq_false hlt, Bool.false_eq_true, if_false]
    exact checkedSub_eq_ok.2 ⟨by omega, by omega⟩

end Ends

end Register

/-! ## § The words of a device -/

namespace Device

variable {text : String} {d : Device} {page : Page} {reg : Register}

/-- A longer register has an entry for each word, and it is found by the number of the word. -/
theorem entry_word (haccepted : (ofText text).result = .ok d) (hpage : page ∈ d.pages)
    (hreg : reg ∈ page.regs) (hmany : reg.wordCount ≠ 1) {u a : Nat}
    (hu : reg.significance? a = some u) :
    ∃ e, d.entry (d.registerName page reg ++ "_BY" ++ Text.decimal u) = .ok e ∧ e.addr = a := by
  have ha : a ∈ reg.addresses :=
    Register.mem_addresses.2 (Register.exists_significance_iff.1 ⟨u, hu⟩)
  obtain ⟨e, he, hname, haddr⟩ :=
    exists_entry_word (sound_of_ofText haccepted) hpage hreg hmany ha hu
  obtain ⟨hnodup, hindex⟩ := flat_of_ofText haccepted
  exact ⟨e, hname ▸ entry_of_mem hindex hnodup he, haddr⟩

end Device

/-- **The first address is that of the most significant word.** A register that names two different
addresses has its words from the first one to the last one, in whichever direction that is. Each
word has an address between them and is the word at this address, and no other address has a word.
In an accepted device the entry with the number of a word has its address, and after a value is
written to the register, the word of the value that starts so many words above the last one is
there. -/
theorem Register.word_order {dataWidth : Nat} {draft : Draft.Register} {r : Register}
    (hbuilt : (build dataWidth draft).result = .ok r) {first last : Nat}
    (hends : draft.addr.Ends first last) (hne : first ≠ last) :
    r.wordCount = Nat.dist first last + 1 ∧
    r.wordAddress 0 = .ok first ∧ r.wordAddress (r.wordCount - 1) = .ok last ∧
    (∀ u, u < r.wordCount → ∃ a, r.wordAddress u = .ok a ∧ r.addrLo ≤ a ∧ a ≤ r.addrHi ∧
      r.significance? a = some u) ∧
    (∀ a, (∃ u, r.significance? a = some u) ↔ r.addrLo ≤ a ∧ a ≤ r.addrHi) ∧
    (∀ a u, r.significance? a = some u → u < r.wordCount ∧ r.wordAddress u = .ok a) ∧
    ∀ text d, (Device.ofText text).result = .ok d → ∀ page ∈ d.pages, r ∈ page.regs →
      ∀ u a, u < r.wordCount → r.wordAddress u = .ok a →
        (∃ e, d.entry (d.registerName page r ++ "_BY" ++ Text.decimal u) = .ok e ∧ e.addr = a) ∧
        ∀ value, value < capacity 128 → ∀ bus : Bus,
          (∀ x ∈ r.addresses, bus.isLocked x = false) →
          (d.writeRegister r value bus).1 = .ok () ∧
          (d.writeRegister r value bus).2.word? a
            = some ((value >>> (d.dataWidth * (r.wordCount - 1 - u))) % capacity d.dataWidth) := by
  have hr := sound_of_build hbuilt
  have hcount := wordCount_of_build hbuilt hends
  have hmany : r.wordCount ≠ 1 := by
    rw [hcount, Nat.dist]
    omega
  refine ⟨hcount, wordAddress_first hbuilt hends, wordAddress_last hbuilt hends, ?_,
    fun a => exists_significance_iff, fun a u => (significance_eq_some_iff hr).1, ?_⟩
  · intro u hu
    obtain ⟨a, haddress, ha, hword⟩ := wordAddress_spec hr hu
    obtain ⟨hlow, hhigh⟩ := mem_addresses.1 ha
    exact ⟨a, haddress, hlow, hhigh, hword⟩
  · intro text d haccepted page hpage hreg u a hu haddress
    have hword := (significance_eq_some_iff hr).2 ⟨hu, haddress⟩
    refine ⟨Device.entry_word haccepted hpage hreg hmany hword, ?_⟩
    intro value hvalue bus hfree
    obtain ⟨hok, hwords⟩ := Device.writeRegister_spec d r value hfree
    have ha : a ∈ r.addresses := mem_addresses.2 (exists_significance_iff.1 ⟨u, hword⟩)
    refine ⟨hok, ?_⟩
    rw [hwords, if_pos ha, Device.wordAt_eq (Device.sound_of_ofText haccepted) hvalue hword]
    rfl

namespace Tuner

/-- **longDraft** — the register of three words as it is described. -/
def longDraft : Draft.Register :=
  ⟨"LONG", .text "0x10:0x12",
    some [⟨"MIX", none, .text "0,61,3", some [(.number (.integer 7), .text "all")]⟩,
      ⟨"TOP", none, .text "127:100", none⟩]⟩

theorem built_long : (Register.build 60 longDraft).result = .ok long :=
  Outcome.toOption_eq_some.1 (by decide +kernel)

theorem ends_long : longDraft.addr.Ends 0x10 0x12 :=
  (AddressRange.readEnds_chars_eq_ok "").1 (Outcome.toOption_eq_some.1 (by decide))

end Tuner

/-- In the register of three words, the most significant word is the one at the lowest address. -/
theorem Register.word_order_tuner :
    Tuner.long.wordAddress 0 = .ok 0x10 ∧ Tuner.long.wordAddress 2 = .ok 0x12 ∧
      (∃ e, Tuner.device.entry "LONG_BY0" = .ok e ∧ e.addr = 0x10) ∧
      (Tuner.device.writeRegister Tuner.long (0xbc <<< 120) {}).2.word? 0x10 = some 0xbc := by
  obtain ⟨-, hfirst, hlast, -, -, -, hdevice⟩ :=
    word_order Tuner.built_long Tuner.ends_long (by decide)
  obtain ⟨hentry, hwrite⟩ :=
    hdevice Tuner.text Tuner.device Tuner.accepted Tuner.page Tuner.page_mem Tuner.long_mem 0 0x10
      (by decide) hfirst
  obtain ⟨-, hword⟩ := hwrite (0xbc <<< 120) (by decide) {} fun _ _ => rfl
  exact ⟨hfirst, hlast, hentry, hword.trans (congrArg some (by decide))⟩

end RegisterMap
