import RegisterMap.Proofs.Bus.Failure
import RegisterMap.Proofs.Device.Namespace

/-!
# Page dumps — the flat table, the dump of a page and the values of its registers

A dump of a page reads the addresses of its registers and knows nothing of words; the flat table
numbers the words of a page by their significance; reading a register moves each word to its place
by that number. All three go through the same addresses in the same order. So a dump and the part of
the table for its page go together item by item, and the words of a dump that belong to a register
hold its value.

## § What is here

* `filter_page`, `filter_reg` — the entries of a page, and of a register on it;
* `map_addr_ofRegister`, `map_addr_ofPage`, `significance_of_mem` — their addresses, and the words at
  them;
* `dumpPage_eq_ok` — what is dumped of a page that can be read;
* `sliceValue`, `readRegister_entries` — the value of a register by the entries of its words;
* `dumps_agree` — all of this together, for every page of an accepted description.
-/

namespace RegisterMap

/-- What leaves the size in a shift to the left is dropped, also when this is all of it. -/
theorem shiftLeft_eq_mod (bits a places : Nat) :
    shiftLeft bits a places = (a <<< places) % capacity bits := by
  apply Nat.eq_of_testBit_eq
  intro i
  rw [testBit_shiftLeft, testBit_mod_capacity, Nat.testBit_shiftLeft]

/-! ## § The entries of a page -/

namespace FlatEntry

variable {pagePrefix : Bool} {pages : List Page} {page : Page} {r : Register} {i j dataWidth : Nat}

/-- The entries of a page stand together in the table. -/
theorem filter_page (hpage : pages[i]? = some page) :
    (ofPages pagePrefix pages).filter (fun e => e.page = i) = ofPage pagePrefix i page := by
  refine filter_flatten_mapIdx ?_ hpage
  intro k p e he
  obtain ⟨j, reg, -, hmem⟩ := mem_flatten_mapIdx.1 he
  exact (page_reg_of_mem_ofRegister hmem).1

/-- Among them, so do the entries of a register. -/
theorem filter_reg (hreg : page.regs[j]? = some r) :
    (ofPage pagePrefix i page).filter (fun e => e.reg = j)
      = ofRegister (canonicalName pagePrefix page r) i j r :=
  filter_flatten_mapIdx (fun _ _ _ he => (page_reg_of_mem_ofRegister he).2) hreg

/-- The entries of a register have its addresses, in their order. -/
theorem map_addr_ofRegister (hordered : r.addrLo ≤ r.addrHi) (base : String) (i j : Nat) :
    (ofRegister base i j r).map FlatEntry.addr = r.addresses := by
  rw [ofRegister_eq hordered, listed, Register.addresses_eq_map hordered]
  split
  · rename_i hone
    rw [hone]
    rfl
  · rw [List.map_map]
    rfl

theorem map_addr_ofPage (hsound : page.Sound dataWidth) (pagePrefix : Bool) (i : Nat) :
    (ofPage pagePrefix i page).map FlatEntry.addr = page.regs.flatMap Register.addresses :=
  map_flatten_mapIdx fun j _ hreg => map_addr_ofRegister (hsound.regs _ hreg).ordered _ i j

/-- The number of an entry is that of the word at its address; a single word is word 0. -/
theorem significance_of_mem (hordered : r.addrLo ≤ r.addrHi) {base : String} {e : FlatEntry}
    (he : e ∈ ofRegister base i j r) : r.significance? e.addr = some (e.word.getD 0) := by
  rcases mem_ofRegister.1 he with ⟨hone, rfl⟩ | ⟨-, a, -, u, hu, rfl⟩
  · have hword := Register.significance_wordAbove hordered (Nat.lt_of_lt_of_eq Nat.one_pos hone.symm)
    rw [Register.wordAbove, hone] at hword
    simpa using hword
  · exact hu

end FlatEntry

/-! ## § Dumps -/

namespace Device

variable {d : Device} {page : Page} {r : Register} {b : Bus}

/-- A page can be dumped when each address of its registers holds a word. -/
theorem dumpPage_eq_ok {dump : List (Nat × Nat)} {after : Bus} :
    d.dumpPage page b = (.ok dump, after) ↔
      (∀ a ∈ page.regs.flatMap Register.addresses, b.word? a ≠ none) ∧
      dump = (page.regs.flatMap Register.addresses).map
        (fun a => (a, (b.word? a).getD 0 &&& d.dataMask)) ∧
      after = b.recorded ((page.regs.flatMap Register.addresses).map Access.read) := by
  by_cases hall : ∀ a ∈ page.regs.flatMap Register.addresses, b.word? a ≠ none
  · have hrun : d.dumpPage page b = _ :=
      Transfer.each_reading (fun a w => (a, w &&& d.dataMask)) _ fun a ha =>
        Bus.word?_of_ne_none (hall a ha)
    rw [hrun, Prod.mk.injEq, Except.ok.injEq]
    exact ⟨fun ⟨hdump, hafter⟩ => ⟨hall, hdump.symm, hafter.symm⟩,
      fun ⟨_, hdump, hafter⟩ => ⟨hdump.symm, hafter.symm⟩⟩
  · refine iff_of_false ?_ fun h => hall h.1
    simp only [not_forall, not_not, exists_prop] at hall
    obtain ⟨_, a, _, _, _, _, hfail⟩ := dumpPage_absent d hall
    rw [hfail]
    intro h
    cases congrArg Prod.fst h

/-- So it is dumped as its part of the flat table, entry by entry. -/
theorem dumpPage_entries (hd : d.Sound) {i : Nat} (hpage : d.pages[i]? = some page)
    {dump : List (Nat × Nat)} {after : Bus} :
    d.dumpPage page b = (.ok dump, after) ↔
      (∀ e ∈ d.flat.filter fun e => e.page = i, b.word? e.addr ≠ none) ∧
      dump = (d.flat.filter fun e => e.page = i).map
        (fun e => (e.addr, (b.word? e.addr).getD 0 &&& d.dataMask)) ∧
      after = b.recorded ((d.flat.filter fun e => e.page = i).map fun e => .read e.addr) := by
  have hsound := hd.pages page (List.mem_of_getElem? hpage)
  have haddresses : page.regs.flatMap Register.addresses
      = (d.flat.filter fun e => e.page = i).map FlatEntry.addr := by
    rw [hd.flat_eq, FlatEntry.filter_page hpage, FlatEntry.map_addr_ofPage hsound]
  rw [dumpPage_eq_ok, haddresses, List.forall_mem_map, List.map_map, List.map_map]
  rfl

/-! ## § Values in a dump -/

/-- **sliceValue** — the value of a register of the words that a dump has for its entries. Each word
is moved to its place by the number in its entry, an entry without a number stands for word 0, and
bits at 128 and above are dropped. -/
def sliceValue (d : Device) (r : Register) (slice : List (FlatEntry × Nat × Nat)) : Nat :=
  unionOf (slice.map fun x =>
    (x.2.2 <<< (d.dataWidth * (r.wordCount - 1 - x.1.word.getD 0))) % capacity 128)

/-- A register is read as the value of the words at the addresses of its entries. -/
theorem readRegister_entries (hordered : r.addrLo ≤ r.addrHi) (base : String) (i j : Nat)
    (word : Nat → Nat) (hword : ∀ a ∈ r.addresses, b.word? a = some (word a)) :
    (d.readRegister r b).1 = .ok (d.sliceValue r ((FlatEntry.ofRegister base i j r).map fun e =>
      (e, e.addr, word e.addr &&& d.dataMask))) := by
  rw [readRegister_run d r word hword, sliceValue,
    ← FlatEntry.map_addr_ofRegister hordered base i j]
  simp only [List.map_map]
  apply congrArg fun parts => Except.ok (unionOf parts)
  apply List.map_congr_left
  intro e he
  rw [Function.comp_apply, Function.comp_apply, wordPart,
    FlatEntry.significance_of_mem hordered he]
  exact shiftLeft_eq_mod _ _ _

/-- The entries of a register and its words in a dump, among those of its page. -/
theorem filter_zip_dump {i j : Nat} (hpage : d.pages[i]? = some page)
    (hreg : page.regs[j]? = some r) (hd : d.Sound) (word : FlatEntry → Nat × Nat) :
    ((d.flat.filter fun e => e.page = i).zip ((d.flat.filter fun e => e.page = i).map word)).filter
        (fun x => x.1.reg = j)
      = (FlatEntry.ofRegister (d.registerName page r) i j r).map fun e => (e, word e) := by
  rw [← List.map_prod_left_eq_zip, List.filter_map, hd.flat_eq, FlatEntry.filter_page hpage]
  exact congrArg _ (FlatEntry.filter_reg hreg)

/-- **Dumps agree with the flat table and with reads.** For every page of an accepted description,
by its place, and every bus. The page can be dumped exactly when the address of each of its entries
in the flat table holds a word. The dump has one pair for each of these entries, in their order: the
address of the entry with the word there, cut to the data width. And for every register of the page,
its words in the dump, moved by the numbers in its entries, give the value that is read on the same
bus, be it before the dump or after. -/
theorem dumps_agree {text : String} (haccepted : (ofText text).result = .ok d) {i : Nat}
    (hpage : d.pages[i]? = some page) (b : Bus) :
    ((∃ dump after, d.dumpPage page b = (.ok dump, after)) ↔
      ∀ e ∈ d.flat.filter fun e => e.page = i, b.word? e.addr ≠ none) ∧
    ∀ dump after, d.dumpPage page b = (.ok dump, after) →
      List.Forall₂ (fun e x => x.1 = e.addr ∧
        ∃ word, b.word? e.addr = some word ∧ x.2 = word &&& d.dataMask)
        (d.flat.filter fun e => e.page = i) dump ∧
      ∀ j r, page.regs[j]? = some r →
        let slice := ((d.flat.filter fun e => e.page = i).zip dump).filter fun x => x.1.reg = j
        (d.readRegister r b).1 = .ok (d.sliceValue r slice) ∧
        (d.readRegister r after).1 = .ok (d.sliceValue r slice) := by
  have hd := sound_of_ofText haccepted
  refine ⟨⟨?_, ?_⟩, ?_⟩
  · rintro ⟨dump, after, h⟩
    exact ((dumpPage_entries hd hpage).1 h).1
  · intro hall
    exact ⟨_, _, (dumpPage_entries hd hpage).2 ⟨hall, rfl, rfl⟩⟩
  intro dump after h
  obtain ⟨hall, rfl, rfl⟩ := (dumpPage_entries hd hpage).1 h
  refine ⟨?_, ?_⟩
  · rw [List.forall₂_map_right_iff, List.forall₂_same]
    intro e he
    exact ⟨rfl, _, Bus.word?_of_ne_none (hall e he), rfl⟩
  · intro j r hreg slice
    have hslice : slice = _ := filter_zip_dump hpage hreg hd _
    have hordered := ((hd.pages page (List.mem_of_getElem? hpage)).regs r
      (List.mem_of_getElem? hreg)).ordered
    -- Each address of the register is that of one of its entries, which are on the page.
    have hword : ∀ a ∈ r.addresses, b.word? a = some ((b.word? a).getD 0) := by
      intro a ha
      rw [← FlatEntry.map_addr_ofRegister hordered (d.registerName page r) i j] at ha
      obtain ⟨e, he, rfl⟩ := List.mem_map.1 ha
      have hentry : e ∈ d.flat := by
        rw [hd.flat_eq]
        exact FlatEntry.mem_ofPages_iff.2 ⟨i, page, hpage, j, r, hreg, he⟩
      have hplace := (FlatEntry.page_reg_of_mem_ofRegister he).1
      exact Bus.word?_of_ne_none (hall e (List.mem_filter.2 ⟨hentry, decide_eq_true hplace⟩))
    rw [hslice]
    exact ⟨readRegister_entries hordered _ i j _ hword,
      readRegister_entries hordered _ i j (fun a => (b.word? a).getD 0) hword⟩

end Device

/-- **loaded** — a bus with a word at each address; two of them have bits above the data width. -/
def Tuner.loaded : Bus where
  words := [(0x10, 0x7bc), (0x11, 0xf000000000000007), (0x12, 5),
    (0xffffffffffffffff, 0xffffffffffffffff)]

/-- The page of a register of three words and one at the last address: the words of the first one
are moved by 120, 60 and 0 bits, and what is above its 128 bits is dropped. -/
theorem Device.dumps_agree_tuner :
    ∃ after, Tuner.device.dumpPage Tuner.page Tuner.loaded
        = (.ok [(0x10, 0x7bc), (0x11, 7), (0x12, 5), (0xffffffffffffffff, 0xfffffffffffffff)],
          after) ∧
      (Tuner.device.readRegister Tuner.long after).1 = .ok (0xbc <<< 120 ||| 7 <<< 60 ||| 5) ∧
      (Tuner.device.readRegister Tuner.last after).1 = .ok 0xfffffffffffffff := by
  obtain ⟨hready, hagree⟩ := dumps_agree Tuner.accepted (i := 0) rfl Tuner.loaded
  obtain ⟨dump, after, hrun⟩ := hready.2 (by decide)
  have hdump : dump
      = [(0x10, 0x7bc), (0x11, 7), (0x12, 5), (0xffffffffffffffff, 0xfffffffffffffff)] :=
    Except.ok.inj ((congrArg Prod.fst hrun).symm.trans (by decide))
  subst hdump
  obtain ⟨-, hvalues⟩ := hagree _ after hrun
  exact ⟨after, hrun, (hvalues 0 Tuner.long rfl).2.trans (congrArg Except.ok (by decide)),
    (hvalues 1 Tuner.last rfl).2.trans (congrArg Except.ok (by decide))⟩

end RegisterMap
