import RegisterMap.Proofs.Bus.Read
import RegisterMap.Proofs.Device.Combine
import RegisterMap.Proofs.Device.Invariant

/-!
# Fields over a bus — what is written to the fields is read from them

A register is written as the bits of its encoded fields, word by word, and read again the same way.
Fields without a common bit and inside the 128 bits of a value come back as they were, each cut to
its width.

## § What is here

* `readRegister_of_write` — the value that is read after a register is written;
* `fields_survive` — so disjoint fields keep their values over a bus.
-/

namespace RegisterMap

namespace Device

variable {d : Device} {r : Register}

/-- A register that is written is read as its value, cut to its words and to the bits of a value. -/
theorem readRegister_of_write (hd : d.Sound) (hr : r.Sound d.dataWidth) (value : Nat) {b : Bus}
    (hfree : ∀ a ∈ r.addresses, b.isLocked a = false) :
    (d.readRegister r (d.writeRegister r value b).2).1
      = .ok (value % capacity (min BitSpec.valueBits (d.dataWidth * r.wordCount))) := by
  obtain ⟨-, hwords⟩ := writeRegister_spec d r value hfree
  apply readRegister_of_words hd hr
  intro a ha
  rw [hwords, if_pos ha]

/-- **Fields survive the bus.** A register of an accepted description whose fields share no bit and
end below bit 128 is written with the bits of its encoded fields, by any bus that has none of its
addresses locked. What is read then is decoded to the names of the fields, in their order, each with
its value cut to its width. -/
theorem fields_survive {text : String} (haccepted : (ofText text).result = .ok d) {page : Page}
    (hpage : page ∈ d.pages) (hreg : r ∈ page.regs) (hdisjoint : r.fields.Pairwise Field.Disjoint)
    (hhi : ∀ f ∈ r.fields, f.bits.hi ≤ 127) {values : List Nat}
    (hlength : values.length = r.fields.length) {b : Bus}
    (hfree : ∀ a ∈ r.addresses, b.isLocked a = false) :
    (∀ f ∈ r.fields, f.bits.width = .ok f.bits.size) ∧
    ∃ es value, (r.fields.zip values).mapM (fun x => x.1.encode x.2) = .ok es ∧
      (d.writeRegister r (unionOf es) b).1 = .ok () ∧
      (d.readRegister r (d.writeRegister r (unionOf es) b).2).1 = .ok value ∧
      r.decodeFields value
        = .ok (r.fields.zipWith (fun f v => (f.name, v % capacity f.bits.size)) values) := by
  have hd := sound_of_ofText haccepted
  have hr := (hd.pages page hpage).regs r hreg
  have htop : ∀ f ∈ r.fields, f.bits.hi < BitSpec.valueBits := fun f hf =>
    Nat.lt_succ_of_le (hhi f hf)
  obtain ⟨es, hes, hunion⟩ := Register.encode_combine hr htop values
  refine ⟨?_, es, r.combine values, hes, (writeRegister_spec d r _ hfree).1, ?_, ?_⟩
  · intro f hf
    have hspan : f.bits.hi - f.bits.lo < BitSpec.valueBits := by
      have hlast := htop f hf
      omega
    have hproper := (hr.fields f hf).proper
    exact BitSpec.width_eq_ok hproper (BitSpec.movable_of_span hproper hspan)
  · -- The fields lie inside the words and inside the value, so nothing of them is cut off.
    rw [readRegister_of_write hd hr _ hfree, hunion,
      Nat.mod_eq_of_lt (Register.combine_lt hr hd.dataWidth_pos htop values)]
  · exact Register.decodeFields_combine hr htop hdisjoint hlength

theorem disjoint_tuner : Tuner.long.fields.Pairwise Field.Disjoint := by decide +kernel

/-- A field up to bit 127 and bits that are scattered over two words come back over a bus. -/
theorem fields_survive_tuner :
    Tuner.long.fields.Pairwise Field.Disjoint ∧ (∀ f ∈ Tuner.long.fields, f.bits.hi ≤ 127) ∧
    (∀ f ∈ Tuner.long.fields, f.bits.width = .ok f.bits.size) ∧
    ∃ es value, (Tuner.long.fields.zip [0xabcdef1, 13]).mapM (fun x => x.1.encode x.2) = .ok es ∧
      (Tuner.device.writeRegister Tuner.long (unionOf es) {}).1 = .ok () ∧
      (Tuner.device.readRegister Tuner.long
        (Tuner.device.writeRegister Tuner.long (unionOf es) {}).2).1 = .ok value ∧
      Tuner.long.decodeFields value = .ok [("TOP", 0xabcdef1), ("MIX", 5)] :=
  ⟨disjoint_tuner, by decide,
    fields_survive (b := {}) Tuner.accepted Tuner.page_mem
      Tuner.long_mem disjoint_tuner (by decide) rfl (fun _ _ => rfl)⟩

end Device

end RegisterMap
