import RegisterMap.Proofs.Bits.Place
import RegisterMap.Proofs.Text.Integer

/-!
# Written forms — a specification is read from its own text

A position is written as itself, a range with a colon and a list with commas. No digit is one of
these separators, so splitting finds the positions again; the number of parts tells the three forms
apart. What is read from any text can be written, so the written form is a name for it.

## § What is here

* `splitOn_join` — joined texts fall into the same texts again;
* `readPosition_toDigits`, `parse_pair`, `parse_joined` — each form is read as it is meant;
* `WellFormed` — specifications with positions of 32 bits;
* `parse_render`, `wellFormed_of_parse` — they have a text, and no text gives another one;
* `text_round_trip` — so texts mean the same when their written forms are the same.
-/

namespace RegisterMap

namespace Text

/-! ## § Joined texts -/

/-- A character of a joined text is one of the separator or of a part. -/
theorem mem_join {sep : String} {parts : List String} {c : Char}
    (h : c ∈ (join sep parts).toList) : c ∈ sep.toList ∨ ∃ p ∈ parts, c ∈ p.toList := by
  induction parts with
  | nil => cases h
  | cons p parts ih =>
    cases parts with
    | nil => exact .inr ⟨p, List.mem_singleton_self p, h⟩
    | cons q rest =>
      rw [join, String.toList_append, String.toList_append, List.mem_append, List.mem_append] at h
      rcases h with (hfirst | hsep) | hrest
      · exact .inr ⟨p, List.mem_cons_self, hfirst⟩
      · exact .inl hsep
      · exact (ih hrest).imp_right fun ⟨x, hx, hc⟩ => ⟨x, List.mem_cons_of_mem _ hx, hc⟩

/-- Joined texts without the separator are split into the same texts. -/
theorem splitOn_join {c : Char} {sep : String} (hsep : sep.toList = [c]) {parts : List String}
    (hne : parts ≠ []) (hplain : ∀ p ∈ parts, c ∉ p.toList) :
    splitOn c (join sep parts).toList = parts.map String.toList := by
  induction parts with
  | nil => exact absurd rfl hne
  | cons p parts ih =>
    obtain ⟨hp, hrest⟩ := List.forall_mem_cons.1 hplain
    cases parts with
    | nil => exact splitOn_eq_singleton hp
    | cons q rest =>
      rw [join, String.toList_append, String.toList_append, hsep, List.append_assoc,
        List.singleton_append, splitOn_append hp, ih (List.cons_ne_nil q rest) hrest]
      rfl

/-- A text that is split into several parts has the separator. -/
theorem mem_of_two_le_length {c : Char} {cs : List Char} (h : 2 ≤ (splitOn c cs).length) :
    c ∈ cs := by
  by_contra hnot
  rw [splitOn_eq_singleton hnot] at h
  exact absurd h (by simp)

end Text

namespace BitSpec

open Outcome

/-! ## § Forms -/

/-- No digit is a separator. -/
theorem separator_not_mem {c : Char} (hc : c.toNat < 48 ∨ 57 < c.toNat) (n : Nat) :
    c ∉ (Text.decimal n).toList := by
  rw [Text.decimal, String.toList_ofList]
  intro hmem
  have hcode := Text.toNat_of_mem_toDigits hmem
  omega

/-- A position is read from its digits. -/
theorem readPosition_toDigits (text : List Char) {p : Nat} (hp : p < capacity 32) :
    readPosition text (Text.decimal p).toList = .ok p := by
  rw [Text.decimal, String.toList_ofList, readPosition,
    Text.trim_eq_self fun _ => Text.isBlank_of_mem_toDigits, Text.readNumeral_toDigits hp]

/-- A position that is read has 32 bits. -/
theorem lt_of_readPosition {text position : List Char} {p : Nat}
    (h : readPosition text position = .ok p) : p < capacity 32 := by
  unfold readPosition at h
  split at h
  · rename_i n hn
    obtain rfl := Except.ok.inj h
    exact Text.readNumeral_lt hn
  · cases h

/-- Different positions are not taken for repeated ones. -/
theorem repeated?_eq_none {before ps : List Nat} (hps : ps.Nodup) (hnew : ∀ p ∈ ps, p ∉ before) :
    repeated? before ps = none := by
  induction ps generalizing before with
  | nil => rfl
  | cons p ps ih =>
    obtain ⟨hp, hps⟩ := List.nodup_cons.1 hps
    obtain ⟨hfirst, hrest⟩ := List.forall_mem_cons.1 hnew
    rw [repeated?, if_neg (by simpa using hfirst)]
    apply ih hps
    intro q hq hbefore
    rcases List.mem_cons.1 hbefore with rfl | hbefore
    · exact hp hq
    · exact hrest q hq hbefore

/-- Two or more different positions are a list. -/
theorem ofPositions_of_nodup (text : List Char) {ps : List Nat} (htwo : 2 ≤ ps.length)
    (hps : ps.Nodup) : ofPositions text ps = .ok (list ps) := by
  unfold ofPositions
  rw [repeated?_eq_none hps fun p _ => List.not_mem_nil]
  match ps with
  | [] => rfl
  | [p] => exact absurd htwo (by simp)
  | p :: q :: rest => rfl

/-- A text of digits and separators has no blanks. -/
theorem trim_written {cs : List Char}
    (h : ∀ c ∈ cs, c = ',' ∨ c = ':' ∨ ∃ n, c ∈ (Text.decimal n).toList) : Text.trim cs = cs := by
  apply Text.trim_eq_self
  intro c hc
  rcases h c hc with rfl | rfl | ⟨n, hn⟩
  · decide
  · decide
  · rw [Text.decimal, String.toList_ofList] at hn
    exact Text.isBlank_of_mem_toDigits hn

/-- One number is read as one position. -/
theorem parse_decimal {p : Nat} (hp : p < capacity 32) :
    parse (Text.decimal p) = .ok (range p p) := by
  have hparts : rangeParts (Text.decimal p).toList = [(Text.decimal p).toList] := by
    rw [rangeParts, Text.splitOn_eq_singleton (separator_not_mem (by decide) p)]
    exact Text.splitOn_eq_singleton (separator_not_mem (by decide) p)
  rw [parse, trim_written fun c hc => .inr (.inr ⟨p, hc⟩), ofChars,
    if_neg (separator_not_mem (by decide) p), hparts]
  exact bind_eq_ok.2 ⟨p, readPosition_toDigits _ hp, rfl⟩

/-- Two numbers with a colon between them are read as a range, from high to low. -/
theorem parse_pair {hi lo : Nat} (hle : lo ≤ hi) (hhi : hi < capacity 32) :
    parse (Text.decimal hi ++ ":" ++ Text.decimal lo) = .ok (range hi lo) := by
  have htext : (Text.decimal hi ++ ":" ++ Text.decimal lo).toList
      = (Text.decimal hi).toList ++ ':' :: (Text.decimal lo).toList := by
    rw [String.toList_append, String.toList_append, List.append_assoc]
    rfl
  have hmem : ∀ c ∈ (Text.decimal hi).toList ++ ':' :: (Text.decimal lo).toList,
      c = ':' ∨ ∃ n, c ∈ (Text.decimal n).toList := by
    intro c hc
    rcases List.mem_append.1 hc with hhigh | hrest
    · exact .inr ⟨hi, hhigh⟩
    · exact (List.mem_cons.1 hrest).imp_right fun hlow => ⟨lo, hlow⟩
  have hcomma : ',' ∉ (Text.decimal hi).toList ++ ':' :: (Text.decimal lo).toList := by
    intro hc
    rcases hmem ',' hc with hcolon | ⟨n, hn⟩
    · exact absurd hcolon (by decide)
    · exact separator_not_mem (by decide) n hn
  have hparts : rangeParts ((Text.decimal hi).toList ++ ':' :: (Text.decimal lo).toList)
      = [(Text.decimal hi).toList, (Text.decimal lo).toList] := by
    rw [rangeParts, Text.splitOn_eq_pair_iff.2 ⟨rfl, separator_not_mem (by decide) hi,
      separator_not_mem (by decide) lo⟩]
  rw [parse, htext, trim_written fun c hc => .inr (hmem c hc), ofChars, if_neg hcomma, hparts]
  exact bind_eq_ok.2 ⟨hi, readPosition_toDigits _ hhi,
    bind_eq_ok.2 ⟨lo, readPosition_toDigits _ (by omega), if_neg (Nat.not_lt.2 hle)⟩⟩

/-- Different numbers with commas between them are read as a list. -/
theorem parse_joined {ps : List Nat} (htwo : 2 ≤ ps.length) (hps : ps.Nodup)
    (hlt : ∀ p ∈ ps, p < capacity 32) :
    parse (Text.join "," (ps.map Text.decimal)) = .ok (list ps) := by
  have hne : ps.map Text.decimal ≠ [] := by
    intro h
    rw [List.map_eq_nil_iff.1 h] at htwo
    exact absurd htwo (by decide)
  have hsplit : Text.splitOn ',' (Text.join "," (ps.map Text.decimal)).toList
      = ps.map fun p => (Text.decimal p).toList := by
    rw [Text.splitOn_join rfl hne, List.map_map]
    · rfl
    · intro s hs
      obtain ⟨p, -, rfl⟩ := List.mem_map.1 hs
      exact separator_not_mem (by decide) p
  have hcomma : ',' ∈ (Text.join "," (ps.map Text.decimal)).toList := by
    apply Text.mem_of_two_le_length
    rwa [hsplit, List.length_map]
  have htrim : Text.trim (Text.join "," (ps.map Text.decimal)).toList
      = (Text.join "," (ps.map Text.decimal)).toList := by
    apply trim_written
    intro c hc
    rcases Text.mem_join hc with hsep | ⟨s, hs, hdigit⟩
    · exact .inl (List.mem_singleton.1 hsep)
    · obtain ⟨p, -, rfl⟩ := List.mem_map.1 hs
      exact .inr (.inr ⟨p, hdigit⟩)
  have hread : ∀ text, (ps.map fun p => (Text.decimal p).toList).mapM (readPosition text)
      = .ok ps := by
    intro text
    rw [mapM_eq_ok, List.forall₂_map_left_iff, List.forall₂_same]
    exact fun p hp => readPosition_toDigits text (hlt p hp)
  rw [parse, htrim, ofChars, if_pos hcomma, hsplit]
  exact bind_eq_ok.2 ⟨ps, hread _, ofPositions_of_nodup _ htwo hps⟩

/-! ## § Round trip -/

/-- **InSize** — all positions have 32 bits. -/
def InSize : BitSpec → Prop
  | range hi _ => hi < capacity 32
  | list ps => ∀ p ∈ ps, p < capacity 32

/-- **WellFormed** — a range from high to low, or at least two different positions, all of them with
32 bits. -/
structure WellFormed (s : BitSpec) : Prop where
  proper : s.Proper
  inSize : s.InSize

/-- A well-formed specification is read from its written form. -/
theorem parse_render {s : BitSpec} (hs : s.WellFormed) : parse s.render = .ok s := by
  cases s with
  | range hi lo =>
    have hle : lo ≤ hi := hs.proper
    have hhi : hi < capacity 32 := hs.inSize
    rw [render]
    split
    · rename_i hsame
      subst hsame
      exact parse_decimal hhi
    · exact parse_pair hle hhi
  | list ps =>
    obtain ⟨htwo, hps⟩ : 2 ≤ ps.length ∧ ps.Nodup := hs.proper
    exact parse_joined htwo hps hs.inSize

theorem inSize_of_ofPositions {text : List Char} {ps : List Nat} {s : BitSpec}
    (hlt : ∀ p ∈ ps, p < capacity 32) (h : ofPositions text ps = .ok s) : s.InSize := by
  unfold ofPositions at h
  split at h
  · cases h
  · cases h
    exact hlt _ List.mem_cons_self
  · cases h
    exact hlt

theorem inSize_of_ofRangeParts {text : List Char} {parts : List (List Char)} {s : BitSpec}
    (h : ofRangeParts text parts = .ok s) : s.InSize := by
  unfold ofRangeParts at h
  split at h
  · obtain ⟨p, hp, hs⟩ := bind_eq_ok.1 h
    cases hs
    exact lt_of_readPosition hp
  · obtain ⟨hi, hhi, hrest⟩ := bind_eq_ok.1 h
    obtain ⟨lo, -, hs⟩ := bind_eq_ok.1 hrest
    split at hs
    · cases hs
    · cases hs
      exact lt_of_readPosition hhi
  · cases h

/-- Every specification that a text has is well-formed. -/
theorem wellFormed_of_parse {text : String} {s : BitSpec} (h : parse text = .ok s) :
    s.WellFormed := by
  refine ⟨proper_of_parse h, ?_⟩
  rw [parse, ofChars] at h
  split at h
  · obtain ⟨ps, hps, hs⟩ := bind_eq_ok.1 h
    exact inSize_of_ofPositions
      (forall_mem_of_mapM hps fun _ _ _ hp => lt_of_readPosition hp) hs
  · exact inSize_of_ofRangeParts h

/-- **Round trip.** A well-formed specification is read from its written form, and every text that
is accepted has a well-formed one. So two accepted texts specify the same bits, in the same order,
exactly when their specifications are written the same way. -/
theorem text_round_trip :
    (∀ s : BitSpec, s.WellFormed → parse s.render = .ok s) ∧
    (∀ text s, parse text = .ok s → s.WellFormed) ∧
    (∀ text text' s s', parse text = .ok s → parse text' = .ok s' →
      (s = s' ↔ s.render = s'.render)) := by
  refine ⟨fun s => parse_render, fun text s => wellFormed_of_parse, ?_⟩
  intro text text' s s' h h'
  refine ⟨congrArg render, fun hsame => ?_⟩
  have hread := parse_render (wellFormed_of_parse h)
  rw [hsame, parse_render (wellFormed_of_parse h')] at hread
  exact (Except.ok.inj hread).symm

/-- A list out of order up to the last position there is comes back. A range with blanks and a sign
has a well-formed specification, and the same bits one by one have another one. -/
theorem text_round_trip_range :
    (list [9, 2, 4294967295]).WellFormed ∧ parse "9,2,4294967295" = .ok (list [9, 2, 4294967295]) ∧
    parse " 7 - +4" = .ok (range 7 4) ∧ (range 7 4).WellFormed ∧
    parse "7,6,5,4" = .ok (list [7, 6, 5, 4]) ∧
    (range 7 4).render ≠ (list [7, 6, 5, 4]).render := by
  obtain ⟨hwritten, hformed, hsame⟩ := text_round_trip
  have hlist : (list [9, 2, 4294967295]).WellFormed :=
    ⟨show 2 ≤ [9, 2, 4294967295].length ∧ [9, 2, 4294967295].Nodup by decide,
      show ∀ p ∈ [9, 2, 4294967295], p < capacity 32 by decide⟩
  have hrange : parse " 7 - +4" = .ok (range 7 4) := by decide +kernel
  have hbits : parse "7,6,5,4" = .ok (list [7, 6, 5, 4]) := by decide +kernel
  have hrender : (list [9, 2, 4294967295]).render = "9,2,4294967295" := by decide +kernel
  refine ⟨hlist, ?_, hrange, hformed _ _ hrange, hbits, fun h => ?_⟩
  · rw [← hrender]
    exact hwritten _ hlist
  · exact absurd ((hsame _ _ _ _ hrange hbits).2 h) (by decide)

end BitSpec

end RegisterMap
