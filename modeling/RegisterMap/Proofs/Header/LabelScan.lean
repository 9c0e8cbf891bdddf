import RegisterMap.Proofs.Header.Label

/-!
# One scan of a label — the order of the replacements does not show

The replacements go through the whole label one after another, each over what the ones before have
left. Still no text that one of them writes is read by a later one, and none of them takes away or
moves together what a later pair looks for. So all of them can be done in one scan from left to
right, which looks for a pair at each place and otherwise replaces the one character there.

## § What is here

* `written`, `scan` — the scan by a table of pairs and one of single characters;
* `Inert`, `Untouched`, `Untouched.scan_append` — characters and texts that stay as they are;
* `scan_char`, `scan_pair` — a scan with one more replacement, which might as well come first;
* `Independent`, `foldl_apply_eq_scan` — rows of replacements that amount to one scan;
* `scan_append` — a scan of two texts one after another;
* `normalize_scans` — the replacements of labels, and what follows for them.
-/

namespace RegisterMap.Label

open Outcome

/-! ## § Scanning -/

/-- **written** — what becomes of a single character. -/
def written (signs : List (Char × String)) (x : Char) : List Char :=
  (signs.lookup x).elim [x] String.toList

/-- **scan** — a text from left to right: a pair where one starts, and otherwise one character. -/
def scan (pairs : List ((Char × Char) × String)) (signs : List (Char × String)) :
    List Char → List Char
  | [] => []
  | [x] => written signs x
  | x :: y :: rest =>
    match pairs.lookup (x, y) with
    | some text => text.toList ++ scan pairs signs rest
    | none => written signs x ++ scan pairs signs (y :: rest)

/-- **Inert** — a character that stands in no table. -/
def Inert (pairs : List ((Char × Char) × String)) (signs : List (Char × String)) (x : Char) :
    Prop :=
  (∀ e ∈ pairs, e.1.1 ≠ x ∧ e.1.2 ≠ x) ∧ ∀ e ∈ signs, e.1 ≠ x

instance (pairs : List ((Char × Char) × String)) (signs : List (Char × String)) (x : Char) :
    Decidable (Inert pairs signs x) :=
  inferInstanceAs (Decidable (_ ∧ _))

variable {pairs : List ((Char × Char) × String)} {signs : List (Char × String)}

/-- **Single** — no pair starts with a character in front of a text. -/
def Single (pairs : List ((Char × Char) × String)) (x : Char) (cs : List Char) : Prop :=
  ∀ y, cs.head? = some y → pairs.lookup (x, y) = none

theorem scan_of_single {x : Char} {cs : List Char} (h : Single pairs x cs) :
    scan pairs signs (x :: cs) = written signs x ++ scan pairs signs cs := by
  cases cs with
  | nil => rw [scan, scan, List.append_nil]
  | cons y rest => rw [scan, h y rfl]

theorem scan_of_pair {x y : Char} {rest : List Char} {text : String}
    (h : pairs.lookup (x, y) = some text) :
    scan pairs signs (x :: y :: rest) = text.toList ++ scan pairs signs rest := by
  rw [scan, h]

/-- Whatever holds of a text holds of all texts when it goes from the rest behind a single character
or behind a pair to the whole. -/
theorem scan_induction (pairs : List ((Char × Char) × String)) {p : List Char → Prop}
    (nil : p []) (single : ∀ x cs, Single pairs x cs → p cs → p (x :: cs))
    (pair : ∀ x y rest text, pairs.lookup (x, y) = some text → p rest → p (x :: y :: rest))
    (cs : List Char) : p cs := by
  fun_induction scan pairs [] cs with
  | case1 => exact nil
  | case2 x => exact single x [] (fun y hy => by cases hy) nil
  | case3 x y rest text h ih => exact pair x y rest text h ih
  | case4 x y rest h ih =>
    refine single x (y :: rest) (fun z hz => ?_) ih
    rw [← Option.some.inj hz, h]

/-! ## § Characters that stay -/

namespace Inert

variable {x : Char}

theorem single (h : Inert pairs signs x) (cs : List Char) : Single pairs x cs := by
  intro y _
  refine Outcome.lookup_eq_none fun e he heq => (h.1 e he).1 ?_
  rw [heq]

theorem lookup_eq_none (h : Inert pairs signs x) (y : Char) : pairs.lookup (y, x) = none := by
  refine Outcome.lookup_eq_none fun e he heq => (h.1 e he).2 ?_
  rw [heq]

theorem written_eq (h : Inert pairs signs x) : written signs x = [x] := by
  rw [written, Outcome.lookup_eq_none h.2, Option.elim_none]

end Inert

/-- **Untouched** — a text of characters that stand in no table. -/
def Untouched (pairs : List ((Char × Char) × String)) (signs : List (Char × String))
    (cs : List Char) : Prop :=
  ∀ x ∈ cs, Inert pairs signs x

-- It goes through the characters of the text; another instance goes through all there are.
instance (pairs : List ((Char × Char) × String)) (signs : List (Char × String)) (cs : List Char) :
    Decidable (Untouched pairs signs cs) :=
  List.decidableBAll (Inert pairs signs) cs

/-- A scan passes over it. -/
theorem Untouched.scan_append {text : List Char} (h : Untouched pairs signs text)
    (cs : List Char) : scan pairs signs (text ++ cs) = text ++ scan pairs signs cs := by
  induction text with
  | nil => rfl
  | cons x text ih =>
    obtain ⟨hx, htext⟩ := List.forall_mem_cons.1 h
    rw [List.cons_append, scan_of_single (hx.single _), ih htext, hx.written_eq]
    rfl

theorem Untouched.scan_eq {text : List Char} (h : Untouched pairs signs text) :
    scan pairs signs text = text := by
  have hend := h.scan_append []
  rwa [scan, List.append_nil] at hend

/-! ## § One more replacement -/

namespace Replacement

/-- **Spares** — a replacement takes away no character from a pair that is looked for later, nor the
second one by taking another pair that overlaps it. -/
def Spares (q : Char × Char) : Replacement → Prop
  | char c _ => q.1 ≠ c ∧ q.2 ≠ c
  | pair c _ _ => q.2 ≠ c

instance (q : Char × Char) : (r : Replacement) → Decidable (r.Spares q)
  | char c _ => inferInstanceAs (Decidable (q.1 ≠ c ∧ q.2 ≠ c))
  | pair c _ _ => inferInstanceAs (Decidable (q.2 ≠ c))

/-- **Fits** — a replacement that may come before a scan: what it writes is not looked for, it takes
nothing from a pair, and it closes no gap between the characters of one. -/
def Fits (pairs : List ((Char × Char) × String)) (signs : List (Char × String))
    (r : Replacement) : Prop :=
  Untouched pairs signs r.text.toList ∧ (pairs = [] ∨ r.text ≠ "") ∧ ∀ e ∈ pairs, r.Spares e.1

instance (pairs : List ((Char × Char) × String)) (signs : List (Char × String))
    (r : Replacement) : Decidable (r.Fits pairs signs) :=
  inferInstanceAs (Decidable (_ ∧ _ ∧ _))

end Replacement

theorem replacePair_cons {c d x : Char} {text cs : List Char}
    (h : ¬ (x = c ∧ cs.head? = some d)) :
    replacePair c d text (x :: cs) = x :: replacePair c d text cs := by
  cases cs with
  | nil => rfl
  | cons y rest =>
    rw [replacePair, if_neg]
    rintro ⟨rfl, rfl⟩
    exact h ⟨rfl, rfl⟩

/-- A text that is replaced starts as before, or with what a replacement writes. -/
theorem head?_apply {r : Replacement} (hne : r.text ≠ "") {cs : List Char} {z : Char}
    (hz : (r.apply cs).head? = some z) : cs.head? = some z ∨ z ∈ r.text.toList := by
  have hwritten : ∀ rest, (r.text.toList ++ rest).head? = some z → z ∈ r.text.toList := by
    intro rest hz
    rw [List.head?_append_of_ne_nil _ (mt String.toList_eq_nil_iff.1 hne)] at hz
    exact List.mem_of_mem_head? hz
  cases r with
  | char c text =>
    cases cs with
    | nil => cases hz
    | cons x cs =>
      rw [Replacement.apply, List.flatMap_cons] at hz
      split at hz
      · exact .inr (hwritten _ hz)
      · exact .inl hz
  | pair c d text =>
    rw [Replacement.apply] at hz
    unfold replacePair at hz
    split at hz
    · split at hz
      · exact .inr (hwritten _ hz)
      · exact .inl hz
    · exact .inl hz

/-- A replacement that fits makes no pair start where none did. -/
theorem Single.apply {r : Replacement} (hr : r.Fits pairs signs) {x : Char} {cs : List Char}
    (h : Single pairs x cs) : Single pairs x (r.apply cs) := by
  obtain ⟨hinert, rfl | hne, -⟩ := hr
  · exact fun _ _ => rfl
  · intro z hz
    rcases head?_apply hne hz with hfirst | hwritten
    · exact h z hfirst
    · exact (hinert z hwritten).lookup_eq_none x

/-- A single character may be replaced in the whole text first. -/
theorem scan_char {c : Char} {text : String} (hr : (Replacement.char c text).Fits pairs signs)
    (cs : List Char) : scan pairs ((c, text) :: signs) cs
      = scan pairs signs (Replacement.apply cs (.char c text)) := by
  induction cs using scan_induction pairs with
  | nil => rfl
  | single x cs hx ih =>
    have happly : Replacement.apply (x :: cs) (.char c text)
        = (if x = c then text.toList else [x]) ++ Replacement.apply cs (.char c text) := rfl
    rw [scan_of_single hx, ih, happly]
    split
    · rename_i hc
      have htext : Untouched pairs signs text.toList := hr.1
      rw [htext.scan_append, written, hc, List.lookup_cons_self, Option.elim_some]
    · rename_i hc
      have hsame : written ((c, text) :: signs) x = written signs x := by
        rw [written, written, List.lookup_cons, beq_false_of_ne hc]
      rw [List.singleton_append, scan_of_single (hx.apply hr), hsame]
  | pair x y rest found hfound ih =>
    obtain ⟨hx, hy⟩ := hr.2.2 _ (mem_of_lookup hfound)
    have happly : Replacement.apply (x :: y :: rest) (.char c text)
        = x :: y :: Replacement.apply rest (.char c text) := by
      simp only [Replacement.apply, List.flatMap_cons, if_neg hx, if_neg hy, List.singleton_append]
    rw [scan_of_pair hfound, ih, happly, scan_of_pair hfound]

/-- A pair may be replaced in the whole text first. -/
theorem scan_pair {c d : Char} {text : String} (hr : (Replacement.pair c d text).Fits pairs signs)
    (cs : List Char) : scan (((c, d), text) :: pairs) signs cs
      = scan pairs signs (Replacement.apply cs (.pair c d text)) := by
  have hlookup : ∀ {x y : Char}, (x, y) ≠ (c, d) →
      List.lookup (x, y) (((c, d), text) :: pairs) = pairs.lookup (x, y) := fun h => by
    rw [List.lookup_cons, beq_false_of_ne h]
  induction cs using scan_induction (((c, d), text) :: pairs) with
  | nil => rfl
  | single x cs hx ih =>
    have hother : ¬ (x = c ∧ cs.head? = some d) := by
      rintro ⟨rfl, hd⟩
      have hnone := hx d hd
      rw [List.lookup_cons_self] at hnone
      cases hnone
    have hrest : Single pairs x cs := by
      intro y hy
      rw [← hlookup]
      · exact hx y hy
      · rintro heq
        cases heq
        exact hother ⟨rfl, hy⟩
    have happly : Replacement.apply (x :: cs) (.pair c d text)
        = x :: Replacement.apply cs (.pair c d text) := replacePair_cons hother
    rw [scan_of_single hx, ih, happly, scan_of_single (hrest.apply hr)]
  | pair x y rest found hfound ih =>
    rw [scan_of_pair hfound, ih]
    by_cases heq : (x, y) = (c, d)
    · cases heq
      rw [List.lookup_cons_self] at hfound
      cases hfound
      have happly : Replacement.apply (c :: d :: rest) (.pair c d text)
          = text.toList ++ Replacement.apply rest (.pair c d text) := if_pos ⟨rfl, rfl⟩
      have htext : Untouched pairs signs text.toList := hr.1
      rw [happly, htext.scan_append]
    · rw [hlookup heq] at hfound
      -- The second character of a pair that comes later does not start this one.
      have hy : y ≠ c := hr.2.2 _ (mem_of_lookup hfound)
      have happly : Replacement.apply (x :: y :: rest) (.pair c d text)
          = x :: y :: Replacement.apply rest (.pair c d text) := by
        have hfirst : ¬ (x = c ∧ (y :: rest).head? = some d) := by
          rintro ⟨rfl, hd⟩
          exact heq (by rw [Option.some.inj hd])
        exact (replacePair_cons hfirst).trans
          (congrArg (x :: ·) (replacePair_cons fun h => hy h.1))
      rw [happly, scan_of_pair hfound]

/-! ## § Rows of replacements -/

/-- **pairsOf** — the pairs for which a row of replacements looks. -/
def pairsOf (rs : List Replacement) : List ((Char × Char) × String) :=
  rs.filterMap fun
    | .char _ _ => none
    | .pair c d text => some ((c, d), text)

/-- **signsOf** — the single characters for which it looks. -/
def signsOf (rs : List Replacement) : List (Char × String) :=
  rs.filterMap fun
    | .char c text => some (c, text)
    | .pair _ _ _ => none

/-- **Independent** — each replacement of a row may come before a scan by the later ones. -/
def Independent : List Replacement → Prop
  | [] => True
  | r :: rs => r.Fits (pairsOf rs) (signsOf rs) ∧ Independent rs

instance decidableIndependent : (rs : List Replacement) → Decidable (Independent rs)
  | [] => .isTrue trivial
  | r :: rs =>
    have := decidableIndependent rs
    inferInstanceAs (Decidable (r.Fits (pairsOf rs) (signsOf rs) ∧ Independent rs))

/-- Replacements one after another amount to one scan. -/
theorem foldl_apply_eq_scan {rs : List Replacement} (h : Independent rs) (cs : List Char) :
    rs.foldl Replacement.apply cs = scan (pairsOf rs) (signsOf rs) cs := by
  induction rs generalizing cs with
  | nil =>
    have hnone : Untouched (pairsOf []) (signsOf []) cs := fun _ _ =>
      ⟨by simp [pairsOf], by simp [signsOf]⟩
    exact hnone.scan_eq.symm
  | cons r rs ih =>
    obtain ⟨hr, hrest⟩ := h
    rw [List.foldl_cons, ih hrest]
    cases r with
    | char c text => exact (scan_char hr cs).symm
    | pair c d text => exact (scan_pair hr cs).symm

/-! ## § What a scan leaves -/

/-- A scan leaves characters of no table, when its texts have no other ones and each character of a
pair is in the table of single characters too. -/
theorem untouched_scan
    (htexts : ∀ text ∈ pairs.map Prod.snd ++ signs.map Prod.snd, Untouched pairs signs text.toList)
    (hcovered : ∀ e ∈ pairs, e.1.1 ∈ signs.map Prod.fst ∧ e.1.2 ∈ signs.map Prod.fst)
    (cs : List Char) : Untouched pairs signs (scan pairs signs cs) := by
  have hwritten : ∀ c, Untouched pairs signs (written signs c) := by
    intro c
    rw [written]
    cases hc : signs.lookup c with
    | some text =>
      exact htexts text (List.mem_append_right _ (List.mem_map_of_mem (mem_of_lookup hc)))
    | none =>
      have hother : c ∉ signs.map Prod.fst := by
        intro hmem
        obtain ⟨e, he, rfl⟩ := List.mem_map.1 hmem
        simpa using List.lookup_eq_none_iff.1 hc e he
      rw [Option.elim_none, Untouched, List.forall_mem_singleton]
      refine ⟨fun e he => ⟨?_, ?_⟩, fun e he heq => hother (heq ▸ List.mem_map_of_mem he)⟩
      · exact fun heq => hother (heq ▸ (hcovered e he).1)
      · exact fun heq => hother (heq ▸ (hcovered e he).2)
  induction cs using scan_induction pairs with
  | nil => exact fun x hx => absurd hx List.not_mem_nil
  | single x cs hx ih =>
    rw [scan_of_single hx]
    exact List.forall_mem_append.2 ⟨hwritten x, ih⟩
  | pair x y rest text hfound ih =>
    rw [scan_of_pair hfound]
    have htext : text ∈ pairs.map Prod.snd := List.mem_map_of_mem (mem_of_lookup hfound)
    exact List.forall_mem_append.2 ⟨htexts text (List.mem_append_left _ htext), ih⟩

/-! ## § Two texts one after another -/

/-- Two texts are scanned one by one, unless a pair starts at the end of the first one. -/
theorem scan_append {as bs : List Char}
    (h : ∀ x ∈ as.getLast?, Single pairs x bs) :
    scan pairs signs (as ++ bs) = scan pairs signs as ++ scan pairs signs bs := by
  have hrest : ∀ {x : Char} {cs : List Char}, (∀ z ∈ (x :: cs).getLast?, Single pairs z bs) →
      ∀ z ∈ cs.getLast?, Single pairs z bs := by
    intro x cs h z hz
    refine h z ?_
    rw [List.getLast?_cons, Option.mem_def.1 hz]
    rfl
  induction as using scan_induction pairs with
  | nil => rfl
  | single x cs hx ih =>
    have hjoined : Single pairs x (cs ++ bs) := by
      cases cs with
      | nil => exact h x rfl
      | cons y cs => exact hx
    rw [List.cons_append, scan_of_single hjoined, ih (hrest h), scan_of_single hx,
      List.append_assoc]
  | pair x y rest text hfound ih =>
    rw [List.cons_append, List.cons_append, scan_of_pair hfound, ih (hrest (hrest h)),
      scan_of_pair hfound, List.append_assoc]

/-- If a pair does start there, its text is shorter or longer than those of its characters, and
nothing else starts at any of them, the two scans have another length. -/
theorem scan_append_ne {x y : Char} {text : String} (hfound : pairs.lookup (x, y) = some text)
    (hx : ∀ z, pairs.lookup (z, x) = none) (hy : ∀ z, pairs.lookup (y, z) = none)
    (hlength : text.toList.length ≠ (written signs x ++ written signs y).length)
    (as bs : List Char) : scan pairs signs (as ++ [x] ++ y :: bs)
      ≠ scan pairs signs (as ++ [x]) ++ scan pairs signs (y :: bs) := by
  have hsplit : ∀ cs, scan pairs signs (as ++ x :: cs)
      = scan pairs signs as ++ scan pairs signs (x :: cs) := fun cs => by
    refine scan_append fun z _ w hw => ?_
    rw [← Option.some.inj hw]
    exact hx z
  have hsecond : scan pairs signs (y :: bs) = written signs y ++ scan pairs signs bs :=
    scan_of_single fun z _ => hy z
  intro heq
  rw [List.append_assoc, List.singleton_append, hsplit, hsplit, scan_of_pair hfound, hsecond] at heq
  have hcount := congrArg List.length heq
  simp only [List.length_append, scan] at hcount hlength
  omega

/-! ## § Labels -/

/-- **comparisons** — the pairs of characters that have a text of their own. -/
def comparisons : List ((Char × Char) × String) := [(('<', '='), "LE"), (('>', '='), "GE")]

/-- **punctuation** — the thirteen characters that are replaced, and what is written for each. -/
def punctuation : List (Char × String) :=
  [ ('-', "_"), ('>', "GT"), ('<', "LT"), ('=', "EQ"), ('+', "PL"), ('\x27', "MARK"), ('.', "_"),
    (',', "_"), (' ', "_"), ('(', ""), ('|', "OR"), (')', ""), ('/', "DIV") ]

theorem independent_replacements : Independent replacements := by decide

theorem normalizeChars_eq_scan (cs : List Char) :
    normalizeChars cs = scan comparisons punctuation cs :=
  foldl_apply_eq_scan independent_replacements cs

/-- The pairs end with the same character, which starts none of them. -/
theorem of_lookup_comparisons {x y : Char} {text : String}
    (h : comparisons.lookup (x, y) = some text) : (x = '<' ∨ x = '>') ∧ y = '=' := by
  have hmem := mem_of_lookup h
  simp only [comparisons, List.mem_cons, Prod.mk.injEq, List.not_mem_nil, or_false] at hmem
  tauto

/-- Where a pair is cut in two, its characters become other texts than the pair. -/
theorem scan_cut {x : Char} (hx : x = '<' ∨ x = '>') (as bs : List Char) :
    scan comparisons punctuation (as ++ [x] ++ '=' :: bs)
      ≠ scan comparisons punctuation (as ++ [x]) ++ scan comparisons punctuation ('=' :: bs) := by
  have hbefore : ∀ z, comparisons.lookup (z, x) = none := fun z =>
    Option.eq_none_iff_forall_ne_some.2 fun text hfound => by
      obtain ⟨-, rfl⟩ := of_lookup_comparisons hfound
      exact absurd hx (by decide)
  have hafter : ∀ z, comparisons.lookup ('=', z) = none := fun z =>
    Option.eq_none_iff_forall_ne_some.2 fun text hfound =>
      absurd (of_lookup_comparisons hfound).1 (by decide)
  rcases hx with rfl | rfl
  · have hfound : comparisons.lookup ('<', '=') = some "LE" := rfl
    exact scan_append_ne hfound hbefore hafter (by decide) as bs
  · have hfound : comparisons.lookup ('>', '=') = some "GE" := rfl
    exact scan_append_ne hfound hbefore hafter (by decide) as bs

/-- What is left of a label has no character that is replaced. -/
theorem untouched_normalize (s : String) :
    Untouched comparisons punctuation (normalize s).toList := by
  rw [normalize, String.toList_ofList, normalizeChars_eq_scan]
  exact untouched_scan (by decide) (by decide) s.toList

/-- **One scan.** A label is normalized by one scan from left to right, which replaces `<=` and `>=`
where they start and otherwise each single character by its text. So nothing is left of the thirteen
characters, doing it again changes nothing, and two labels one after another are normalized one by
one, unless the first one ends with `<` or `>` and the second one begins with `=`. -/
theorem normalize_scans :
    (∀ s, normalize s = String.ofList (scan comparisons punctuation s.toList)) ∧
    (∀ s, ∀ c ∈ punctuation.map Prod.fst, c ∉ (normalize s).toList) ∧
    (∀ s, normalize (normalize s) = normalize s) ∧
    ∀ s t, normalize (s ++ t) = normalize s ++ normalize t ↔
      ¬ ((s.toList.getLast? = some '<' ∨ s.toList.getLast? = some '>') ∧
        t.toList.head? = some '=') := by
  have hscan : ∀ s, normalize s = String.ofList (scan comparisons punctuation s.toList) := fun s =>
    congrArg String.ofList (normalizeChars_eq_scan s.toList)
  refine ⟨hscan, fun s c hc hmem => ?_, fun s => ?_, fun s t => ?_⟩
  · obtain ⟨e, he, rfl⟩ := List.mem_map.1 hc
    exact (untouched_normalize s _ hmem).2 e he rfl
  · rw [hscan (normalize s), (untouched_normalize s).scan_eq, String.ofList_toList]
  · rw [hscan, hscan, hscan, ← String.ofList_append, String.ofList_inj, String.toList_append]
    constructor
    · rintro heq ⟨hend, hbegin⟩
      obtain ⟨bs, ht⟩ := List.head?_eq_some_iff.1 hbegin
      rw [ht] at heq
      rcases hend with hend | hend
      · obtain ⟨as, hs⟩ := List.getLast?_eq_some_iff.1 hend
        exact scan_cut (.inl rfl) as bs (hs ▸ heq)
      · obtain ⟨as, hs⟩ := List.getLast?_eq_some_iff.1 hend
        exact scan_cut (.inr rfl) as bs (hs ▸ heq)
    · intro hapart
      refine scan_append fun x hx y hy => ?_
      by_contra hpair
      obtain ⟨text, hfound⟩ := Option.ne_none_iff_exists'.1 hpair
      obtain ⟨hopen, rfl⟩ := of_lookup_comparisons hfound
      refine hapart ⟨?_, hy⟩
      rcases hopen with rfl | rfl
      · exact .inl hx
      · exact .inr hx

/-- A bracket keeps the characters around it apart: it is taken away only after both of them are
replaced, so they never make a pair. -/
theorem normalize_scans_bracket :
    normalize "<(=)>=" = "LTEQGE" ∧ ')' ∉ (normalize "<(=)>=").toList ∧
    normalize (normalize "<(=)>=") = "LTEQGE" ∧
    normalize ("<(" ++ "=)>=") = normalize "<(" ++ normalize "=)>=" ∧
    normalize ("<" ++ "=)>=") ≠ normalize "<" ++ normalize "=)>=" := by
  obtain ⟨hscan, hclean, hagain, happend⟩ := normalize_scans
  have hwhole : normalize "<(=)>=" = "LTEQGE" := (hscan _).trans (by decide +kernel)
  refine ⟨hwhole, hclean _ ')' (by decide), (hagain _).trans hwhole,
    (happend _ _).2 (by decide +kernel), fun heq => ?_⟩
  exact (happend _ _).1 heq (by decide +kernel)

end RegisterMap.Label
