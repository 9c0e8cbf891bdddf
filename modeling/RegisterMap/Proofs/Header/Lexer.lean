import RegisterMap.Proofs.Header.Identifier
import RegisterMap.Proofs.Header.Reference
import RegisterMap.Proofs.Header.Written

/-!
# Lexing — the tokens that are read from a text

A reader takes the text of a macro apart. Blanks end a word, and so do the marks, which are tokens
by themselves; a line goes on behind a backslash at its end; any other end of a line is part of a
word, and no such word is a token. The words are operators, names and numbers.

A text that spells some tokens is read as these, as long as their names are identifiers and their
numbers begin with a digit. So it spells no others, and what is put between the tokens of a header
neither joins two of them nor tears one apart.

## § What is here

* `wordOf?`, `lex` — the token of a word, and the tokens of a text;
* `Token.Lexical` — tokens that are words of a header;
* `Spells.lex_eq`, `Spells.unique` — what spells tokens is read as these only;
* `Declaration.Written.lex_eq` — the tokens in the line of a macro;
* `Scope.macros_read` — the lines of all macros of a header.
-/

namespace RegisterMap.Header

/-! ## § Words -/

/-- **marks** — the tokens that are one character wherever it stands. -/
def marks : List Token := [.complement, .leftParen, .rightParen, .comma]

/-- **operators** — the other tokens that are always spelled the same. -/
def operators : List Token :=
  [.operator .or, .operator .and, .operator .shiftLeft, .operator .shiftRight, .assign]

/-- **among?** — the token that is spelled like this. -/
def among? (ts : List Token) (word : List Char) : Option Token :=
  ts.find? (·.spelling.toList = word)

/-- **wordOf?** — the token that a word is. Names and numbers have the same characters, but a number
begins with a digit. -/
def wordOf? (word : List Char) : Option Token :=
  match among? operators word with
  | some t => some t
  | none =>
    if word.all Identifier.isPart then
      if word.head?.any Char.isDigit then some (.number (String.ofList word))
      else some (.name (String.ofList word))
    else none

/-! ## § Texts -/

/-- **ended** — the tokens from the end of a word on, if there is one. -/
def ended (word : List Char) (behind : Option (List Token)) : Option (List Token) :=
  if word = [] then behind else (wordOf? word).bind fun t => behind.map (t :: ·)

/-- **lex** — the tokens of a text, where a word has begun. -/
def lex (word : List Char) : List Char → Option (List Token)
  | [] => ended word (some [])
  | '\\' :: '\n' :: cs => lex word cs
  | ' ' :: cs => ended word (lex [] cs)
  | c :: cs =>
    match among? marks [c] with
    | some t => ended word ((lex [] cs).map (t :: ·))
    | none => lex (word ++ [c]) cs

/-- **isPlain** — the characters that belong to a word wherever they stand. -/
def isPlain (c : Char) : Bool := c != ' ' && c != '\\' && (among? marks [c]).isNone

/-- A word goes on as long as there are plain characters. -/
theorem lex_plain {run : List Char} (h : ∀ c ∈ run, isPlain c = true) (word cs : List Char) :
    lex word (run ++ cs) = lex (word ++ run) cs := by
  induction run generalizing word with
  | nil => rw [List.nil_append, List.append_nil]
  | cons c run ih =>
    obtain ⟨⟨hblank, hslash⟩, hmark⟩ : (c ≠ ' ' ∧ c ≠ '\\') ∧ among? marks [c] = none := by
      simpa [isPlain] using h c List.mem_cons_self
    have hstep : lex word (c :: (run ++ cs)) = lex (word ++ [c]) (run ++ cs) := by
      rw [lex, hmark]
      · exact fun _ hc _ => hslash hc
      · exact hblank
    rw [List.cons_append, hstep, ih fun x hx => h x (List.mem_cons_of_mem _ hx),
      List.append_assoc, List.singleton_append]

/-- At a break the word ends. -/
theorem lex_atBreak {s : String} (h : AtBreak s) (word : List Char) :
    lex word s.toList = ended word (lex [] s.toList) := by
  rw [AtBreak] at h
  cases hs : s.toList with
  | nil => rfl
  | cons c cs =>
    rw [hs] at h
    obtain ((rfl | rfl) | rfl) | rfl : ((c = ' ' ∨ c = '(') ∨ c = ')') ∨ c = ',' := by
      simpa [isBreak] using h
    · rfl
    · rfl
    · rfl
    · rfl

/-- A mark is a token by itself. -/
theorem lex_mark {t : Token} (h : t.isMark = true) (cs : List Char) :
    lex [] (t.spelling.toList ++ cs) = (lex [] cs).map (t :: ·) := by
  cases t with
  | complement => rfl
  | leftParen => rfl
  | rightParen => rfl
  | comma => rfl
  | _ => cases h

/-! ## § Tokens -/

/-- **Lexical** — a token that is a word of a header. -/
def Token.Lexical : Token → Prop
  | name text => IsName text
  | number text => IsTail text ∧ ¬ Opens text
  | _ => True

/-- No mark and no operator begins as a name or a number does. -/
theorem among?_eq_none {ts : List Token} (hts : ts = marks ∨ ts = operators) {c : Char}
    (h : Identifier.isPart c = true) (cs : List Char) : among? ts (c :: cs) = none := by
  have hfirst : ∀ t ∈ ts, t.spelling.toList.head?.all (!Identifier.isPart ·) = true := by
    rcases hts with rfl | rfl
    · decide
    · decide
  rw [among?, List.find?_eq_none]
  intro t ht hspelled
  have hnone := hfirst t ht
  rw [of_decide_eq_true hspelled, List.head?_cons, Option.all_some, h] at hnone
  cases hnone

theorem plain_of_isPart {c : Char} (h : Identifier.isPart c = true) : isPlain c = true := by
  have hne : ∀ d, Identifier.isPart d = false → c ≠ d := by
    rintro d hd rfl
    rw [h] at hd
    cases hd
  simp [isPlain, among?_eq_none (.inl rfl) h, hne ' ' (by decide), hne '\\' (by decide)]

/-- A text of the characters of a name is a number or a name, as its first character is a digit or
not. -/
theorem wordOf?_of_isTail {text : String} (h : IsTail text) (hne : text ≠ "") :
    (Opens text → wordOf? text.toList = some (.name text)) ∧
      (¬ Opens text → wordOf? text.toList = some (.number text)) := by
  have hnone : among? operators text.toList = none := by
    cases hs : text.toList with
    | nil => exact absurd (String.toList_eq_nil_iff.1 hs) hne
    | cons c cs => exact among?_eq_none (.inr rfl) (h c (by simp [hs])) cs
  have hall : text.toList.all Identifier.isPart = true := List.all_eq_true.2 h
  have hdigit : text.toList.head?.any Char.isDigit = true ↔ ¬ Opens text := by
    cases hs : text.toList.head? with
    | none => simp [Opens, hs]
    | some c => simp [Opens, hs]
  rw [wordOf?, hnone]
  simp only [hall, if_true, String.ofList_toList]
  exact ⟨fun hopens => if_neg fun hd => hdigit.1 hd hopens, fun hopens => if_pos (hdigit.2 hopens)⟩

/-- A token that is no mark is a word of plain characters. -/
theorem wordOf?_spelling {t : Token} (h : t.Lexical) (ht : t.isMark = false) :
    wordOf? t.spelling.toList = some t ∧ t.spelling.toList ≠ [] ∧
      ∀ c ∈ t.spelling.toList, isPlain c = true := by
  cases t with
  | name text =>
    obtain ⟨hne, htail, hopens⟩ := isName_iff.1 h
    exact ⟨(wordOf?_of_isTail htail hne).1 hopens, mt String.toList_eq_nil_iff.1 hne,
      fun c hc => plain_of_isPart (htail c hc)⟩
  | number text =>
    obtain ⟨htail, hopens⟩ := h
    have hne : text ≠ "" := by
      rintro rfl
      exact hopens fun c hc => by cases hc
    exact ⟨(wordOf?_of_isTail htail hne).2 hopens, mt String.toList_eq_nil_iff.1 hne,
      fun c hc => plain_of_isPart (htail c hc)⟩
  | operator o =>
    have hplain : o.spelling.toList.all isPlain = true := by cases o <;> decide
    exact ⟨by cases o <;> rfl, by cases o <;> decide, List.all_eq_true.1 hplain⟩
  | assign => exact ⟨rfl, by decide, List.all_eq_true.1 (by decide)⟩
  | _ => cases ht

/-- **A text is read as the tokens it spells.** -/
theorem Spells.lex_eq {ts : List Token} {s : String} (h : Spells ts s)
    (hts : ∀ t ∈ ts, t.Lexical) : lex [] s.toList = some ts := by
  induction h with
  | done => rfl
  | @token t ts s hend _ ih =>
    have hrest := ih fun u hu => hts u (List.mem_cons_of_mem _ hu)
    rw [String.toList_append]
    cases ht : t.isMark with
    | true => rw [lex_mark ht, hrest, Option.map_some]
    | false =>
      obtain ⟨hword, hne, hplain⟩ := wordOf?_spelling (hts t List.mem_cons_self) ht
      have hbreak : AtBreak s := hend.resolve_left (by simp [ht])
      rw [lex_plain hplain, List.nil_append, lex_atBreak hbreak, ended, if_neg hne, hword,
        Option.bind_some, hrest, Option.map_some]
  | blank _ ih =>
    rw [String.toList_append]
    exact ih hts
  | splice _ ih =>
    rw [String.toList_append]
    exact ih hts

/-- So it spells no others. -/
theorem Spells.unique {ts us : List Token} {s : String} (hts : Spells ts s) (hus : Spells us s)
    (hlexical : ∀ t ∈ ts, t.Lexical) (hlexical' : ∀ t ∈ us, t.Lexical) : ts = us :=
  Option.some.inj ((hts.lex_eq hlexical).symm.trans (hus.lex_eq hlexical'))

/-- A line may go on behind a backslash only. -/
example : lex [] "(a)\\\n & 1".toList
    = some [.leftParen, .name "a", .rightParen, .operator .and, .number "1"] ∧
    lex [] "(a)\n & 1".toList = none := by decide

/-! ## § Numbers -/

/-- **Numbered** — the numbers among some tokens are words of a header. -/
def Numbered (ts : List Token) : Prop := ∀ text, .number text ∈ ts → (Token.number text).Lexical

theorem Numbered.append {ts us : List Token} (hts : Numbered ts) (hus : Numbered us) :
    Numbered (ts ++ us) := fun text h => (List.mem_append.1 h).elim (hts text) (hus text)

theorem Numbered.cons {t : Token} {ts : List Token} (ht : ∀ text, t ≠ .number text)
    (hts : Numbered ts) : Numbered (t :: ts) := by
  intro text h
  rcases List.mem_cons.1 h with heq | h
  · exact absurd heq.symm (ht text)
  · exact hts text h

theorem Numbered.single {t : Token} (ht : ∀ text, t ≠ .number text) : Numbered [t] :=
  .cons ht fun _ h => by cases h

theorem numbered_decimal (n : Nat) : Numbered [.number (Text.decimal n)] := by
  intro text h
  obtain rfl : text = Text.decimal n := Token.number.inj (List.mem_singleton.1 h)
  refine ⟨isTail_digits (by decide) (by decide) n, fun hopens => ?_⟩
  rw [Opens, Text.decimal, String.toList_ofList] at hopens
  cases hdigits : Nat.toDigits 10 n with
  | nil => exact Nat.toDigits_ne_nil hdigits
  | cons c cs =>
    have hdigit : c.isDigit = true :=
      Nat.isDigit_of_mem_toDigits (by decide) (by decide) (hdigits ▸ List.mem_cons_self)
    rw [hopens c (by rw [hdigits]; rfl)] at hdigit
    cases hdigit

theorem numbered_hex (n : Nat) : Numbered [.number ("0x" ++ Text.hex n)] := by
  intro text h
  obtain rfl : text = "0x" ++ Text.hex n := Token.number.inj (List.mem_singleton.1 h)
  refine ⟨isTail_append.2 ⟨by decide, isTail_digits (by decide) (by decide) n⟩, fun hopens => ?_⟩
  have hzero := hopens '0' (by rw [String.toList_append]; rfl)
  revert hzero
  decide

namespace Expr

mutual

theorem numbered_tokens : ∀ e : Expr, Numbered e.tokens
  | name text => .single (by simp)
  | decimal n => numbered_decimal n
  | hex n => numbered_hex n
  | paren e => .cons (by simp) ((numbered_tokens e).append (.single (by simp)))
  | complement e => .cons (by simp) (numbered_tokens e)
  | shiftLeft a b => (numbered_tokens a).append (.cons (by simp) (numbered_tokens b))
  | shiftRight a b => (numbered_tokens a).append (.cons (by simp) (numbered_tokens b))
  | and a b => (numbered_tokens a).append (.cons (by simp) (numbered_tokens b))
  | or terms => numbered_tokensAll terms
  | assign target value =>
    (numbered_tokens target).append (.cons (by simp) (numbered_tokens value))
  | call callee first second => by
    have hclose : Numbered [.rightParen] := .single (by simp)
    have hsecond : Numbered (.comma :: (second.tokens ++ [.rightParen])) :=
      .cons (by simp) ((numbered_tokens second).append hclose)
    exact .cons (by simp) (.cons (by simp) ((numbered_tokens first).append hsecond))
  | spaced e => numbered_tokens e
  | ownLine e => numbered_tokens e

theorem numbered_tokensAll : ∀ es : List Expr, Numbered (tokensAll es)
  | [] => fun _ h => by cases h
  | [e] => numbered_tokens e
  | e :: f :: es => (numbered_tokens e).append (.cons (by simp) (numbered_tokensAll (f :: es)))

end

end Expr

/-! ## § Macros -/

/-- The line of a macro is read as its parameters and its body, when their names are names. -/
theorem Declaration.Written.lex_eq {name text : String} {params : List String} {body : Expr}
    (h : (define name params body).Written text) (hparams : ∀ x ∈ params, IsName x)
    (hbody : ∀ x, .name x ∈ body.tokens → IsName x) :
    ∃ s, text = "#define " ++ name ++ "(" ++ s ++ "\n" ∧
      lex [] s.toList = some (signature params body) := by
  obtain ⟨s, hs, rfl⟩ := h
  refine ⟨s, rfl, hs.lex_eq ?_⟩
  have hlist : ∀ t ∈ separated (params.map fun x => [.name x]), t.Lexical := by
    intro t ht
    by_cases hcomma : t = .comma
    · rw [hcomma]
      trivial
    · obtain ⟨ts, hts, hmem⟩ := mem_separated hcomma ht
      obtain ⟨x, hx, rfl⟩ := List.mem_map.1 hts
      rw [List.mem_singleton.1 hmem]
      exact hparams x hx
  refine List.forall_mem_append.2 ⟨hlist, List.forall_mem_cons.2 ⟨trivial, fun t ht => ?_⟩⟩
  cases t with
  | name x => exact hbody x ht
  | number x => exact body.numbered_tokens x ht
  | _ => trivial

namespace Scope

variable {s : Scope} {m : Declaration} {x : String}

/-- The macros that all registers share use no name but their parameters. -/
theorem uses_shared (hm : m ∈ s.shared) : ¬ m.Uses x := by
  have hmask : ∀ mask terms, .name x ∈ (frameBody mask terms).tokens →
      .name x ∈ Expr.tokensAll terms := by
    intro mask terms h
    cases mask with
    | none => simpa [frameBody, maskTerms, Expr.tokens] using h
    | some bits =>
      cases terms with
      | nil => simp [frameBody, maskTerms, Expr.tokens, Expr.tokensAll] at h
      | cons e es => simpa [frameBody, maskTerms, Expr.tokens, Expr.tokensAll] using h
  simp only [shared, List.mem_append, List.mem_cons, List.not_mem_nil, or_false, List.mem_map]
    at hm
  rcases hm with (rfl | rfl | rfl) | ⟨t, -, rfl⟩
  · exact id
  · rintro ⟨hbody, hparam⟩
    have hcases : x = "a" ∨ x = "v" := by
      simpa [addressTerm, Expr.tokens, Expr.tokensAll] using hmask s.device.writeMask? _ hbody
    exact hparam (by simpa using hcases)
  · rintro ⟨hbody, hparam⟩
    have hname : x = "a" := by
      simpa [addressTerm, Expr.tokens, Expr.tokensAll] using hmask s.device.readMask? _ hbody
    exact hparam (List.mem_singleton.2 hname)
  · exact id

/-- The identifier that a macro writes to is that of an address. -/
theorem mem_addressNames (hd : s.device.Sound) (hm : m ∈ s.layout) (hx : m.addressed? = some x) :
    x ∈ s.addressNames := by
  have hmem : x ∈ s.layout.filterMap Declaration.addressed? := List.mem_filterMap.2 ⟨m, hm, hx⟩
  rw [s.filterMap_addressed?] at hmem
  obtain ⟨word, hword, rfl⟩ := List.mem_map.1 hmem
  obtain ⟨p, hp, hwords⟩ := List.mem_flatMap.1 hword
  have hentry : word ∈ s.device.flat.map (·.name) := by
    rw [map_name_flat hd]
    exact List.mem_flatMap.2 ⟨p, hp, Place.words_subset (reg_sound hd hp) hwords⟩
  obtain ⟨e, he, rfl⟩ := List.mem_map.1 hentry
  exact List.mem_map_of_mem he

/-- Every name that a macro uses is one, when no field begins with the digit of an address. -/
theorem isName_uses (hd : s.device.Sound)
    (hfront : s.device.regPrefix = "" ∨ IsName s.device.regPrefix) (htitle : IsName s.title.text)
    (hleading : ∀ p ∈ s.introduced, p.Leading) (hm : m ∈ s.layout) (hx : m.Uses x) :
    IsName x := by
  rcases List.mem_append.1 hm with hshared | hplaces
  · exact absurd hx (uses_shared hshared)
  · obtain ⟨p, hp, hdeclared⟩ := List.mem_flatMap.1 hplaces
    obtain ⟨rfl, -, -⟩ := mem_places.1 hp
    rcases Place.uses_cases hdeclared hx with rfl | haddress | ⟨hvalue, f, hf, hbound⟩
    · have hwriter : p.writeName ∈ p.toScope.layout.filterMap Declaration.macroName? :=
        List.mem_filterMap.2 ⟨_, p.writeMacro_mem_layout, rfl⟩
      exact isName_macroNames hd htitle _ hwriter
    · exact isName_addressNames hd hfront _ (mem_addressNames hd hm haddress)
    · have hplace : p ∈ p.introduced := List.mem_filter.2 ⟨hp, by simp [hvalue]⟩
      have hbounds : x ∈ p.toScope.fieldNames.flatMap Place.bounds :=
        List.mem_flatMap.2 ⟨_, mem_fieldNames.2 ⟨p, hplace, f, hf, rfl⟩,
          by simpa [Place.bounds, Place.NamesField] using hbound⟩
      exact (isName_bounds_iff hd).2 hleading _ hbounds

/-- **The macros of a header are read as they are meant.** Take a header with a name for itself and
in front of its registers, where no field begins with the digit of an address. The line of each
macro has its name, and the tokens that are read behind the name are its parameters and its body. -/
theorem macros_read {header : String} {ds : List Declaration} (hd : s.device.Sound)
    (hfront : s.device.regPrefix = "" ∨ IsName s.device.regPrefix) (htitle : IsName s.title.text)
    (hleading : ∀ p ∈ s.introduced, p.Leading) (h : s.Prints header ds) :
    ∃ texts, header = String.join texts ∧ List.Forall₂ (fun d text =>
      ∀ name params body, d = .define name params body →
        ∃ line, text = "#define " ++ name ++ "(" ++ line ++ "\n" ∧
          lex [] line.toList = some (Declaration.signature params body)) ds texts := by
  obtain ⟨texts, htexts, rfl⟩ := h.written
  have hlayout := h.eq_layout
  have hmem := (List.forall₂_and_left ds texts).2 ⟨fun d hmem => hmem, htexts⟩
  refine ⟨texts, rfl, hmem.imp fun d text hd' => ?_⟩
  rintro name params body rfl
  obtain ⟨hdefine, hwritten⟩ := hd'
  rw [hlayout] at hdefine
  have hparams : ∀ x ∈ params, IsName x := fun x hx =>
    isName_params hd x (List.mem_flatMap.2 ⟨_, hdefine, hx⟩)
  refine hwritten.lex_eq hparams fun x hx => ?_
  by_cases hparam : x ∈ params
  · exact hparams x hparam
  · exact isName_uses hd hfront htitle hleading hdefine ⟨hx, hparam⟩

end Scope

end RegisterMap.Header
