import RegisterMap.Files
import RegisterMap.Proofs.Outcome

/-!
# Written files — what a write changes, and where it is found again

A write changes the content at one place, the names on the way to its file. The way itself stays as
it was: directories remain directories, and no other file appears on it. So the path of a write
leads to the file afterwards, also when the file was not there before.

## § What is here

* `content?_insert`, `hasDirectory_insert` — the contents and the directories after a write;
* `Writable` — the places that a file can be written to;
* `walk_insert`, `locate_insert` — a path leads to what was written to it;
* `WrittenTo`, `write_eq_ok` — what a write that succeeds has done.
-/

namespace RegisterMap.Files

open Outcome

variable {fs after : Files} {names : List String} {content : ByteArray}

/-! ## § One file -/

section Lookup

variable {α β : Type} [BEq α] [LawfulBEq α] [DecidableEq α]

theorem lookup_filter_ne {a b : α} (h : b ≠ a) (es : List (α × β)) :
    (es.filter fun e => e.1 ≠ a).lookup b = es.lookup b := by
  induction es with
  | nil => rfl
  | cons e es ih =>
    by_cases ha : e.1 = a
    · have hb : (b == e.1) = false := beq_eq_false_iff_ne.2 fun hb => h (hb.trans ha)
      rw [List.filter_cons_of_neg (by simpa using ha), ih, List.lookup_cons, hb]
    · rw [List.filter_cons_of_pos (by simpa using ha), List.lookup_cons, List.lookup_cons, ih]

theorem lookup_filter_self (a : α) (es : List (α × β)) :
    (es.filter fun e => e.1 ≠ a).lookup a = none := by
  apply lookup_eq_none
  intro e he
  simpa using (List.mem_filter.1 he).2

end Lookup

/-- After a write the content is there, and all other contents are what they were. -/
theorem content?_insert (ns : List String) : (fs.insert names content).content? ns =
    if ns = names then some content else fs.content? ns := by
  rw [content?, insert, List.lookup_append]
  by_cases h : ns = names
  · rw [if_pos h, h, lookup_filter_self, Option.none_or, List.lookup_cons_self]
  · rw [if_neg h, lookup_filter_ne h]
    have hb : (ns == names) = false := beq_eq_false_iff_ne.2 h
    simp [List.lookup_cons, hb, content?]

/-- A directory is still one after a write. -/
theorem hasDirectory_insert {ns : List String} (h : fs.hasDirectory ns = true) :
    (fs.insert names content).hasDirectory ns = true := by
  rw [hasDirectory, Bool.or_eq_true, List.any_eq_true (l := fs.entries)] at h
  rw [hasDirectory, Bool.or_eq_true, List.any_eq_true (l := (fs.insert names content).entries)]
  refine h.imp_right fun ⟨e, he, hbelow⟩ => ?_
  by_cases hsame : e.1 = names
  · exact ⟨(names, content), List.mem_append_right _ (List.mem_singleton_self _), hsame ▸ hbelow⟩
  · exact ⟨e, List.mem_append_left _ (List.mem_filter.2 ⟨he, by simpa using hsame⟩), hbelow⟩

/-! ## § Paths -/

/-- **Writable** — a file, or the free place of one. -/
def Writable (l : Location) (names : List String) : Prop := l = .file names ∨ l = .free names

theorem writable_file {ns : List String} : Writable (.file ns) names ↔ ns = names := by
  simp [Writable]

theorem writable_free {ns : List String} : Writable (.free ns) names ↔ ns = names := by
  simp [Writable]

/-- Where a path leads that can be written to, there is a file, or no directory. -/
theorem not_directory {here parts : List String} (h : Writable (fs.walk here parts) names) :
    (fs.content? names).isSome = true ∨ fs.hasDirectory names = false := by
  fun_induction walk fs here parts with
  | case1 => simp [Writable] at h
  | case2 here rest ih => exact ih h
  | case3 here rest ih => exact ih h
  | case4 here rest ih => exact ih h
  | case5 => simp [Writable] at h
  | case6 here name rest _ _ _ ns _ hcontent _ => exact .inl (writable_file.1 h ▸ hcontent)
  | case7 => simp [Writable] at h
  | case8 here name rest _ _ _ ns _ _ _ ih => exact ih h
  | case9 here name rest _ _ _ ns _ _ hdirectory _ =>
    exact .inr (writable_free.1 h ▸ Bool.eq_false_iff.2 hdirectory)
  | case10 => simp [Writable] at h

/-- The step from a directory to something in it. -/
theorem walk_name {here rest : List String} {name : String}
    (hname : (name = "" → False) ∧ (name = "." → False) ∧ (name = ".." → False))
    (hlength : ¬ maxNameBytes < name.utf8ByteSize) :
    fs.walk here (name :: rest) =
      if (fs.content? (here ++ [name])).isSome then
        if rest.isEmpty then .file (here ++ [name]) else .blocked
      else if fs.hasDirectory (here ++ [name]) then fs.walk (here ++ [name]) rest
      else if rest.isEmpty then .free (here ++ [name])
      else .nowhere := by
  rw [walk]
  · exact if_neg hlength
  · exact hname.1
  · exact hname.2.1
  · exact hname.2.2

/-- The same parts lead to the file once it is written. -/
theorem walk_insert {here parts : List String} (h : Writable (fs.walk here parts) names) :
    (fs.insert names content).walk here parts = .file names := by
  -- What the walk ends at is no directory on its way.
  have hplace := not_directory h
  have hwritten : ((fs.insert names content).content? names).isSome = true := by
    rw [content?_insert, if_pos rfl]
    rfl
  fun_induction walk fs here parts with
  | case1 => simp [Writable] at h
  | case2 here rest ih => rw [walk]; exact ih h
  | case3 here rest ih => rw [walk]; exact ih h
  | case4 here rest ih => rw [walk]; exact ih h
  | case5 => simp [Writable] at h
  | case6 here name rest hnone hdot hdots ns hlength _ hrest =>
    obtain rfl : here ++ [name] = names := writable_file.1 h
    rw [walk_name ⟨hnone, hdot, hdots⟩ hlength, if_pos hwritten, if_pos hrest]
  | case7 => simp [Writable] at h
  | case8 here name rest hnone hdot hdots ns hlength hcontent hdirectory ih =>
    have hother : here ++ [name] ≠ names := by
      rintro rfl
      exact hplace.elim hcontent (Bool.eq_false_iff.1 · hdirectory)
    rw [walk_name ⟨hnone, hdot, hdots⟩ hlength, content?_insert, if_neg hother, if_neg hcontent,
      if_pos (hasDirectory_insert hdirectory)]
    exact ih h
  | case9 here name rest hnone hdot hdots ns hlength _ _ hrest =>
    obtain rfl : here ++ [name] = names := writable_free.1 h
    rw [walk_name ⟨hnone, hdot, hdots⟩ hlength, if_pos hwritten, if_pos hrest]
  | case10 => simp [Writable] at h

/-- A path leads to what is written to it. -/
theorem locate_insert {path : String} (h : Writable (fs.locate path) names) :
    (fs.insert names content).locate path = .file names := by
  unfold locate at h ⊢
  split at h
  · simp [Writable] at h
  · rename_i hlength
    rw [if_neg hlength]
    split at h
    · simp [Writable] at h
    · exact walk_insert h
    · exact walk_insert h

/-! ## § A slash at the end -/

theorem splitOn_append_cons (sep : Char) (a b : List Char) :
    Text.splitOn sep (a ++ sep :: b) = Text.splitOn sep a ++ Text.splitOn sep b := by
  induction a with
  | nil => simp [Text.splitOn]
  | cons c cs ih =>
    rw [List.cons_append, Text.splitOn, Text.splitOn, ih]
    split
    · rfl
    · cases h : Text.splitOn sep cs with
      | nil => exact absurd h (Text.splitOn_ne_nil sep cs)
      | cons part parts => rfl

/-- In front of the last name of a path stands a directory, which is called by a dot. -/
theorem parts_beforeLastName (path : String) : ∃ front,
    Text.splitOn '/' (beforeLastName path).toList = front ++ [['.']] := by
  rw [beforeLastName, String.toList_ofList]
  generalize hstart : (path.toList.reverse.dropWhile (· == '/')).dropWhile (· ≠ '/') = start
  cases start with
  | nil => exact ⟨[], rfl⟩
  | cons c cs =>
    have hslash : c = '/' := by
      have hhead := List.head?_dropWhile_not (fun x : Char => decide (x ≠ '/'))
        (path.toList.reverse.dropWhile (· == '/'))
      rw [hstart] at hhead
      simpa using hhead
    subst hslash
    refine ⟨Text.splitOn '/' cs.reverse, ?_⟩
    rw [List.reverse_cons, List.append_assoc, List.singleton_append, splitOn_append_cons]
    rfl

/-- A dot at the end of a path is a directory. -/
theorem not_writable_dot {here parts : List String} (h : Writable (fs.walk here parts) names) :
    parts.getLast? ≠ some "." := by
  fun_induction walk fs here parts with
  | case1 => simp [Writable] at h
  | case2 here rest ih =>
    intro hlast
    cases rest with
    | nil => simp at hlast
    | cons part rest => exact ih h hlast
  | case3 here rest ih =>
    intro hlast
    cases rest with
    | nil => simp [walk, Writable] at h
    | cons part rest => exact ih h hlast
  | case4 here rest ih =>
    intro hlast
    cases rest with
    | nil => simp at hlast
    | cons part rest => exact ih h hlast
  | case5 => simp [Writable] at h
  | case6 here name rest hnone hdot hdots ns hlength _ hrest =>
    rw [List.isEmpty_iff.1 hrest]
    exact fun hlast => hdot (Option.some.inj hlast)
  | case7 => simp [Writable] at h
  | case8 here name rest hnone hdot hdots ns hlength _ _ ih =>
    intro hlast
    cases rest with
    | nil => exact hdot (Option.some.inj hlast)
    | cons part rest => exact ih h hlast
  | case9 here name rest hnone hdot hdots ns hlength _ _ hrest =>
    rw [List.isEmpty_iff.1 hrest]
    exact fun hlast => hdot (Option.some.inj hlast)
  | case10 => simp [Writable] at h

theorem not_writable_beforeLastName (path : String) :
    ¬ Writable (fs.locate (beforeLastName path)) names := by
  obtain ⟨front, hparts⟩ := parts_beforeLastName path
  have hlast : ((Text.splitOn '/' (beforeLastName path).toList).map String.ofList).getLast? =
      some "." := by
    simp [hparts]
  intro h
  unfold locate at h
  split at h
  · simp [Writable] at h
  · split at h
    · simp [Writable] at h
    · rename_i rest _ hrest
      rw [hrest] at hlast
      -- A path from the root has a part behind its slash, so the dot is not the first of them.
      cases rest with
      | nil => simp at hlast
      | cons part parts => exact not_writable_dot h hlast
    · exact not_writable_dot h hlast

/-- A file is written where its path leads, and never behind a slash. -/
theorem writable_locate {path : String} (h : Writable (fs.locateToWrite path) names) :
    Writable (fs.locate path) names := by
  rw [locateToWrite] at h
  split at h
  · exact absurd h (not_writable_beforeLastName path)
  · exact h

/-! ## § Writes -/

/-- **WrittenTo** — the path leads to the content, and all other files have the contents that they
had before. -/
def WrittenTo (before after : Files) (path : String) (content : ByteArray) : Prop :=
  ∃ names, after.locate path = .file names ∧
    ∀ ns, after.content? ns = if ns = names then some content else before.content? ns

theorem write_eq_ok {path : String} : fs.write path content = .ok after ↔
    ∃ names, Writable (fs.locateToWrite path) names ∧ after = fs.insert names content := by
  rw [write]
  cases fs.locateToWrite path with
  | file ns => simp [writable_file, eq_comm]
  | free ns => simp [writable_free, eq_comm]
  | directory => simp [Writable]
  | nowhere => simp [Writable]
  | blocked => simp [Writable]
  | tooLong => simp [Writable]

/-- A write that succeeds writes the content, and nothing else. -/
theorem writtenTo_of_write {path : String} (h : fs.write path content = .ok after) :
    WrittenTo fs after path content := by
  obtain ⟨names, hplace, rfl⟩ := write_eq_ok.1 h
  exact ⟨names, locate_insert (writable_locate hplace), content?_insert⟩

/-- What is written to a path is read from it. -/
theorem WrittenTo.read_eq {path : String} (h : WrittenTo fs after path content) :
    after.read path = .ok content := by
  obtain ⟨names, hpath, hcontent⟩ := h
  have hthere : after.content? names = some content := (hcontent names).trans (if_pos rfl)
  simp only [read, hpath, hthere]

end RegisterMap.Files
