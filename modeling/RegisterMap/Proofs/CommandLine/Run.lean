import RegisterMap.CommandLine.Job
import RegisterMap.Proofs.Files.Write
import RegisterMap.Proofs.Header.Declared

/-!
# Runs — all or nothing

A run prints or saves a whole header, or nothing of it. Everything that can fail comes before the
header leaves the program: the description is read and checked, then the header is made as one text,
and only then it is printed, or written to its file in one step. The log is all that is printed
besides.

## § What is here

* `Request.summaryRecord`, `generate_records` — what the log says about a header;
* `Request.Course`, `course_runIn` — the ways that a request can go;
* `Request.LogOnly`, `Request.Possible` — output without a header, and what a success takes;
* `all_or_nothing` — what every run comes to.
-/

namespace RegisterMap

open Outcome

/-- What is written as a text is read as one. -/
theorem decodeText_toUTF8 (s : String) : decodeText s.toUTF8 = .ok s := by
  unfold decodeText String.fromUTF8?
  rw [dif_pos (show s.toUTF8.IsValidUTF8 from s.isValidUTF8)]
  rfl

/-! ## § The log of a header -/

namespace Logged

variable {ε ε' α β : Type} {x : Logged ε α}

/-- After a result the next computation goes on with the log. -/
theorem mapError_bind_of_ok {a : α} (h : x.result = .ok a) (g : ε → ε') (f : α → Logged ε' β) :
    x.mapError g >>= f = ⟨x.records ++ (f a).records, (f a).result⟩ := by
  obtain ⟨records, result⟩ := x
  obtain rfl := h
  rfl

/-- After an error the log is as it is. -/
theorem mapError_bind_of_error {e : ε} (h : x.result = .error e) (g : ε → ε')
    (f : α → Logged ε' β) : x.mapError g >>= f = ⟨x.records, .error (g e)⟩ := by
  obtain ⟨records, result⟩ := x
  obtain rfl := h
  rfl

end Logged

namespace Header

variable {d : Device} {title : HeaderName}

theorem generate_of_declarations {ds : List Declaration}
    (h : Scope.declarations ⟨d, title⟩ = .ok ds) :
    generate d title
      = ⟨[⟨.info, .header, Scope.summary ⟨d, title⟩⟩], .ok (Declaration.renderAll ds)⟩ := by
  rw [generate, h]
  rfl

theorem generate_of_no_declarations {u : Unsupported}
    (h : Scope.declarations ⟨d, title⟩ = .error u) : generate d title = ⟨[], .error u⟩ := by
  rw [generate, h]
  rfl

/-- A finished header has one line in the log. -/
theorem generate_of_ok {text : String} (h : (generate d title).result = .ok text) :
    generate d title = ⟨[⟨.info, .header, Scope.summary ⟨d, title⟩⟩], .ok text⟩ := by
  cases hds : Scope.declarations ⟨d, title⟩ with
  | ok ds =>
    rw [generate_of_declarations hds] at h ⊢
    obtain rfl := Except.ok.inj h
    rfl
  | error u =>
    rw [generate_of_no_declarations hds] at h
    cases h

/-- A header that cannot be made has none. -/
theorem generate_of_error {u : Unsupported} (h : (generate d title).result = .error u) :
    generate d title = ⟨[], .error u⟩ := by
  cases hds : Scope.declarations ⟨d, title⟩ with
  | ok ds =>
    rw [generate_of_declarations hds] at h
    cases h
  | error u' =>
    rw [generate_of_no_declarations hds] at h ⊢
    obtain rfl := Except.error.inj h
    rfl

end Header

namespace CommandLine

/-! ## § Ways of a request -/

namespace Request

/-- **summaryRecord** — the line of the log about a finished header. -/
def summaryRecord (r : Request) (d : Device) : Log.Record :=
  ⟨.info, .header, Header.Scope.summary ⟨d, r.titleOf⟩⟩

/-- **loaded** — the description of a request, with the log of loading it. -/
def loaded (r : Request) (fs : Files) : Logged LoadFault Device :=
  Device.ofContent (fs.read r.yaml)

variable {r : Request} {fs : Files} {d : Device}

/-- A file that holds a text gives what the text describes. -/
theorem loaded_of_text {text : String} (read : fs.read r.yaml = .ok text.toUTF8)
    (accepted : (Device.ofText text).result = .ok d) : (r.loaded fs).result = .ok d := by
  have hdecoded : (Except.ok text.toUTF8 >>= decodeText) = .ok text := decodeText_toUTF8 text
  rw [loaded, read, Device.ofContent, hdecoded, Logged.result_bind]
  exact mapError_eq_ok.2 accepted

theorem job_of_unloaded {fault : LoadFault} (load : (r.loaded fs).result = .error fault) :
    r.job (fs.read r.yaml) = ⟨(r.loaded fs).records, .error (.ofLoad r.yaml fault)⟩ :=
  Logged.mapError_bind_of_error load _ _

theorem job_of_check (load : (r.loaded fs).result = .ok d) (kind : r.kind = .check) :
    r.job (fs.read r.yaml) = ⟨(r.loaded fs).records, .ok (.print (report d))⟩ := by
  rw [job, kind]
  refine (Logged.mapError_bind_of_ok load _ _).trans ?_
  show Logged.mk ((r.loaded fs).records ++ []) _ = _
  rw [List.append_nil]
  rfl

theorem job_of_unsupported {u : Header.Unsupported} (load : (r.loaded fs).result = .ok d)
    (kind : r.kind = .header) (generate : (Header.generate d r.titleOf).result = .error u) :
    r.job (fs.read r.yaml) = ⟨(r.loaded fs).records, .error (.ofHeader r.yaml u)⟩ := by
  rw [job, kind]
  refine (Logged.mapError_bind_of_ok load _ _).trans ?_
  rw [Header.generate_of_error generate]
  show Logged.mk ((r.loaded fs).records ++ []) _ = _
  rw [List.append_nil]
  rfl

theorem job_of_header {text : String} (load : (r.loaded fs).result = .ok d)
    (kind : r.kind = .header) (generate : (Header.generate d r.titleOf).result = .ok text) :
    r.job (fs.read r.yaml) = ⟨(r.loaded fs).records ++ [r.summaryRecord d],
      .ok (r.output.elim (.print text) fun path => .save path text)⟩ := by
  rw [job, kind]
  refine (Logged.mapError_bind_of_ok load _ _).trans ?_
  rw [Header.generate_of_ok generate]
  cases r.output with
  | none => rfl
  | some path => rfl

/-- **Course** — the ways that a request can go, with what they print and leave behind. -/
inductive Course (fs : Files) (r : Request) : Outcome × Files → Prop
  | unloaded {fault : LoadFault} (load : (r.loaded fs).result = .error fault) :
    Course fs r (r.failed (r.loaded fs).records (.ofLoad r.yaml fault), fs)
  | checked {d : Device} (load : (r.loaded fs).result = .ok d) (kind : r.kind = .check) :
    Course fs r (r.printed (r.loaded fs).records (report d), fs)
  | unsupported {d : Device} {u : Header.Unsupported} (load : (r.loaded fs).result = .ok d)
    (kind : r.kind = .header) (generate : (Header.generate d r.titleOf).result = .error u) :
    Course fs r (r.failed (r.loaded fs).records (.ofHeader r.yaml u), fs)
  | printed {d : Device} {text : String} (load : (r.loaded fs).result = .ok d)
    (kind : r.kind = .header) (generate : (Header.generate d r.titleOf).result = .ok text)
    (output : r.output = none) :
    Course fs r (r.printed ((r.loaded fs).records ++ [r.summaryRecord d]) text, fs)
  | unwritten {d : Device} {text path : String} {fault : FileFault}
    (load : (r.loaded fs).result = .ok d) (kind : r.kind = .header)
    (generate : (Header.generate d r.titleOf).result = .ok text) (output : r.output = some path)
    (write : fs.write path text.toUTF8 = .error fault) :
    Course fs r (r.saved ((r.loaded fs).records ++ [r.summaryRecord d]) path (.error fault), fs)
  | saved {d : Device} {text path : String} {after : Files}
    (load : (r.loaded fs).result = .ok d) (kind : r.kind = .header)
    (generate : (Header.generate d r.titleOf).result = .ok text) (output : r.output = some path)
    (write : fs.write path text.toUTF8 = .ok after) :
    Course fs r (r.saved ((r.loaded fs).records ++ [r.summaryRecord d]) path (.ok ()), after)

end Request

theorem course_runIn {fs : Files} {args : List String} {r : Request}
    (h : readArguments args = .run r) : r.Course fs (runIn fs args) := by
  simp only [runIn, h]
  cases load : (r.loaded fs).result with
  | error fault =>
    rw [Request.job_of_unloaded load]
    exact .unloaded load
  | ok d =>
    cases kind : r.kind with
    | check =>
      rw [Request.job_of_check load kind]
      exact .checked load kind
    | header =>
      cases generate : (Header.generate d r.titleOf).result with
      | error u =>
        rw [Request.job_of_unsupported load kind generate]
        exact .unsupported load kind generate
      | ok text =>
        rw [Request.job_of_header load kind generate]
        cases output : r.output with
        | none => exact .printed load kind generate output
        | some path =>
          simp only [Option.elim_some]
          cases write : fs.write path text.toUTF8 with
          | error fault => exact .unwritten load kind generate output write
          | ok after => exact .saved load kind generate output write

/-! ## § Outcomes -/

theorem Failure.status_ne_zero (f : Failure) : f.status ≠ 0 := by
  cases f with
  | report what causes => exact Nat.succ_ne_zero 0
  | abort fault => exact Nat.succ_ne_zero 100

namespace Request

theorem failed_ne_zero {r : Request} {records : List Log.Record} {f : Failure} :
    (r.failed records f).status ≠ 0 := f.status_ne_zero

/-- **LogOnly** — the output is the log alone: of loading the description, and of a header that was
made but could not be saved. -/
def LogOnly (r : Request) (fs : Files) (output : String) : Prop :=
  output = r.logText (r.loaded fs).records ∨
    ∃ d, (r.loaded fs).result = .ok d ∧
      output = r.logText ((r.loaded fs).records ++ [r.summaryRecord d])

/-- **Possible** — the description gives a device, and if a header is asked for, that can be made,
and written when it goes to a file. -/
def Possible (r : Request) (fs : Files) : Prop :=
  ∃ d, (r.loaded fs).result = .ok d ∧ (r.kind = .header →
    ∃ text, (Header.generate d r.titleOf).result = .ok text ∧
      ∀ path, r.output = some path → ∃ after, fs.write path text.toUTF8 = .ok after)

/-- **Emitted** — the header of the device is in its file and no other file is changed, or it is
printed behind the log and no file is changed. Its name is the one that is asked for, or that of the
description. -/
structure Emitted (r : Request) (fs after : Files) (output : String) (d : Device) (text : String) :
    Prop where
  loaded : (r.loaded fs).result = .ok d
  generated : (Header.generate d (r.title.elim (HeaderName.ofPath r.yaml) HeaderName.mk)).result
    = .ok text
  saved : ∀ path, r.output = some path → fs.WrittenTo after path text.toUTF8 ∧
    output = r.logText ((r.loaded fs).records ++
      [r.summaryRecord d, ⟨.info, .command, "wrote " ++ path⟩])
  printed : r.output = none → after = fs ∧
    output = r.logText ((r.loaded fs).records ++ [r.summaryRecord d]) ++ text

variable {r : Request} {fs : Files} {result : Outcome × Files}

theorem titleOf_eq (r : Request) :
    r.titleOf = r.title.elim (HeaderName.ofPath r.yaml) HeaderName.mk := by
  rw [titleOf]
  cases r.title with
  | none => rfl
  | some name => rfl

namespace Course

theorem status_eq_zero_iff (h : r.Course fs result) : result.1.status = 0 ↔ r.Possible fs := by
  cases h with
  | unloaded load =>
    refine iff_of_false failed_ne_zero ?_
    intro ⟨d, hd, _⟩
    rw [load] at hd
    cases hd
  | checked load kind =>
    refine iff_of_true rfl ⟨_, load, fun h => ?_⟩
    rw [kind] at h
    cases h
  | unsupported load kind generate =>
    refine iff_of_false failed_ne_zero ?_
    intro ⟨d, hd, htext⟩
    obtain rfl := Except.ok.inj (load.symm.trans hd)
    obtain ⟨text, hgenerate, -⟩ := htext kind
    rw [generate] at hgenerate
    cases hgenerate
  | printed load kind generate output =>
    refine iff_of_true rfl ⟨_, load, fun _ => ⟨_, generate, fun path hpath => ?_⟩⟩
    rw [output] at hpath
    cases hpath
  | unwritten load kind generate output write =>
    refine iff_of_false failed_ne_zero ?_
    intro ⟨d, hd, htext⟩
    obtain rfl := Except.ok.inj (load.symm.trans hd)
    obtain ⟨text, hgenerate, hwrite⟩ := htext kind
    obtain rfl := Except.ok.inj (generate.symm.trans hgenerate)
    obtain ⟨after, hafter⟩ := hwrite _ output
    rw [write] at hafter
    cases hafter
  | saved load kind generate output write =>
    refine iff_of_true rfl ⟨_, load, fun _ => ⟨_, generate, fun path hpath => ?_⟩⟩
    obtain rfl := Option.some.inj (output.symm.trans hpath)
    exact ⟨_, write⟩

/-- A request that fails changes no file and prints the log alone. -/
theorem of_failure (h : r.Course fs result) (hstatus : result.1.status ≠ 0) :
    result.2 = fs ∧ r.LogOnly fs result.1.output := by
  cases h with
  | unloaded load => exact ⟨rfl, .inl rfl⟩
  | checked load kind => exact absurd rfl hstatus
  | unsupported load kind generate => exact ⟨rfl, .inl rfl⟩
  | printed load kind generate output => exact absurd rfl hstatus
  | unwritten load kind generate output write => exact ⟨rfl, .inr ⟨_, load, rfl⟩⟩
  | saved load kind generate output write => exact absurd rfl hstatus

/-- A request for a header that does not fail emits it. -/
theorem of_header (h : r.Course fs result) (hkind : r.kind = .header)
    (hstatus : result.1.status = 0) :
    ∃ d text, r.Emitted fs result.2 result.1.output d text := by
  cases h with
  | unloaded load => exact absurd hstatus failed_ne_zero
  | checked load kind =>
    rw [hkind] at kind
    cases kind
  | unsupported load kind generate => exact absurd hstatus failed_ne_zero
  | printed load kind generate output =>
    rw [titleOf_eq] at generate
    refine ⟨_, _, load, generate, fun path hpath => ?_, fun _ => ⟨rfl, rfl⟩⟩
    rw [output] at hpath
    cases hpath
  | unwritten load kind generate output write =>
    exact absurd hstatus failed_ne_zero
  | saved load kind generate output write =>
    rw [titleOf_eq] at generate
    refine ⟨_, _, load, generate, fun path hpath => ?_, fun hnone => ?_⟩
    · obtain rfl := Option.some.inj (output.symm.trans hpath)
      refine ⟨Files.writtenTo_of_write write, congrArg r.logText ?_⟩
      exact List.append_assoc _ _ _
    · rw [output] at hnone
      cases hnone

/-- Only a header that is saved changes a file. -/
theorem of_changed (h : r.Course fs result) (hchanged : result.2 ≠ fs) :
    r.kind = .header ∧ r.output.isSome = true ∧ result.1.status = 0 := by
  cases h with
  | unloaded load => exact absurd rfl hchanged
  | checked load kind => exact absurd rfl hchanged
  | unsupported load kind generate => exact absurd rfl hchanged
  | printed load kind generate output => exact absurd rfl hchanged
  | unwritten load kind generate output write => exact absurd rfl hchanged
  | saved load kind generate output write => exact ⟨kind, output ▸ rfl, rfl⟩

end Course

end Request

/-! ## § Every run -/

/-- What the program answers without a request it answers without the files. -/
theorem runIn_answered {fs : Files} {args : List String}
    (h : ∀ r, readArguments args ≠ .run r) :
    runIn fs args = ((readArguments args).answered, fs) := by
  unfold runIn
  cases hreading : readArguments args with
  | run r => exact absurd hreading (h r)
  | version => rfl
  | help => rfl
  | misuse => rfl

theorem Reading.answered_failed {reading : Reading} (h : reading.answered.status ≠ 0) :
    reading.answered.output = "" := by
  cases reading with
  | version => exact absurd rfl h
  | help => exact absurd rfl h
  | run r => rfl
  | misuse => rfl

/-- **All or nothing.** Whatever files there are and whatever the arguments: a run that fails
changes no file, and prints nothing but the log. A run that is asked for a header and does not fail
emits it: the whole header of the description is in its file, no other file is changed and the log
is all that is printed; or no file is changed and the header is printed behind the log. Nothing else
changes a file. A request goes well exactly when all its parts can be done. -/
theorem all_or_nothing (fs : Files) (args : List String) :
    let outcome := (runIn fs args).1
    let after := (runIn fs args).2
    (outcome.status ≠ 0 → after = fs ∧ (outcome.output = "" ∨
      ∃ r, readArguments args = .run r ∧ r.LogOnly fs outcome.output)) ∧
    (∀ r, readArguments args = .run r → r.kind = .header → outcome.status = 0 →
      ∃ d text, r.Emitted fs after outcome.output d text) ∧
    (after ≠ fs → ∃ r, readArguments args = .run r ∧ r.kind = .header ∧ r.output.isSome = true ∧
      outcome.status = 0) ∧
    (∀ r, readArguments args = .run r → (outcome.status = 0 ↔ r.Possible fs)) := by
  intro outcome after
  by_cases hrun : ∃ r, readArguments args = .run r
  · obtain ⟨r, hr⟩ := hrun
    have hcourse : r.Course fs (outcome, after) := course_runIn hr
    have hsame : ∀ q, readArguments args = .run q → q = r := fun q hq =>
      Reading.run.inj (hq.symm.trans hr)
    refine ⟨fun hstatus => ?_, fun q hq hkind hstatus => ?_, fun hchanged => ?_, fun q hq => ?_⟩
    · obtain ⟨hafter, houtput⟩ := hcourse.of_failure hstatus
      exact ⟨hafter, .inr ⟨r, hr, houtput⟩⟩
    · obtain rfl := hsame q hq
      exact hcourse.of_header hkind hstatus
    · exact ⟨r, hr, hcourse.of_changed hchanged⟩
    · obtain rfl := hsame q hq
      exact hcourse.status_eq_zero_iff
  · have hnone : ∀ r, readArguments args ≠ .run r := fun r hr => hrun ⟨r, hr⟩
    have hrunIn : runIn fs args = ((readArguments args).answered, fs) := runIn_answered hnone
    have houtcome : outcome = (readArguments args).answered := congrArg Prod.fst hrunIn
    have hafter : after = fs := congrArg Prod.snd hrunIn
    refine ⟨fun hstatus => ?_, fun r hr => absurd hr (hnone r), fun hchanged => ?_,
      fun r hr => absurd hr (hnone r)⟩
    · rw [houtcome] at hstatus ⊢
      exact ⟨hafter, .inl (Reading.answered_failed hstatus)⟩
    · exact absurd hafter hchanged

namespace Sample

open Header.Sample (text header)

/-- **files** — a directory with a description, and an empty one somewhere else. -/
def files : Files := Files.put { directories := [["build"]] } ["dev.yaml"] text.toUTF8

/-- **request** — the header is asked for in a file. -/
def request (output : String) : Request := ⟨.header, "dev.yaml", some output, none, 0⟩

/-- **arguments** — what asks for it. -/
def arguments (output : String) : List String := ["header", "-y", "dev.yaml", "-o", output]

theorem asked : readArguments (arguments "/build/dev.h") = .run (request "/build/dev.h") := by
  decide

theorem asked_astray : readArguments (arguments "gen/dev.h") = .run (request "gen/dev.h") := by
  decide

theorem loaded (output : String) :
    ((request output).loaded files).result = .ok Header.Sample.device := by
  have hread : files.read "dev.yaml" = .ok text.toUTF8 := by rfl
  exact Request.loaded_of_text hread Header.Sample.accepted

theorem written (content : ByteArray) :
    files.write "/build/dev.h" content = .ok (files.insert ["build", "dev.h"] content) := by rfl

theorem unwritten (content : ByteArray) :
    files.write "gen/dev.h" content = .error .notFound := by rfl

end Sample

open Sample in
/-- The header is written to the empty directory, which an absolute path names, under the name of
its description. A file in a directory that is not there is not written, and nothing is changed. -/
theorem all_or_nothing_sample :
    (runIn files (arguments "/build/dev.h")).1.status = 0 ∧
      (runIn files (arguments "/build/dev.h")).2.read "/build/dev.h"
        = .ok Header.Sample.header.toUTF8 ∧
      (runIn files (arguments "gen/dev.h")).1.status ≠ 0 ∧
      (runIn files (arguments "gen/dev.h")).2 = files := by
  obtain ⟨-, hemitted, -, hpossible⟩ := all_or_nothing files (arguments "/build/dev.h")
  obtain ⟨hfailed, -, -, hastray⟩ := all_or_nothing files (arguments "gen/dev.h")
  have htitle : HeaderName.ofPath "dev.yaml" = ⟨"dev"⟩ := by decide
  have hzero : (runIn files (arguments "/build/dev.h")).1.status = 0 := by
    refine (hpossible _ asked).2 ⟨Header.Sample.device, loaded "/build/dev.h",
      fun _ => ⟨Header.Sample.header, ?_, ?_⟩⟩
    · show (Header.generate Header.Sample.device (HeaderName.ofPath "dev.yaml")).result = _
      rw [htitle]
      exact Header.Sample.generated
    · intro path hpath
      obtain rfl : "/build/dev.h" = path := Option.some.inj hpath
      exact ⟨_, written _⟩
  have hnonzero : (runIn files (arguments "gen/dev.h")).1.status ≠ 0 := by
    intro hstatus
    obtain ⟨d, -, hheader⟩ := (hastray _ asked_astray).1 hstatus
    obtain ⟨text, -, hwrite⟩ := hheader rfl
    obtain ⟨after, hafter⟩ := hwrite "gen/dev.h" rfl
    rw [unwritten] at hafter
    cases hafter
  obtain ⟨d, header, hall⟩ := hemitted _ asked rfl hzero
  obtain ⟨hfile, -⟩ := hall.saved "/build/dev.h" rfl
  have hdevice : Header.Sample.device = d :=
    Except.ok.inj ((loaded "/build/dev.h").symm.trans hall.loaded)
  have hheader : Header.Sample.header = header := by
    have hgenerated := hall.generated
    rw [← hdevice] at hgenerated
    change (Header.generate _ (HeaderName.ofPath "dev.yaml")).result = _ at hgenerated
    rw [htitle, Header.Sample.generated] at hgenerated
    exact Except.ok.inj hgenerated
  refine ⟨hzero, ?_, hnonzero, (hfailed hnonzero).1⟩
  rw [hheader]
  exact hfile.read_eq

end CommandLine

end RegisterMap
