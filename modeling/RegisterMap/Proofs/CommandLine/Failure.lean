import RegisterMap.Proofs.CommandLine.Run
import RegisterMap.Proofs.Device.Invariant
import RegisterMap.Proofs.Header.Refusal

/-!
# Failures — what a check says about a header

A request to check a description and a request for its header load it in the same way, so they fail
together, with one report. When the check goes well, the header can only meet an obstacle behind
that point: the device refuses a field, or the file of the header cannot be written. Both are
reported; neither ends the program by a number that does not fit.

## § What is here

* `Request.Course.of_unloaded`, `Request.Course.of_check` — a request without a device, and a check
  with one;
* `Request.Obstacle`, `Request.Course.header_cases` — why a header of a device is not made or not
  saved, and what is reported then;
* `failures` — when headers fail, and with what.
-/

namespace RegisterMap.CommandLine

namespace Request

/-- **Obstacle** — why the header of a device cannot be made, or cannot be saved. -/
inductive Obstacle (fs : Files) (r : Request) (d : Device) : Failure → Prop
  | refused {p : Header.Place} {f : Field} (refuses : Header.Scope.Refuses ⟨d, r.titleOf⟩ p f) :
    Obstacle fs r d (.ofHeader r.yaml ⟨p.name, f.name⟩)
  | unwritten {text path : String} {fault : FileFault}
    (generate : (Header.generate d r.titleOf).result = .ok text) (output : r.output = some path)
    (write : fs.write path text.toUTF8 = .error fault) :
    Obstacle fs r d (.ofWrite path fault)

variable {r : Request} {fs : Files} {d : Device} {result : Outcome × Files} {failure : Failure}

/-- What meets an obstacle cannot go well. -/
theorem Obstacle.not_possible (h : r.Obstacle fs d failure) (load : (r.loaded fs).result = .ok d)
    (hkind : r.kind = .header) : ¬ r.Possible fs := by
  intro ⟨d', load', hheader⟩
  obtain rfl := Except.ok.inj (load.symm.trans load')
  obtain ⟨text, hgenerate, hwrite⟩ := hheader hkind
  cases h with
  | refused refuses =>
    rw [Header.generate_eq_error.2 ⟨_, _, refuses, rfl⟩] at hgenerate
    cases hgenerate
  | unwritten generate output write =>
    obtain rfl := Except.ok.inj (generate.symm.trans hgenerate)
    obtain ⟨after, hafter⟩ := hwrite _ output
    rw [write] at hafter
    cases hafter

namespace Course

/-- A description that gives no device is reported, whatever is asked for. -/
theorem of_unloaded (h : r.Course fs result) {fault : LoadFault}
    (load : (r.loaded fs).result = .error fault) :
    result = (r.failed (r.loaded fs).records (.ofLoad r.yaml fault), fs) := by
  cases h with
  | unloaded load' =>
    obtain rfl := Except.error.inj (load'.symm.trans load)
    rfl
  | checked load' | unsupported load' | printed load' | unwritten load' | saved load' =>
    rw [load] at load'
    cases load'

/-- A check of a device goes well. -/
theorem of_check (h : r.Course fs result) (hkind : r.kind = .check)
    (load : (r.loaded fs).result = .ok d) : result.1.status = 0 := by
  rw [h.status_eq_zero_iff]
  refine ⟨d, load, fun hheader => ?_⟩
  rw [hkind] at hheader
  cases hheader

/-- A header of a device goes well, or its obstacle is reported: no file is changed then, and nothing
but the log is printed. -/
theorem header_cases (h : r.Course fs result) (hkind : r.kind = .header)
    (load : (r.loaded fs).result = .ok d) :
    (result.1.status = 0 ∧ ∀ failure, ¬ r.Obstacle fs d failure) ∨
      ∃ failure, r.Obstacle fs d failure ∧ result.1.status = 1 ∧
        result.1.errors = failure.render ∧ result.2 = fs ∧ r.LogOnly fs result.1.output := by
  by_cases hstatus : result.1.status = 0
  · exact .inl ⟨hstatus, fun failure hobstacle =>
      hobstacle.not_possible load hkind (h.status_eq_zero_iff.1 hstatus)⟩
  · refine .inr ?_
    have hnothing := h.of_failure hstatus
    cases h with
    | unloaded load' =>
      rw [load] at load'
      cases load'
    | checked load' kind => exact absurd rfl hstatus
    | unsupported load' kind generate =>
      obtain rfl := Except.ok.inj (load.symm.trans load')
      obtain ⟨p, f, refuses, rfl⟩ := Header.generate_eq_error.1 generate
      exact ⟨_, .refused refuses, rfl, rfl, hnothing⟩
    | printed load' kind generate output => exact absurd rfl hstatus
    | unwritten load' kind generate output write =>
      obtain rfl := Except.ok.inj (load.symm.trans load')
      exact ⟨_, .unwritten generate output write, rfl, rfl, hnothing⟩
    | saved load' kind generate output write => exact absurd rfl hstatus

end Course

end Request

/-! ## § All failures -/

/-- **When headers fail.** The header of an accepted device, under whatever name, is made exactly
when no register of several words has a field of listed bits. Otherwise there is no text, and the
refusal names the first such register, page by page, and the first such field of it, in descending
order of their lowest bits; the numbers that are computed for a header have room in any case.

So when a check and a header are requested of one description: if it gives no device, both fail with
the same status and the same report, and change no file. If it gives one, the check goes well, and
the header does too unless there is an obstacle, a field that the device refuses or a file that
cannot be written; then it fails with that report, prints nothing of a header and changes no
file. -/
theorem failures :
    (∀ {text : String} {d : Device}, (Device.ofText text).result = .ok d →
      ∀ title : HeaderName,
        ((∃ header, (Header.generate d title).result = .ok header) ↔
          ∀ page ∈ d.pages, ∀ reg ∈ page.regs, 1 < reg.wordCount →
            ∀ f ∈ reg.fields, f.bits.isScattered = false) ∧
        (∀ u, (Header.generate d title).result = .error u ↔
          ∃ p f, Header.Scope.Refuses ⟨d, title⟩ p f ∧ u = ⟨p.name, f.name⟩) ∧
        (∀ p ∈ Header.Scope.places ⟨d, title⟩,
          p.countedSlices = .ok ((List.range p.reg.wordCount).map p.slice) ∧
          p.reg.valueOffset < capacity 32 ∧ p.reg.fields.Pairwise fun f g => g.lo ≤ f.lo)) ∧
    (∀ (fs : Files) {args args' : List String} {r r' : Request},
      readArguments args = .run r → readArguments args' = .run r' →
      r.kind = .check → r'.kind = .header → r'.yaml = r.yaml →
        let check := runIn fs args
        let header := runIn fs args'
        (∀ fault, (r.loaded fs).result = .error fault →
          check.1.status = (Failure.ofLoad r.yaml fault).status ∧ check.1.status ≠ 0 ∧
          check.1.errors = (Failure.ofLoad r.yaml fault).render ∧ check.2 = fs ∧
          header.1.status = check.1.status ∧ header.1.errors = check.1.errors ∧ header.2 = fs) ∧
        (∀ d, (r.loaded fs).result = .ok d → check.1.status = 0 ∧
          ((header.1.status = 0 ∧ ∀ failure, ¬ r'.Obstacle fs d failure) ∨
            ∃ failure, r'.Obstacle fs d failure ∧ header.1.status = 1 ∧
              header.1.errors = failure.render ∧ header.2 = fs ∧
              r'.LogOnly fs header.1.output))) := by
  refine ⟨fun haccepted title => Header.generation haccepted title, ?_⟩
  intro fs args args' r r' hr hr' hkind hkind' hyaml check header
  have hcheck : r.Course fs check := course_runIn hr
  have hheader : r'.Course fs header := course_runIn hr'
  have hloaded : r'.loaded fs = r.loaded fs := by rw [Request.loaded, hyaml, Request.loaded]
  refine ⟨fun fault load => ?_, fun d load => ?_⟩
  · rw [hcheck.of_unloaded load, hheader.of_unloaded (hloaded ▸ load), hyaml]
    exact ⟨rfl, Request.failed_ne_zero, rfl, rfl, rfl, rfl, rfl⟩
  · exact ⟨hcheck.of_check hkind load, hheader.header_cases hkind' (hloaded ▸ load)⟩

namespace Listed

open Header (Place Scope)

/-- **files** — a directory with a description. -/
def files : Files := Files.put {} ["tuner.yaml"] Tuner.text.toUTF8

/-- **request** — a description is checked, or its header printed. -/
def request (kind : Kind) (yaml : String) : Request := ⟨kind, yaml, none, none, 0⟩

theorem loaded (kind : Kind) :
    ((request kind "tuner.yaml").loaded files).result = .ok Tuner.device := by
  have hread : files.read "tuner.yaml" = .ok Tuner.text.toUTF8 := by rfl
  exact Request.loaded_of_text hread Tuner.accepted

theorem unloaded (kind : Kind) :
    ((request kind "other.yaml").loaded files).result = .error (.file .notFound) := by
  have hread : files.read "other.yaml" = .error .notFound := by decide
  show (Device.ofContent (files.read "other.yaml")).result = _
  rw [hread]
  rfl

/-- **place** — the register of three words. -/
def place (title : HeaderName) : Place := ⟨⟨Tuner.device, title⟩, Tuner.page, Tuner.long⟩

theorem refuses (title : HeaderName) :
    Scope.Refuses ⟨Tuner.device, title⟩ (place title) Tuner.mix := by
  have hwords : 1 < Tuner.long.wordCount := by decide
  refine ⟨⟨[], [⟨⟨Tuner.device, title⟩, Tuner.page, Tuner.last⟩], rfl, ?_⟩, hwords,
    [Tuner.top], [], rfl, ?_, rfl⟩
  · intro q hq
    cases hq
  · intro g hg
    rw [List.mem_singleton.1 hg]
    rfl

end Listed

open Listed in
/-- The register of three words has single bits next to a range, so there is a report instead of a
header, while the check goes well. A file that is not there is reported in both cases alike. -/
theorem failures_tuner :
    (Header.generate Tuner.device ⟨"tuner"⟩).result = .error ⟨"LONG", "MIX"⟩ ∧
      (runIn files ["check", "-y", "tuner.yaml"]).1.status = 0 ∧
      (runIn files ["header", "-y", "tuner.yaml"]).1.status = 1 ∧
      (runIn files ["header", "-y", "tuner.yaml"]).1.errors =
        "Error: failed to generate header for tuner.yaml\n\nCaused by:\n    unsupported: bulk "
          ++ "register operations on `LONG` are not supported for the bit-list field `MIX`\n" ∧
      (runIn files ["header", "-y", "other.yaml"]).1.status = 1 ∧
      (runIn files ["header", "-y", "other.yaml"]).1.errors
        = (runIn files ["check", "-y", "other.yaml"]).1.errors := by
  obtain ⟨hdevice, hruns⟩ := failures
  have hrefused := fun title => (hdevice Tuner.accepted title).2.1
  have hresult : ∀ title, (Header.generate Tuner.device title).result = .error ⟨"LONG", "MIX"⟩ :=
    fun title => (hrefused title _).2 ⟨_, _, refuses title, rfl⟩
  have hcheck : readArguments ["check", "-y", "tuner.yaml"] = .run (request .check "tuner.yaml") :=
    by decide
  have hheader : readArguments ["header", "-y", "tuner.yaml"]
      = .run (request .header "tuner.yaml") := by decide
  have hcheck' : readArguments ["check", "-y", "other.yaml"] = .run (request .check "other.yaml") :=
    by decide
  have hheader' : readArguments ["header", "-y", "other.yaml"]
      = .run (request .header "other.yaml") := by decide
  obtain ⟨-, hgood⟩ := hruns files hcheck hheader rfl rfl rfl
  obtain ⟨hfailed, -⟩ := hruns files hcheck' hheader' rfl rfl rfl
  obtain ⟨hzero, hnone | ⟨failure, hobstacle, hone, herrors, -⟩⟩ := hgood _ (loaded .check)
  · exact absurd (.refused (refuses _)) (hnone.2 _)
  · obtain ⟨hstatus, -, -, -, hsame, hsameErrors, -⟩ := hfailed _ (unloaded .check)
    refine ⟨hresult _, hzero, hone, herrors.trans ?_, hsame.trans hstatus, hsameErrors⟩
    cases hobstacle with
    | @refused p f refuses =>
      have hnames := (hrefused _ _).2 ⟨p, f, refuses, rfl⟩
      rw [hresult] at hnames
      rw [← Except.error.inj hnames]
      decide +kernel
    | unwritten generate output write => cases output

end RegisterMap.CommandLine
