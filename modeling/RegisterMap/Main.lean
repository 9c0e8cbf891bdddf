import RegisterMap.CommandLine.Job

/-!
# The program

Reads the description, does the job, and writes what it makes.
-/

namespace RegisterMap.CommandLine

/-- **faultNumber** — the number of a fault of the system; some calls report it negated. -/
def faultNumber (code : UInt32) : Nat := min code.toNat (0 - code).toNat

/-- **faultOf** — a fault of the system. -/
def faultOf (e : IO.Error) : FileFault :=
  match e with
  | .noFileOrDirectory .. => .notFound
  | .inappropriateType _ code _ =>
    if faultNumber code = 20 then .notDirectory else .isDirectory
  | .invalidArgument _ code _ =>
    if faultNumber code = 36 then .nameTooLong else .other e.toString
  | _ => .other e.toString

/-- **attempt** — an action with its fault, if it has one. -/
def attempt {α : Type} (action : IO α) : IO (Except FileFault α) := do
  match ← action.toBaseIO with
  | .ok a => pure (.ok a)
  | .error e => pure (.error (faultOf e))

/-- **perform** — does what a request asks for. -/
def perform (r : Request) : IO Outcome := do
  let job := r.job (← attempt (IO.FS.readBinFile r.yaml))
  match job.result with
  | .error f => pure (r.failed job.records f)
  | .ok (.print text) => pure (r.printed job.records text)
  | .ok (.save path text) =>
    pure (r.saved job.records path (← attempt (IO.FS.writeFile path text)))

end RegisterMap.CommandLine

/-- **main** — the program. -/
def main (args : List String) : IO UInt32 := do
  let outcome ←
    match RegisterMap.CommandLine.readArguments args with
    | .run r => RegisterMap.CommandLine.perform r
    | reading => pure reading.answered
  IO.print outcome.output
  IO.eprint outcome.errors
  pure (UInt32.ofNat outcome.status)
