import RegisterMap.CommandLine.Arguments
import RegisterMap.Device.Build
import RegisterMap.Files
import RegisterMap.Header

/-!
# Jobs — what a request does with the content of a description

A job ends with a text to print or a file to save, or with a failure. Its log goes to the output in
front of the text, and a failure is reported with its causes.
-/

namespace RegisterMap

/-- **LoadFault** — why a file gives no device. -/
inductive LoadFault where
  | file (fault : FileFault)
  | build (fault : BuildFault)

/-- **message** — the text of a fault. -/
def LoadFault.message : LoadFault → String
  | .file fault => "I/O error: " ++ fault.message
  | .build fault => fault.message

/-- **ofContent** — the device that the content of a file describes. -/
def Device.ofContent (content : Except FileFault ByteArray) : Logged LoadFault Device := do
  let text ← Logged.ofExcept ((content >>= decodeText).mapError .file)
  (Device.ofText text).mapError .build

namespace CommandLine

/-- **Failure** — why a request fails. -/
inductive Failure where
  /-- What failed, and the causes from the outside to the inside. -/
  | report (what : String) (causes : List String)
  /-- A number that does not fit. -/
  | abort (fault : ArithmeticFault)
  deriving DecidableEq, Repr

/-- **Product** — what a job makes. -/
inductive Product where
  | print (text : String)
  | save (path text : String)
  deriving DecidableEq, Repr

namespace Failure

/-- **ofLoad** — the failure to load a file. -/
def ofLoad (path : String) : LoadFault → Failure
  | .file fault =>
    .report ("failed to load " ++ path) [(LoadFault.file fault).message, fault.message]
  | .build (.arithmetic fault) => .abort fault
  | .build fault => .report ("failed to load " ++ path) [fault.message]

/-- **ofHeader** — the failure to generate a header. -/
def ofHeader (path : String) (u : Header.Unsupported) : Failure :=
  .report ("failed to generate header for " ++ path) [u.message]

/-- **ofWrite** — the failure to write a file. -/
def ofWrite (path : String) (fault : FileFault) : Failure :=
  .report ("failed to write " ++ path) [fault.message]

/-- **indented** — a text whose lines after the first start with spaces. -/
def indented (spaces text : String) : String :=
  Text.join ("\n" ++ spaces) ((Text.splitOn '\n' text.toList).map String.ofList)

/-- **numbered** — causes with their numbers. -/
def numbered (i : Nat) : List String → List String
  | [] => []
  | c :: cs =>
    (Text.padLeft ' ' 5 (Text.decimal i) ++ ": " ++ indented "       " c) :: numbered (i + 1) cs

/-- **causeLines** — a single cause, or all causes with numbers. -/
def causeLines : List String → List String
  | [c] => ["    " ++ indented "    " c]
  | cs => numbered 0 cs

/-- **render** — the report of a failure. -/
def render : Failure → String
  | report what causes =>
    "Error: " ++ what ++ "\n\nCaused by:\n" ++ Text.join "\n" (causeLines causes) ++ "\n"
  | abort fault => fault.message ++ "\n"

/-- **status** — the exit status of a failure. -/
def status : Failure → Nat
  | report .. => 1
  | abort _ => 101

end Failure

namespace Request

/-- **titleOf** — the name of the header. -/
def titleOf (r : Request) : HeaderName :=
  match r.title with
  | some name => ⟨name⟩
  | none => HeaderName.ofPath r.yaml

/-- **report** — a device in one line. -/
def report (d : Device) : String :=
  d.name ++ ": " ++ Text.decimal d.pages.length ++ " pages, " ++ Text.decimal d.registerCount
    ++ " registers, " ++ Text.decimal d.flat.length ++ " addressable words\n"

/-- **job** — what a request makes of the content of its description. -/
def job (r : Request) (content : Except FileFault ByteArray) : Logged Failure Product := do
  let device ← (Device.ofContent content).mapError (Failure.ofLoad r.yaml)
  match r.kind with
  | .check => pure (.print (report device))
  | .header =>
    let text ← (Header.generate device r.titleOf).mapError (Failure.ofHeader r.yaml)
    match r.output with
    | some path => pure (.save path text)
    | none => pure (.print text)

end Request

/-! ## § Outcomes -/

/-- **Outcome** — the exit status of the program and what it prints. -/
structure Outcome where
  status : Nat
  output : String
  errors : String
  deriving DecidableEq, Repr

/-- **recordLine** — a record of the log as a line. -/
def recordLine (r : Log.Record) : String :=
  Text.padRight 5 r.level.name ++ " [" ++ r.origin.name ++ "] " ++ r.text ++ "\n"

/-- **logText** — the log of a request. -/
def Request.logText (r : Request) (records : List Log.Record) : String :=
  String.join ((Log.upTo r.verbosity records).map recordLine)

/-- **failed** — the outcome of a failure. -/
def Request.failed (r : Request) (records : List Log.Record) (f : Failure) : Outcome :=
  ⟨f.status, r.logText records, f.render⟩

/-- **printed** — the outcome when a text is printed. -/
def Request.printed (r : Request) (records : List Log.Record) (text : String) : Outcome :=
  ⟨0, r.logText records ++ text, ""⟩

/-- **saved** — the outcome when a file has been written, or could not be. -/
def Request.saved (r : Request) (records : List Log.Record) (path : String)
    (written : Except FileFault Unit) : Outcome :=
  match written with
  | .ok () => ⟨0, r.logText (records ++ [⟨.info, .command, "wrote " ++ path⟩]), ""⟩
  | .error fault => r.failed records (Failure.ofWrite path fault)

/-- **versionText** — the name and the version of the program. -/
def versionText : String := "regmap 0.1.0\n"

/-- **usageText** — how the program is called. -/
def usageText : String :=
  "Usage: regmap [-v]... header --yaml <FILE> [--output <FILE>] [--name <NAME>]\n"
    ++ "       regmap [-v]... check --yaml <FILE>\n"

/-- **answered** — the outcome of arguments that ask for no job. -/
def Reading.answered : Reading → Outcome
  | .version => ⟨0, versionText, ""⟩
  | .help => ⟨0, usageText, ""⟩
  | _ => ⟨2, "", usageText⟩

/-- **runIn** — what the program does in a directory. -/
def runIn (fs : Files) (args : List String) : Outcome × Files :=
  match readArguments args with
  | .run r =>
    let job := r.job (fs.read r.yaml)
    match job.result with
    | .error f => (r.failed job.records f, fs)
    | .ok (.print text) => (r.printed job.records text, fs)
    | .ok (.save path text) =>
      match fs.write path text.toUTF8 with
      | .ok after => (r.saved job.records path (.ok ()), after)
      | .error fault => (r.saved job.records path (.error fault), fs)
  | reading => (reading.answered, fs)

end CommandLine

end RegisterMap
