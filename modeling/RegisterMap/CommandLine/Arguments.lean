/-!
# Arguments of the command line

First options for the whole program, then a command with its own options. An option has a long name
or a letter; letters may share one hyphen, and a value stands behind its option with or without an
equals sign, or is the next argument. A value of its own does not start with a hyphen, unless it is
nothing else.
-/

namespace RegisterMap.CommandLine

/-- **Kind** — what the program can do. -/
inductive Kind where
  | header
  | check
  deriving DecidableEq, Repr

/-- **Opt** — an option with a value. -/
inductive Opt where
  | yaml
  | output
  | title
  deriving DecidableEq, Repr

/-- **Values** — what the arguments of a command say. -/
structure Values where
  yaml : Option String := none
  output : Option String := none
  title : Option String := none
  /-- How many times more of the log is asked for. -/
  verbosity : Nat := 0
  deriving DecidableEq, Repr

/-- **Request** — what the program is asked to do. -/
structure Request where
  kind : Kind
  /-- The path of the description. -/
  yaml : String
  /-- The path of the header; without one it is printed. -/
  output : Option String
  /-- The name of the header; without one the path of the description gives it. -/
  title : Option String
  verbosity : Nat
  deriving DecidableEq, Repr

/-- **Reading** — what the arguments ask for. -/
inductive Reading where
  | run (r : Request)
  | version
  | help
  /-- The arguments cannot be understood. -/
  | misuse
  deriving DecidableEq, Repr

/-- **Argument** — the forms of an argument. -/
inductive Argument where
  /-- Two hyphens alone: no options follow. -/
  | endOfOptions
  | long (name : List Char) (value : Option (List Char))
  | letters (letters : List Char)
  | plain (text : List Char)
  deriving DecidableEq, Repr

/-- **splitValue** — a long option at its first equals sign. -/
def splitValue (cs : List Char) : List Char × Option (List Char) :=
  match cs.dropWhile (· ≠ '=') with
  | [] => (cs, none)
  | _ :: value => (cs.takeWhile (· ≠ '='), some value)

/-- **ofChars** — the form of an argument. -/
def Argument.ofChars : List Char → Argument
  | ['-', '-'] => .endOfOptions
  | '-' :: '-' :: cs => .long (splitValue cs).1 (splitValue cs).2
  | '-' :: c :: cs => .letters (c :: cs)
  | cs => .plain cs

/-! ## § Options of a command -/

namespace Kind

/-- **longOption** — the option with a long name. -/
def longOption (k : Kind) (name : String) : Option Opt :=
  match k, name with
  | _, "yaml" => some .yaml
  | .header, "output" => some .output
  | .header, "name" => some .title
  | _, _ => none

/-- **letterOption** — the option with a letter. -/
def letterOption (k : Kind) (letter : Char) : Option Opt :=
  match k, letter with
  | _, 'y' => some .yaml
  | .header, 'o' => some .output
  | .header, 'n' => some .title
  | _, _ => none

/-- **ofName** — the command with a name. -/
def ofName : List Char → Option Kind
  | cs =>
    if cs = "header".toList then some .header
    else if cs = "check".toList then some .check
    else none

end Kind

/-- **assign** — an option gets its value, once. A path is not empty. -/
def Values.assign (v : Values) (o : Opt) (value : List Char) : Option Values :=
  match o with
  | .yaml =>
    if v.yaml.isSome || value.isEmpty then none
    else some { v with yaml := some (String.ofList value) }
  | .output =>
    if v.output.isSome || value.isEmpty then none
    else some { v with output := some (String.ofList value) }
  | .title =>
    if v.title.isSome then none else some { v with title := some (String.ofList value) }

/-- **louder** — one more time more of the log. -/
def Values.louder (v : Values) : Values := { v with verbosity := v.verbosity + 1 }

/-- **Progress** — how far the arguments have been read: an option may wait for its value. -/
inductive Progress where
  | ready (v : Values)
  | waiting (v : Values) (o : Opt)
  | help
  | misuse
  deriving DecidableEq, Repr

/-- **given** — the progress after an option and its value. -/
def Progress.given (v : Values) (o : Opt) (value : List Char) : Progress :=
  match v.assign o value with
  | some v => .ready v
  | none => .misuse

/-- **dropEquals** — a value without the equals sign in front. -/
def dropEquals : List Char → List Char
  | '=' :: cs => cs
  | cs => cs

/-- **readLetters** — letters behind one hyphen. -/
def readLetters (k : Kind) (v : Values) : List Char → Progress
  | [] => .ready v
  | c :: cs =>
    if c = 'v' then readLetters k v.louder cs
    else if c = 'h' then .help
    else
      match k.letterOption c with
      | none => .misuse
      | some o => if cs.isEmpty then .waiting v o else .given v o (dropEquals cs)

/-- **readLong** — an option with a long name. -/
def readLong (k : Kind) (v : Values) (name : List Char) (value : Option (List Char)) : Progress :=
  match k.longOption (String.ofList name), value with
  | some o, some value => .given v o value
  | some o, none => .waiting v o
  | none, some _ => .misuse
  | none, none =>
    if name = "verbose".toList then .ready v.louder
    else if name = "help".toList then .help
    else .misuse

/-- **finish** — the request when all arguments have been read; `before` counts the wishes for more
of the log in front of the command, which those behind it replace. -/
def finish (k : Kind) (before : Nat) (v : Values) : Reading :=
  match v.yaml with
  | some yaml =>
    .run ⟨k, yaml, v.output, v.title, if v.verbosity = 0 then before else v.verbosity⟩
  | none => .misuse

/-- **readCommand** — the arguments behind a command. -/
def readCommand (k : Kind) (before : Nat) : Progress → List (List Char) → Reading
  | .help, _ => .help
  | .misuse, _ => .misuse
  | .ready v, [] => finish k before v
  | .waiting .., [] => .misuse
  | .waiting v o, arg :: rest =>
    match Argument.ofChars arg with
    | .plain value => readCommand k before (.given v o value) rest
    | _ => .misuse
  | .ready v, arg :: rest =>
    match Argument.ofChars arg with
    | .endOfOptions => if rest.isEmpty then finish k before v else .misuse
    | .long name value => readCommand k before (readLong k v name value) rest
    | .letters letters => readCommand k before (readLetters k v letters) rest
    | .plain _ => .misuse

/-! ## § Options of the program -/

/-- **readHelp** — what help is asked for: for the program, or for one of its commands. -/
def readHelp : List (List Char) → Reading
  | [] => .help
  | [name] => if (Kind.ofName name).isSome || name = "help".toList then .help else .misuse
  | _ => .misuse

/-- **readFront** — letters in front of a command: how many ask for more of the log, or what they
ask for instead. -/
def readFront (verbosity : Nat) : List Char → Except Reading Nat
  | [] => .ok verbosity
  | 'v' :: cs => readFront (verbosity + 1) cs
  | 'h' :: _ => .error .help
  | 'V' :: _ => .error .version
  | _ => .error .misuse

/-- **readProgram** — all arguments, `verbosity` times more of the log being asked for already. -/
def readProgram (verbosity : Nat) : List (List Char) → Reading
  | [] => .misuse
  | arg :: rest =>
    match Argument.ofChars arg with
    | .endOfOptions => .misuse
    | .long name none =>
      if name = "verbose".toList then readProgram (verbosity + 1) rest
      else if name = "version".toList then .version
      else if name = "help".toList then .help
      else .misuse
    | .long _ (some _) => .misuse
    | .letters letters =>
      match readFront verbosity letters with
      | .ok verbosity => readProgram verbosity rest
      | .error reading => reading
    | .plain name =>
      match Kind.ofName name with
      | some k => readCommand k verbosity (.ready {}) rest
      | none => if name = "help".toList then readHelp rest else .misuse

/-- **readArguments** — what the arguments ask for. -/
def readArguments (args : List String) : Reading := readProgram 0 (args.map String.toList)

end RegisterMap.CommandLine
