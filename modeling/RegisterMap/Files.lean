import RegisterMap.Text.Split

/-!
# Files — directories with what is in them

Files and directories are known by the names on the way to them from the root of all directories.
Some directories are listed; besides them, there are all those on the way to a listed one, to a
file, and to the directory that the program starts in. A path with a slash in front starts at the
root, any other path where the program does.

## § Limits

A name has at most 255 bytes and a path at most 4095. The length of a path is looked at before
anything else, that of a name when the name is looked up. There are no links: different names lead
to different files.
-/

namespace RegisterMap

/-- **FileFault** — why a file cannot be read or written. -/
inductive FileFault where
  | notFound
  | notDirectory
  | isDirectory
  | nameTooLong
  /-- The content is no text. -/
  | notText
  /-- What the system says. -/
  | other (text : String)
  deriving DecidableEq, Repr

/-- **message** — the text of a fault. -/
def FileFault.message : FileFault → String
  | .notFound => "No such file or directory (os error 2)"
  | .notDirectory => "Not a directory (os error 20)"
  | .isDirectory => "Is a directory (os error 21)"
  | .nameTooLong => "File name too long (os error 36)"
  | .notText => "stream did not contain valid UTF-8"
  | .other text => text

/-- **decodeText** — the content of a file as a text. -/
def decodeText (content : ByteArray) : Except FileFault String :=
  match String.fromUTF8? content with
  | some s => .ok s
  | none => .error .notText

/-- **Files** — directories, and files with their contents. -/
structure Files where
  /-- The names on the way to the directory that paths start in. -/
  start : List String := ["work"]
  directories : List (List String) := []
  entries : List (List String × ByteArray) := []

namespace Files

/-- **content?** — the content of a file by the names on the way to it. -/
def content? (fs : Files) (names : List String) : Option ByteArray := fs.entries.lookup names

/-- **hasDirectory** — the names lead to a directory. -/
def hasDirectory (fs : Files) (names : List String) : Bool :=
  (fs.start :: fs.directories).any (names.isPrefixOf ·)
    || fs.entries.any fun e => names.isPrefixOf e.1 && names.length < e.1.length

/-- **insert** — a file with its content, new or replaced. -/
def insert (fs : Files) (names : List String) (content : ByteArray) : Files :=
  { fs with entries := (fs.entries.filter fun e => e.1 ≠ names) ++ [(names, content)] }

/-- **put** — a file below the directory that paths start in. -/
def put (fs : Files) (names : List String) (content : ByteArray) : Files :=
  fs.insert (fs.start ++ names) content

/-- **changed** — the files below that directory that are not as they were before. -/
def changed (before after : Files) : List (List String × ByteArray) :=
  (after.entries.filter fun e =>
    before.start.isPrefixOf e.1 && before.content? e.1 != some e.2).map fun e =>
      (e.1.drop before.start.length, e.2)

/-! ## § Paths -/

/-- **maxNameBytes** — the length of the longest name. -/
def maxNameBytes : Nat := 255

/-- **maxPathBytes** — the length of the longest path. -/
def maxPathBytes : Nat := 4095

/-- **Location** — where a path leads. -/
inductive Location where
  | file (names : List String)
  | directory
  /-- The file is not there, but its directory is. -/
  | free (names : List String)
  | nowhere
  /-- A file on the way stands for a directory. -/
  | blocked
  /-- The path, or a name on the way, is too long. -/
  | tooLong
  deriving DecidableEq, Repr

/-- **walk** — where the parts of a path lead from a directory. The root is above itself. -/
def walk (fs : Files) (here : List String) : List String → Location
  | [] => .directory
  | "" :: rest => walk fs here rest
  | "." :: rest => walk fs here rest
  | ".." :: rest => walk fs here.dropLast rest
  | name :: rest =>
    let names := here ++ [name]
    if maxNameBytes < name.utf8ByteSize then .tooLong
    else if (fs.content? names).isSome then
      if rest.isEmpty then .file names else .blocked
    else if fs.hasDirectory names then walk fs names rest
    else if rest.isEmpty then .free names
    else .nowhere

/-- **locate** — where a path leads. -/
def locate (fs : Files) (path : String) : Location :=
  if maxPathBytes < path.utf8ByteSize then .tooLong
  else
    match (Text.splitOn '/' path.toList).map String.ofList with
    | [""] => .nowhere
    | "" :: rest => walk fs [] rest
    | parts => walk fs fs.start parts

/-- **names** — the names on the way to a file below the directory that its path starts in. -/
def names (path : String) : List String :=
  ((Text.splitOn '/' path.toList).map String.ofList).filter fun p => p ≠ "" ∧ p ≠ "."

/-! ## § Access -/

/-- **read** — the content of the file at a path. -/
def read (fs : Files) (path : String) : Except FileFault ByteArray :=
  match fs.locate path with
  | .file names =>
    match fs.content? names with
    | some content => .ok content
    | none => .error .notFound
  | .directory => .error .isDirectory
  | .blocked => .error .notDirectory
  | .tooLong => .error .nameTooLong
  | .free _ => .error .notFound
  | .nowhere => .error .notFound

/-- **endsInSlash** — the path asks for a directory. -/
def endsInSlash (path : String) : Bool := path.toList.getLast? == some '/'

/-- **beforeLastName** — the directory in front of the last name of a path. -/
def beforeLastName (path : String) : String :=
  let start := (path.toList.reverse.dropWhile (· == '/')).dropWhile (· ≠ '/')
  String.ofList (start.reverse ++ ['.'])

/-- **locateToWrite** — where a path leads that a file is written to. A slash at its end asks for a
directory, whether its last name is one or not. -/
def locateToWrite (fs : Files) (path : String) : Location :=
  if endsInSlash path && path.utf8ByteSize ≤ maxPathBytes then fs.locate (beforeLastName path)
  else fs.locate path

/-- **write** — the files after a file is written to a path. -/
def write (fs : Files) (path : String) (content : ByteArray) : Except FileFault Files :=
  match fs.locateToWrite path with
  | .file names => .ok (fs.insert names content)
  | .free names => .ok (fs.insert names content)
  | .directory => .error .isDirectory
  | .blocked => .error .notDirectory
  | .tooLong => .error .nameTooLong
  | .nowhere => .error .notFound

end Files

end RegisterMap
