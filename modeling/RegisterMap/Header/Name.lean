import RegisterMap.Device.Basic

/-!
# Names in a header

Every name of a header starts from the header's own name, the names of registers and fields, and
the parts that the device asks for in front of them.
-/

namespace RegisterMap

/-! ## § The header -/

/-- **HeaderName** — the name of a header, which is part of all its own names. -/
structure HeaderName where
  text : String
  deriving DecidableEq, Repr

namespace HeaderName

/-- **upper** — the name in capitals. -/
def upper (n : HeaderName) : String := Text.upper n.text

/-- **lower** — the name in small letters. -/
def lower (n : HeaderName) : String := Text.lower n.text

/-- **fileName?** — the last part of a path, when it names something: parts are separated by
slashes, and empty parts and single dots at the end do not count. -/
def fileName? (path : List Char) : Option (List Char) :=
  match (Text.splitOn '/' path).reverse.dropWhile fun p => p.isEmpty || p == ['.'] with
  | [] => none
  | last :: _ => if last = ['.', '.'] then none else some last

/-- **stem** — a file name up to its last dot, unless that dot comes first. -/
def stem (name : List Char) : List Char :=
  match (name.reverse.dropWhile (· ≠ '.')).reverse.dropLast with
  | [] => name
  | before => before

/-- **ofPath** — the name of a header by the path of its description. -/
def ofPath (path : String) : HeaderName :=
  ⟨match fileName? path.toList with
    | some name => String.ofList (stem name)
    | none => ""⟩

end HeaderName

/-! ## § Registers and fields -/

namespace Device

/-- **identPrefix** — what stands before the identifiers of all registers. -/
def identPrefix (d : Device) : String :=
  if d.regPrefix = "" then "" else Text.upper d.regPrefix ++ "_"

/-- **registerIdent** — the identifier of an entry of the flat table. -/
def registerIdent (d : Device) (name : String) : String := d.identPrefix ++ name

/-- **partText** — one part in front of the name of a field. -/
def partText (page : Page) (reg : Register) : NamePart → String
  | .page => Text.upper page.name
  | .register => Text.upper reg.name
  | .address => Text.padLeft '0' 2 (Text.hex reg.addrLo)

/-- **fieldName** — the name of a field with all parts in front of it. -/
def fieldName (d : Device) (page : Page) (reg : Register) (field : Field) : String :=
  Text.join "_" (d.fieldPrefix.map (partText page reg) ++ [field.name])

end Device

end RegisterMap
