import RegisterMap.Header.Field
import RegisterMap.Header.Label
import RegisterMap.Header.Name

/-!
# Declarations of a register

After a remark with its address, a register has enumerations of the labels of its fields, the lowest
bits and masks of its fields, and macros: getters and setters if the device asks for them, and those
that construct the frames which write the register.

A lone field called `VALUE` gets no declarations of its own, and a single word of that kind no macro
either.
-/

namespace RegisterMap.Header

/-- **Unsupported** — a register of several words with a field of listed bits. -/
structure Unsupported where
  register : String
  field : String
  deriving DecidableEq, Repr

/-- **message** — the text of what is not supported. -/
def Unsupported.message (u : Unsupported) : String :=
  "unsupported: bulk register operations on `" ++ u.register
    ++ "` are not supported for the bit-list field `" ++ u.field ++ "`"

/-- **Scope** — a device and the name of its header. -/
structure Scope where
  device : Device
  title : HeaderName

/-- **Place** — a register where it stands: on a page of a device with a header. -/
structure Place extends Scope where
  page : Page
  reg : Register

namespace Scope

/-- **writeName** — the name of the macro for frames that write. -/
def writeName (s : Scope) : String := "MAKE_" ++ s.title.upper ++ "_REG_WR"

/-- **readName** — the name of the macro for frames that read. -/
def readName (s : Scope) : String := "MAKE_" ++ s.title.upper ++ "_REG_RD"

end Scope

namespace Place

/-- **name** — the canonical name of the register. -/
def name (p : Place) : String := p.device.registerName p.page p.reg

/-- **fieldName** — the name of a field in the header. -/
def fieldName (p : Place) (f : Field) : String := p.device.fieldName p.page p.reg f

/-- **makeName** — the name of the macro that constructs the register. -/
def makeName (p : Place) : String := "MAKE_" ++ p.title.upper ++ "_" ++ p.name

/-- **address** — the identifier of the address of the register. -/
def address (p : Place) : String := p.device.registerIdent p.name

/-! ## § Enumerations -/

/-- **remark** — the line that introduces the register. -/
def remark (p : Place) : Declaration :=
  .remark ("Register R" ++ Text.decimal p.reg.addrLo ++ " [0x" ++ Text.hex p.reg.addrLo ++ "] -- "
    ++ p.name)

/-- **optionEnum** — the labels of a field. -/
def optionEnum (p : Place) (f : Field) : Declaration :=
  let name := p.fieldName f
  .enumeration (Text.lower name ++ "_options")
    (f.options.entries.map fun e =>
      (name ++ "_" ++ Label.normalize (Text.upper e.2), .decimal e.1))

/-- **optionEnums** — the labels of all fields that have some. -/
def optionEnums (p : Place) : List Declaration :=
  (p.reg.fields.filter fun f => !f.options.entries.isEmpty).map p.optionEnum

/-- **fieldEntries** — the lowest bit and the mask of a field. -/
def fieldEntries (p : Place) (f : Field) : List (String × Literal) :=
  let name := p.fieldName f
  [(offsetName name, .hex f.lo), (maskName name, .hex f.mask.toNat)]

/-- **fieldEnum** — the lowest bits and masks of all fields. -/
def fieldEnum (p : Place) : Declaration :=
  .enumeration (Text.lower p.name ++ "_fields_t") (p.reg.fields.flatMap p.fieldEntries)

/-! ## § Macros of fields -/

/-- **getter** — the macro that reads a field. -/
def getter (p : Place) (f : Field) : Declaration :=
  let name := p.fieldName f
  .define ("GET_" ++ p.title.upper ++ "_" ++ name) ["x"] (Getter.expr f.bits name (.name "x"))

/-- **setter** — the macro that changes a field. -/
def setter (p : Place) (f : Field) : Declaration :=
  let name := p.fieldName f
  let others := Expr.paren (.and (.paren (.name "p")) (.complement (.name (maskName name))))
  .define ("SET_" ++ p.title.upper ++ "_" ++ name) ["p", "f"]
    (.assign (.paren (.name "p")) (.or [others, Setter.expr f.bits name (.name "f")]))

/-- **fieldMacros** — all getters, then all setters. -/
def fieldMacros (p : Place) : List Declaration :=
  p.reg.fields.map p.getter ++ p.reg.fields.map p.setter ++ [.blank]

/-! ## § Macros of the register -/

/-- **param** — the parameter for a field. -/
def param (f : Field) : String := Text.lower f.name

/-- **params** — the parameters for all fields. -/
def params (p : Place) : List String := p.reg.fields.map param

/-- **combined** — all fields put together, each on its own line. -/
def combined (p : Place) : Expr :=
  .or (p.reg.fields.map fun f =>
    .ownLine (Setter.expr f.bits (p.fieldName f) (.name (param f))))

/-- **singleMacro** — the frame that writes a register of one word. -/
def singleMacro (p : Place) : Declaration :=
  .define p.makeName p.params (.call p.writeName (.name p.address) p.combined)

/-- **longMacro** — the value of a register of several words. -/
def longMacro (p : Place) : Declaration :=
  .define (p.makeName ++ "_LONG") p.params (.paren p.combined)

/-- **sliceAt** — the bits of the word that is `shift` bits up, in a value that starts at the lowest
bit of all fields. -/
def sliceAt (p : Place) (shift : Nat) : Expr :=
  let offset := p.reg.valueOffset
  let value := Expr.paren (.name "value")
  let moved :=
    if offset < shift then Expr.shiftRight value (.decimal (shift - offset))
    else Expr.shiftLeft value (.decimal (offset - shift))
  .paren (.and (.paren moved) (.hex (p.reg.valueMask.window shift p.device.dataWidth)))

/-- **slice** — the bits of word `u` in such a value. -/
def slice (p : Place) (u : Nat) : Expr :=
  p.sliceAt (p.device.dataWidth * (p.reg.wordCount - 1 - u))

/-- **wordMacro** — the frame that writes word `u` of a register of several words. -/
def wordMacro (p : Place) (u : Nat) : Declaration :=
  let suffix := "_BY" ++ Text.decimal u
  .define (p.makeName ++ suffix) ["value"]
    (.call p.writeName (.name (p.address ++ suffix)) (.spaced (p.slice u)))

/-- **wordMacros** — the macros of a register of several words. -/
def wordMacros (p : Place) : List Declaration :=
  (if 1 < p.reg.fields.length then [p.longMacro] else [])
    ++ (List.range p.reg.wordCount).map p.wordMacro

/-- **makeMacros** — the macros that construct the register. -/
def makeMacros (p : Place) : Except Unsupported (List Declaration) :=
  if p.reg.wordCount = 1 then .ok [p.singleMacro]
  else
    match p.reg.fields.find? fun f => f.bits.isScattered with
    | some f => .error ⟨p.name, f.name⟩
    | none => .ok p.wordMacros

/-! ## § All declarations -/

/-- **declarations** — everything that a header says about the register. -/
def declarations (p : Place) : Except Unsupported (List Declaration) :=
  if p.reg.isSingleValue then .ok [p.remark, .blank]
  else do
    let make ← p.makeMacros
    if p.reg.isValueOnly then .ok ([p.remark, .blank] ++ make)
    else
      .ok ([p.remark] ++ p.optionEnums ++ [.blank] ++ [p.fieldEnum]
        ++ (if p.device.fieldMacros then p.fieldMacros else []) ++ make)

end Place

end RegisterMap.Header
