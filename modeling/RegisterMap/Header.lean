import RegisterMap.Header.Register
import RegisterMap.Log

/-!
# Headers — C declarations for a device

A header declares the addresses of all words, the macros for frames, the value tables of the device,
and then each register in the order of the description.
-/

namespace RegisterMap.Header

namespace Scope

/-- **addressEnum** — the addresses of all words. -/
def addressEnum (s : Scope) : Declaration :=
  .enumeration (s.title.lower ++ "_regs_t")
    (s.device.flat.map fun e => (s.device.registerIdent e.name, .hex e.addr))

/-- **maskTerms** — the bits that are set in all frames. -/
def maskTerms (mask : Option Nat) : List Expr := mask.toList.map .hex

/-- **addressTerm** — the address where it stands in a frame. -/
def addressTerm (s : Scope) : Expr :=
  .paren (.shiftLeft (.paren (.name "a")) (.decimal s.device.dataWidth))

/-- **writeMacro** — the macro for frames that write. -/
def writeMacro (s : Scope) : Declaration :=
  let word := Expr.paren (.and (.paren (.name "v")) (.hex s.device.dataMask))
  .define s.writeName ["a", "v"]
    (.paren (.or (maskTerms s.device.writeMask? ++ [s.addressTerm, word])))

/-- **readMacro** — the macro for frames that read. -/
def readMacro (s : Scope) : Declaration :=
  .define s.readName ["a"] (.paren (.or (maskTerms s.device.readMask? ++ [s.addressTerm])))

/-- **tableName** — the name of a value table in a header. -/
def tableName (t : ValueTable) : String :=
  String.ofList (t.name.toList.map fun c => if c = '-' then '_' else c)

/-- **tableEnum** — the labels of a value table. -/
def tableEnum (s : Scope) (t : ValueTable) : Declaration :=
  let name := tableName t
  .enumeration (s.title.lower ++ "_" ++ name ++ "_t")
    (t.entries.map fun e => (Text.upper name ++ "_" ++ Label.normalize e.1, .hex e.2))

/-- **registerDeclarations** — the declarations of all registers. -/
def registerDeclarations (s : Scope) : Except Unsupported (List Declaration) := do
  let registers ← s.device.pages.mapM fun page =>
    page.regs.mapM fun reg => Place.declarations ⟨s, page, reg⟩
  .ok registers.flatten.flatten

/-- **declarations** — all declarations of the header. -/
def declarations (s : Scope) : Except Unsupported (List Declaration) := do
  let registers ← s.registerDeclarations
  .ok ([s.addressEnum, s.writeMacro, s.readMacro] ++ s.device.tables.map s.tableEnum ++ registers)

/-- **summary** — a finished header in one line of the log. -/
def summary (s : Scope) : String :=
  s.title.lower ++ ": emitted " ++ Text.decimal s.device.registerCount ++ " registers ("
    ++ Text.decimal s.device.flat.length ++ " addressable words)"

end Scope

/-- **generate** — the text of the header of a device. -/
def generate (device : Device) (title : HeaderName) : Logged Unsupported String := do
  let s : Scope := ⟨device, title⟩
  let declarations ← Logged.ofExcept s.declarations
  Logged.write .info .header s.summary
  pure (Declaration.renderAll declarations)

end RegisterMap.Header
