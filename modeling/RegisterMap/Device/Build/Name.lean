import RegisterMap.Device.Basic
import RegisterMap.Device.Fault

/-!
# Names of a description

Pages, registers and fields have identifiers as names: letters, digits and underscores, no digit
first. The parts that may stand before the name of a field are named in any case of letters.
-/

namespace RegisterMap

namespace Identifier

/-- **isStart** — a character that an identifier may start with. -/
def isStart (c : Char) : Bool := c.isAlpha || c == '_'

/-- **isPart** — a character of an identifier. -/
def isPart (c : Char) : Bool := c.isAlphanum || c == '_'

end Identifier

/-- **isIdentifier** — a text that can stand as a name in a header. -/
def isIdentifier (s : String) : Bool :=
  match s.toList with
  | [] => false
  | c :: cs => Identifier.isStart c && cs.all Identifier.isPart

/-- **checkIdentifier** — a name that has to be an identifier; `what` says whose it is. -/
def checkIdentifier (what name : String) : Except SchemaFault Unit :=
  if isIdentifier name then .ok () else .error (.badIdentifier what name)

/-- **ofText** — the part that a text names. -/
def NamePart.ofText (s : String) : Except SchemaFault NamePart :=
  match Text.lower s with
  | "page" => .ok .page
  | "regname" => .ok .register
  | "regaddr" => .ok .address
  | _ => .error (.unknownPart s)

end RegisterMap
