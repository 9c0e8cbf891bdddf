import RegisterMap.Bits.Spec
import RegisterMap.Yaml.Reader

/-!
# Faults of a description

Why no device can be built of a description: the document has not the data that is asked for, a
field exceeds its register, settings exclude each other, or a register is too long.
-/

namespace RegisterMap

/-- **SchemaFault** — data that is missing or malformed. `what` names the place. -/
inductive SchemaFault where
  | document (fault : Yaml.ReadFault)
  | notInteger (what text : String)
  | notNatural (what : String) (number : Yaml.Number)
  | expectedInteger (what : String) (found : Yaml.Value)
  | expectedLabel (what : String) (found : Yaml.Value)
  | badIdentifier (what name : String)
  | badWidth (what : String) (width : Nat)
  | unknownPart (text : String)
  | badAddress (register text : String)
  | badBits (register field : String) (fault : BitSpec.Fault)
  | optionTooLarge (what : String) (value width : Nat)
  | tableNotMapping (name : String)
  deriving Repr

/-- **message** — the text of a fault. -/
def SchemaFault.message : SchemaFault → String
  | .document fault => fault.message
  | .notInteger what text => what ++ ": `" ++ text ++ "` is not an integer"
  | .notNatural what n => what ++ ": `" ++ n.render ++ "` is not a non-negative integer"
  | .expectedInteger what v => what ++ ": expected an integer, got " ++ v.describe
  | .expectedLabel what v => what ++ ": expected a label, got " ++ v.describe
  | .badIdentifier what name => what ++ " name `" ++ name ++ "` is not a valid identifier"
  | .badWidth what width => what ++ " must be between 1 and 64, got " ++ Text.decimal width
  | .unknownPart text => "unknown prefix type `" ++ text ++ "`"
  | .badAddress register text => "register `" ++ register ++ "`: bad address `" ++ text ++ "`"
  | .badBits register field fault => register ++ "::" ++ field ++ ": " ++ fault.message
  | .optionTooLarge what value width =>
    what ++ ": value " ++ Text.decimal value ++ " does not fit in " ++ Text.decimal width ++ " bits"
  | .tableNotMapping name => "enum `" ++ name ++ "` must map values to labels"

/-- **Conflict** — settings that exclude each other. -/
inductive Conflict where
  /-- Both directions of the bus have a mask. -/
  | bothMasks
  /-- Two words have one name. -/
  | repeatedEntry (name : String)
  deriving DecidableEq, Repr

/-- **message** — the text of a conflict. -/
def Conflict.message : Conflict → String
  | .bothMasks => "specify rd_mask or wr_mask, but not both"
  | .repeatedEntry name => "register `" ++ name ++ "` is already in the flat map, rename it"

/-- **BuildFault** — why no device can be built. -/
inductive BuildFault where
  | schema (fault : SchemaFault)
  /-- A field reaches beyond the last bit of its register. -/
  | beyondRegister (register field : String) (bit last : Nat)
  | conflict (conflict : Conflict)
  /-- A register of too many words. -/
  | tooWide (register : String) (words most : Nat)
  | arithmetic (fault : ArithmeticFault)
  deriving Repr

/-- **message** — the text of a fault. -/
def BuildFault.message : BuildFault → String
  | .schema fault => "schema error: " ++ fault.message
  | .beyondRegister register field bit last =>
    "maximum bit " ++ Text.decimal bit ++ " in description is more than " ++ Text.decimal last
      ++ " bit in \"" ++ register ++ "::" ++ field ++ "\" register"
  | .conflict c => "conflict: " ++ c.message
  | .tooWide register words most =>
    "combined register `" ++ register ++ "` is " ++ Text.decimal words
      ++ " words wide, at most " ++ Text.decimal most ++ " are supported"
  | .arithmetic fault => fault.message

end RegisterMap
