import RegisterMap.Arithmetic
import RegisterMap.Yaml.Number
import RegisterMap.Yaml.Token

/-!
# Scalar — what the text of a scalar means

A plain scalar without a tag is null, a truth value, an integer, a floating point number or text,
by its spelling. A standard tag asks for one of these, any other style or tag gives text.

## § Spellings

* null: nothing, `~`, `null`, `Null`, `NULL`;
* truth values: `true`, `True`, `TRUE`, `false`, `False`, `FALSE`;
* integers: an optional sign, then `0x`, `0o` or `0b` with digits of that base, or decimal digits;
* floating point: decimal notation, and `.inf`, `-.inf`, `.nan` in three spellings each.

Digits with a leading zero, such as `007`, are text.
-/

namespace RegisterMap.Yaml.Scalar

/-- **Meaning** — what a scalar stands for. -/
inductive Meaning where
  | null
  | bool (b : Bool)
  | integer (n : Int)
  /-- An integer that does not fit 64 bits. -/
  | wide (n : Int)
  | float (x : Decimal.Binary64)
  | text (s : String)
  deriving DecidableEq, Repr

/-! ## § Spellings -/

/-- **isNull** — the spellings of null that are not empty. -/
def isNull (cs : List Char) : Bool :=
  ["null".toList, "Null".toList, "NULL".toList, "~".toList].contains cs

/-- **readBool** — the spellings of the truth values. -/
def readBool (cs : List Char) : Option Bool :=
  if ["true".toList, "True".toList, "TRUE".toList].contains cs then some true
  else if ["false".toList, "False".toList, "FALSE".toList].contains cs then some false
  else none

/-- **dropSign** — the characters after one leading sign. -/
def dropSign : List Char → List Char
  | '+' :: cs => cs
  | '-' :: cs => cs
  | cs => cs

/-- **hasLeadingZero** — two digits or more, the first of them zero. -/
def hasLeadingZero (cs : List Char) : Bool :=
  match dropSign cs with
  | '0' :: d :: ds => (d :: ds).all Char.isDigit
  | _ => false

/-- **startsWithSign** — a sign comes first. -/
def startsWithSign : List Char → Bool
  | c :: _ => c == '+' || c == '-'
  | [] => false

/-- **magnitude** — digits without a sign, in the base that their first two characters name. -/
def magnitude (limit : Nat) (cs : List Char) : Option Nat :=
  let based := fun base rest =>
    if startsWithSign rest then none else Text.readNumeral base limit rest
  match cs with
  | '0' :: 'x' :: rest => based 16 rest
  | '0' :: 'o' :: rest => based 8 rest
  | '0' :: 'b' :: rest => based 2 rest
  | cs => if hasLeadingZero cs then none else based 10 cs

/-- **readUnsigned** — an integer without a minus sign, below the limit. -/
def readUnsigned (limit : Nat) (cs : List Char) : Option Nat := magnitude limit (Text.dropPlus cs)

/-- **readNegative** — an integer with a minus sign, not under `-limit`. -/
def readNegative (limit : Nat) : List Char → Option Int
  | '-' :: cs => (magnitude (limit + 1) cs).map fun n => -(n : Int)
  | _ => none

/-- **readInteger** — an integer, with its size in bits when 64 do not suffice. -/
def readInteger (cs : List Char) : Option Meaning :=
  ((readUnsigned (capacity 64) cs).map fun n => .integer n)
    <|> ((readNegative (capacity 63) cs).map .integer)
    <|> ((readUnsigned (capacity 128) cs).map fun n => .wide n)
    <|> ((readNegative (capacity 127) cs).map .wide)

/-- **readFloat** — a floating point number. -/
def readFloat (cs : List Char) : Option Decimal.Binary64 :=
  let positive := Text.dropPlus cs
  if positive.length < cs.length && startsWithSign positive then none
  else if [".inf".toList, ".Inf".toList, ".INF".toList].contains positive then
    some (.infinite false)
  else if ["-.inf".toList, "-.Inf".toList, "-.INF".toList].contains cs then some (.infinite true)
  else if [".nan".toList, ".NaN".toList, ".NAN".toList].contains cs then some .nan
  else Decimal.Binary64.read positive

/-- **ofPlain** — the meaning of a plain scalar by its spelling. -/
def ofPlain (cs : List Char) : Meaning :=
  if cs.isEmpty || isNull cs then .null
  else
    match readBool cs with
    | some b => .bool b
    | none =>
      match readInteger cs with
      | some m => m
      | none =>
        if hasLeadingZero cs then .text (String.ofList cs)
        else
          match readFloat cs with
          | some x => .float x
          | none => .text (String.ofList cs)

/-! ## § Tags -/

/-- **standard** — a tag of the standard types. -/
def standard (name : String) : Bytes := bytesOf ("tag:yaml.org,2002:".toList ++ name.toList)

/-- **isLocal** — a tag that starts with `!`. -/
def isLocal (tag : Bytes) : Bool := tag.head? == some 0x21

/-- **localName** — the name of a local tag; other tags have none. -/
def localName (tag : Bytes) : Option String :=
  match tag with
  | [] => none
  | b :: rest =>
    if b = 0x21 then String.fromUTF8? ⟨(if rest.isEmpty then tag else rest).toArray⟩ else none

/-- **meaning** — the meaning of a scalar, or `none` when its tag asks for something else than its
text spells. -/
def meaning (tag : Option Bytes) (style : Style) (cs : List Char) : Option Meaning :=
  let text := Meaning.text (String.ofList cs)
  match tag with
  | none => some (if style = .plain then ofPlain cs else text)
  | some tag =>
    if tag = standard "bool" then (readBool cs).map .bool
    else if tag = standard "int" then readInteger cs
    else if tag = standard "float" then (readFloat cs).map .float
    else if tag = standard "null" then (if isNull cs then some .null else none)
    else if isLocal tag && style = .plain then some (ofPlain cs)
    else some text

end RegisterMap.Yaml.Scalar
