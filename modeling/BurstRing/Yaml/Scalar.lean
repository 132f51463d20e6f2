import BurstRing.Decimal.Binary64
import BurstRing.Text.Numeral
import BurstRing.Yaml.Token

/-!
# What scalars stand for

A plain scalar may stand for nothing, a truth value, an integer or a floating-point number, and is
a text otherwise.  Integers may be hexadecimal, octal or binary; a leading zero makes a run of
digits a text.  Integers are those of 128 bits, and what is larger is a floating-point number.
-/

namespace BurstRing.Yaml

/-- A value that a scalar stands for. -/
inductive ScalarValue where
  | unit
  | bool (b : Bool)
  | integer (n : Int)
  | float (x : Decimal.Floating)
  | text (s : String)
  deriving DecidableEq, Repr

/-! ### Tags -/

def boolTag : Tag := .ofText "tag:yaml.org,2002:bool"
def intTag : Tag := .ofText "tag:yaml.org,2002:int"
def floatTag : Tag := .ofText "tag:yaml.org,2002:float"
def nullTag : Tag := .ofText "tag:yaml.org,2002:null"

/-! ### Words -/

def isNull (s : String) : Bool := s == "null" || s == "Null" || s == "NULL" || s == "~"

def readBool? (s : String) : Option Bool :=
  if s == "true" || s == "True" || s == "TRUE" then some true
  else if s == "false" || s == "False" || s == "FALSE" then some false
  else none

/-! ### Integers -/

/-- Digits that start with a zero and go on, which are no number. -/
def isZeroPadded (cs : List Char) : Bool :=
  let cs := match cs with
    | '+' :: cs | '-' :: cs => cs
    | cs => cs
  match cs with
  | '0' :: d :: ds => (d :: ds).all Char.isDigit
  | _ => false

/-- Digits of `radix` and nothing else. -/
def readPlainDigits? (radix bound : Nat) (cs : List Char) : Option Nat :=
  match cs with
  | [] => none
  | cs => (Text.readDigits radix bound 0 cs).toOption

/-- A number in the radix that its first two characters name. -/
def readRadix? (bound : Nat) : List Char → Option Nat
  | '0' :: 'x' :: cs => readPlainDigits? 16 bound cs
  | '0' :: 'o' :: cs => readPlainDigits? 8 bound cs
  | '0' :: 'b' :: cs => readPlainDigits? 2 bound cs
  | _ => none

/-- A natural number below `bound`, with an optional plus sign. -/
def readNat? (bound : Nat) (cs : List Char) : Option Nat :=
  let digits := match cs with
    | '+' :: rest => rest
    | cs => cs
  match readRadix? bound digits with
  | some n => some n
  | none => if isZeroPadded cs then none else readPlainDigits? 10 bound digits

/-- The size of a number with a minus sign, below or at `bound`. -/
def readNegative? (bound : Nat) (cs : List Char) : Option Nat :=
  match cs with
  | '-' :: digits =>
    match readRadix? (bound + 1) digits with
    | some n => some n
    | none => if isZeroPadded cs then none else readPlainDigits? 10 (bound + 1) digits
  | _ => none

/-- An integer of 128 bits, without sign or with one. -/
def readInt? (cs : List Char) : Option Int :=
  match readNat? (Nat.pow 2 128) cs with
  | some n => some n
  | none => (readNegative? (Nat.pow 2 127) cs).map fun n => -(n : Int)

/-! ### Floating-point numbers -/

/-- A floating-point number; infinities and the value that is no number have words of their
own. -/
def readFloat? (s : String) : Option Decimal.Floating :=
  if s == ".inf" || s == ".Inf" || s == ".INF" || s == "+.inf" || s == "+.Inf" || s == "+.INF" then
    some (.infinity false)
  else if s == "-.inf" || s == "-.Inf" || s == "-.INF" then some (.infinity true)
  else if s == ".nan" || s == ".NaN" || s == ".NAN" then some .notANumber
  else
    match s.toList with
    | '+' :: '+' :: _ | '+' :: '-' :: _ => none
    | cs => Decimal.readFinite? cs

/-! ### Scalars -/

/-- The value of a plain scalar without a tag. -/
def readUntagged (s : String) : ScalarValue :=
  if s == "" || isNull s then .unit
  else
    match readBool? s, readInt? s.toList with
    | some b, _ => .bool b
    | none, some n => .integer n
    | none, none =>
      match if isZeroPadded s.toList then none else readFloat? s with
      | some x => .float x
      | none => .text s

/-- The value of a scalar; a tag may ask for a kind of value that the text is none of, which is
the error. -/
def readScalar (tag : Option Tag) (s : String) (style : ScalarStyle) :
    Except String ScalarValue :=
  match tag with
  | none => .ok (if style = .plain then readUntagged s else .text s)
  | some tag =>
    if tag = boolTag then
      match readBool? s with
      | some b => .ok (.bool b)
      | none => .error "a boolean"
    else if tag = intTag then
      match readInt? s.toList with
      | some n => .ok (.integer n)
      | none => .error "an integer"
    else if tag = floatTag then
      match readFloat? s with
      | some x => .ok (.float x)
      | none => .error "a float"
    else if tag = nullTag then
      if isNull s then .ok .unit else .error "null"
    else .ok (if tag.isLocal && style = .plain then readUntagged s else .text s)

end BurstRing.Yaml
