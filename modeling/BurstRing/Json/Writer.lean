import BurstRing.Json.Basic

/-!
# Writing JSON

A value on one line without blanks, or laid out with two blanks for each level.
-/

namespace BurstRing.Json

/-- The number in hexadecimal, with at least four digits. -/
def hex4 (n : Nat) : String :=
  let digits := Nat.toDigits 16 n
  String.ofList (List.replicate (4 - digits.length) '0' ++ digits)

/-- One code point between the quotes of a string. -/
def writeCodePoint (u : CodePoint) : String :=
  if u = 0x22 then "\\\""
  else if u = 0x5C then "\\\\"
  else if u = 0x08 then "\\b"
  else if u = 0x0C then "\\f"
  else if u = 0x0A then "\\n"
  else if u = 0x0D then "\\r"
  else if u = 0x09 then "\\t"
  else if u < 0x20 then "\\u" ++ hex4 u.toNat
  else
    match char? u with
    | some c => c.toString
    | none => "\\u" ++ hex4 u.toNat

def writeString (s : List CodePoint) : String :=
  "\"" ++ String.join (s.map writeCodePoint) ++ "\""

/-- A number as it is written. -/
def numberText : JsonNumber → String
  | .natural n => toString n
  | .written text => text

mutual

/-- A value on one line. -/
def compact : Json → String
  | .null => "null"
  | .bool b => if b then "true" else "false"
  | .number n => numberText n
  | .string s => writeString s
  | .array items => "[" ++ ",".intercalate (compactItems items) ++ "]"
  | .object members => "\x7b" ++ ",".intercalate (compactMembers members) ++ "\x7d"

def compactItems : List Json → List String
  | [] => []
  | v :: rest => compact v :: compactItems rest

def compactMembers : List (List CodePoint × Json) → List String
  | [] => []
  | (k, v) :: rest => (writeString k ++ ":" ++ compact v) :: compactMembers rest

end

/-- Lines of a block, each indented, in brackets. -/
def block (opening closing indent : String) (lines : List String) : String :=
  match lines with
  | [] => opening ++ closing
  | _ =>
    opening ++ "\n" ++ ",\n".intercalate (lines.map (indent ++ "  " ++ ·)) ++ "\n" ++ indent
      ++ closing

mutual

/-- A value laid out over lines, `indent` being the blanks before its closing bracket. -/
def pretty (indent : String) : Json → String
  | .null => "null"
  | .bool b => if b then "true" else "false"
  | .number n => numberText n
  | .string s => writeString s
  | .array items => block "[" "]" indent (prettyItems (indent ++ "  ") items)
  | .object members => block "\x7b" "\x7d" indent (prettyMembers (indent ++ "  ") members)

def prettyItems (indent : String) : List Json → List String
  | [] => []
  | v :: rest => pretty indent v :: prettyItems indent rest

def prettyMembers (indent : String) : List (List CodePoint × Json) → List String
  | [] => []
  | (k, v) :: rest =>
    (writeString k ++ ": " ++ pretty indent v) :: prettyMembers indent rest

end

end BurstRing.Json
