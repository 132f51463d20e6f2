import BurstRing.Text.Printable

/-!
# Quoted text and record text

How a value is shown inside a diagnostic line: a text stands in double quotes with its control and
unprintable characters spelled out, a record is its name and its fields in braces.
-/

namespace BurstRing.Text

/-- The number of `c` in hexadecimal, in braces after `\u`. -/
def spelled (c : Char) : String :=
  "\\u\x7b" ++ String.ofList (Nat.toDigits 16 c.toNat) ++ "\x7d"

/-- One character of a quoted text. -/
def quotedChar (c : Char) : String :=
  if c = '"' then "\\\""
  else if c = '\\' then "\\\\"
  else if c = '\n' then "\\n"
  else if c = '\r' then "\\r"
  else if c = '\t' then "\\t"
  else if c = '\x00' then "\\0"
  else if isPrintable c then c.toString
  else spelled c

/-- The text in double quotes. -/
def quoted (s : String) : String :=
  "\"" ++ String.join (s.toList.map quotedChar) ++ "\""

/-- A record: its name and its fields in order. -/
def record (name : String) (fields : List (String × String)) : String :=
  name ++ " \x7b " ++ ", ".intercalate (fields.map fun f => f.1 ++ ": " ++ f.2) ++ " \x7d"

/-- A name applied to one value. -/
def applied (name value : String) : String := name ++ "(" ++ value ++ ")"

end BurstRing.Text
