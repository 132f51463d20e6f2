import BurstRing.Json.Basic
import BurstRing.Text.Numeral

/-!
# Reading JSON

A text is one value with blanks around it.  Every reader takes the characters that are left and
gives its value with those it leaves, or nothing if the text is not JSON.  An escape may spell half
of a surrogate pair alone; two halves in a row are one code point.
-/

namespace BurstRing.Json

def isSpace (c : Char) : Bool := c == ' ' || c == '\n' || c == '\t' || c == '\r'

def skipSpace (cs : List Char) : List Char := cs.dropWhile isSpace

/-- Drops `word` from the front. -/
def expect : (word cs : List Char) → Option (List Char)
  | [], cs => some cs
  | w :: ws, c :: cs => if w = c then expect ws cs else none
  | _ :: _, [] => none

/-! ### Numbers -/

/-- The longest run of digits. -/
def digits (cs : List Char) : List Char × List Char :=
  (cs.takeWhile Char.isDigit, cs.dropWhile Char.isDigit)

/-- Digits without a superfluous zero in front. -/
def readWhole (cs : List Char) : Option (List Char × List Char) :=
  match digits cs with
  | ([], _) => none
  | ('0' :: _ :: _, _) => none
  | (ds, rest) => some (ds, rest)

/-- A point and at least one digit, or nothing. -/
def readFraction : List Char → Option (List Char × List Char)
  | '.' :: cs =>
    match digits cs with
    | ([], _) => none
    | (ds, rest) => some ('.' :: ds, rest)
  | cs => some ([], cs)

/-- The digits of an exponent, after its letter. -/
def readPower (letter : Char) : List Char → Option (List Char × List Char)
  | cs =>
    let (sign, cs) := match cs with
      | '+' :: cs => (['+'], cs)
      | '-' :: cs => (['-'], cs)
      | cs => ([], cs)
    match digits cs with
    | ([], _) => none
    | (ds, rest) => some (letter :: sign ++ ds, rest)

/-- An exponent, or nothing. -/
def readExponent : List Char → Option (List Char × List Char)
  | 'e' :: cs => readPower 'e' cs
  | 'E' :: cs => readPower 'E' cs
  | cs => some ([], cs)

def readNumber (cs : List Char) : Option (Json × List Char) := do
  let (sign, cs) := match cs with
    | '-' :: cs => (['-'], cs)
    | cs => ([], cs)
  let (whole, cs) ← readWhole cs
  let (fraction, cs) ← readFraction cs
  let (exponent, cs) ← readExponent cs
  match sign, fraction, exponent with
  | [], [], [] => some (.number (.natural (Nat.ofDigitChars 10 whole 0)), cs)
  | _, _, _ =>
    some (.number (.written (String.ofList (sign ++ whole ++ fraction ++ exponent))), cs)

/-! ### Strings -/

/-- Four hexadecimal digits. -/
def readHex4 : List Char → Option (Nat × List Char)
  | a :: b :: c :: d :: cs => do
    let a ← Text.digitValue? 16 a
    let b ← Text.digitValue? 16 b
    let c ← Text.digitValue? 16 c
    let d ← Text.digitValue? 16 d
    some (((a * 16 + b) * 16 + c) * 16 + d, cs)
  | _ => none

def escaped? : Char → Option CodePoint
  | '"' => some 0x22
  | '\\' => some 0x5C
  | '/' => some 0x2F
  | 'b' => some 0x08
  | 'f' => some 0x0C
  | 'n' => some 0x0A
  | 'r' => some 0x0D
  | 't' => some 0x09
  | _ => none

/-- Puts a code unit in front, making one code point of a leading and a trailing surrogate. -/
def consUnit (u : Nat) (rest : List (CodePoint × Bool)) : List (CodePoint × Bool) :=
  match rest with
  | (v, true) :: more =>
    let v := v.toNat
    if 0xD800 ≤ u ∧ u < 0xDC00 ∧ 0xDC00 ≤ v ∧ v < 0xE000 then
      ((0x10000 + (u - 0xD800) * 0x400 + (v - 0xDC00)).toUInt32, false) :: more
    else (u.toUInt32, true) :: rest
  | _ => (u.toUInt32, true) :: rest

/-- The rest of a string after its opening quote; a code point spelled by number is marked. -/
def readMarked : (fuel : Nat) → List Char → Option (List (CodePoint × Bool) × List Char)
  | 0, _ => none
  | _ + 1, [] => none
  | _ + 1, '"' :: cs => some ([], cs)
  | fuel + 1, '\\' :: 'u' :: cs => do
    let (u, cs) ← readHex4 cs
    let (rest, cs) ← readMarked fuel cs
    some (consUnit u rest, cs)
  | fuel + 1, '\\' :: c :: cs => do
    let u ← escaped? c
    let (rest, cs) ← readMarked fuel cs
    some ((u, false) :: rest, cs)
  | fuel + 1, c :: cs =>
    if c.val < 0x20 ∨ c = '\\' then none
    else do
      let (rest, cs) ← readMarked fuel cs
      some ((c.val, false) :: rest, cs)

/-- The rest of a string after its opening quote. -/
def readString (cs : List Char) : Option (List CodePoint × List Char) :=
  (readMarked (cs.length + 1) cs).map fun (s, rest) => (s.map (·.1), rest)

/-! ### Values -/

mutual

def readValue : (fuel : Nat) → List Char → Option (Json × List Char)
  | 0, _ => none
  | fuel + 1, cs =>
    match skipSpace cs with
    | 'n' :: cs => (expect ['u', 'l', 'l'] cs).map (.null, ·)
    | 't' :: cs => (expect ['r', 'u', 'e'] cs).map (.bool true, ·)
    | 'f' :: cs => (expect ['a', 'l', 's', 'e'] cs).map (.bool false, ·)
    | '"' :: cs => (readString cs).map fun (s, rest) => (.string s, rest)
    | '[' :: cs =>
      match skipSpace cs with
      | ']' :: cs => some (.array [], cs)
      | cs => (readItems fuel cs).map fun (items, rest) => (.array items, rest)
    | '\x7b' :: cs =>
      match skipSpace cs with
      | '\x7d' :: cs => some (.object [], cs)
      | cs => (readMembers fuel cs).map fun (members, rest) => (.object members, rest)
    | cs => readNumber cs

/-- The items of an array, of which there is one at least, and its closing bracket. -/
def readItems : (fuel : Nat) → List Char → Option (List Json × List Char)
  | 0, _ => none
  | fuel + 1, cs => do
    let (v, cs) ← readValue fuel cs
    match skipSpace cs with
    | ',' :: cs => do
      let (rest, cs) ← readItems fuel cs
      some (v :: rest, cs)
    | ']' :: cs => some ([v], cs)
    | _ => none

/-- The members of an object, of which there is one at least, and its closing brace. -/
def readMembers : (fuel : Nat) → List Char → Option (List (List CodePoint × Json) × List Char)
  | 0, _ => none
  | fuel + 1, cs => do
    let (k, cs) ← match skipSpace cs with
      | '"' :: cs => readString cs
      | _ => none
    let cs ← match skipSpace cs with
      | ':' :: cs => some cs
      | _ => none
    let (v, cs) ← readValue fuel cs
    match skipSpace cs with
    | ',' :: cs => do
      let (rest, cs) ← readMembers fuel cs
      some ((k, v) :: rest, cs)
    | '\x7d' :: cs => some ([(k, v)], cs)
    | _ => none

end

/-- The value of a whole text. -/
def parse? (s : String) : Option Json :=
  let cs := s.toList
  match readValue (2 * cs.length + 1) cs with
  | some (v, rest) => if (skipSpace rest).isEmpty then some v else none
  | none => none

end BurstRing.Json
