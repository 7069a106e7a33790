import Highlight.Json.Fault

/-!
# Reading JSON

A reader takes what it needs from the front of the text and leaves the rest, or ends with the first
fault. Texts and numbers that are asked for are checked in full; values that nobody asks for are
only checked for their form. Reading never looks further ahead than it has to, so a mismatch early
in the text is found before a malformed part behind it.
-/

namespace Highlight.Json

/-- A computation that reads from the front of a text. -/
abbrev Reader (α : Type) := StateT (List Char) (Except Fault) α

/-- The blanks of JSON. -/
def isJsonBlank (c : Char) : Bool := c == ' ' || c == '\n' || c == '\t' || c == '\r'

/-- Whether the character is an ASCII digit. -/
def isDigit (c : Char) : Bool := '0' ≤ c && c ≤ '9'

/-- The value of an ASCII digit. -/
def digitValue (c : Char) : Nat := c.toNat - 48

namespace Reader

/-- Ends the reading with a mismatch. -/
def refuse {α : Type} (cause : Mismatch) : Reader α := throw (.mismatch cause)

/-- The next character that is no blank, which stays in front; `none` at the end. -/
def peek? : Reader (Option Char) := do
  modify (·.dropWhile isJsonBlank)
  return (← get).head?

/-- The next character that is no blank, which stays in front; there has to be one. -/
def peek : Reader Char := do
  match ← peek? with
  | some c => return c
  | none => throw .truncated

/-- Drops the character in front. -/
def advance : Reader Unit := modify List.tail

/-- Takes one given character, blanks before it aside. -/
def take (expected : Char) : Reader Unit := do
  if (← peek) = expected then advance else throw .malformed

/-- Takes the given characters, which have to follow at once. -/
def takeWord : List Char → Reader Unit
  | [] => pure ()
  | expected :: rest => do
    match (← get).head? with
    | none => throw .truncated
    | some c => if c = expected then advance *> takeWord rest else throw .malformed

/-! ### Texts -/

/-- Takes four hexadecimal digits. The text ends too soon if fewer than four bytes are left. -/
def takeUnit : Reader Nat := do
  let cs ← get
  match (cs.take 4).mapM Text.hexValue? with
  | some [a, b, c, d] => set (cs.drop 4) *> pure (((a * 16 + b) * 16 + c) * 16 + d)
  | _ =>
    if (String.ofList (cs.take 4)).utf8ByteSize < 4 then throw .truncated else throw .malformed

/-- Takes the escape that completes a character beyond U+FFFF, and gives that character. -/
def takeLowUnit (high : Nat) : Reader Char := do
  takeWord ['\\', 'u']
  let low ← takeUnit
  if 0xDC00 ≤ low ∧ low ≤ 0xDFFF then
    return Char.ofNat (0x10000 + (high - 0xD800) * 0x400 + (low - 0xDC00))
  else throw .malformed

/-- Takes the rest of an escape behind its backslash. Where units are paired, both are taken as one
character; otherwise any unit will do. -/
def takeEscape (paired : Bool) : Reader Char := do
  match (← get).head? with
  | none => throw .truncated
  | some c =>
    advance
    if c = '"' ∨ c = '\\' ∨ c = '/' then return c
    else if c = 'b' then return '\x08'
    else if c = 'f' then return '\x0c'
    else if c = 'n' then return '\n'
    else if c = 'r' then return '\r'
    else if c = 't' then return '\t'
    else if c = 'u' then
      let unit ← takeUnit
      if !paired then return Char.ofNat unit
      else if 0xD800 ≤ unit ∧ unit ≤ 0xDBFF then takeLowUnit unit
      else if 0xDC00 ≤ unit ∧ unit ≤ 0xDFFF then throw .malformed
      else return Char.ofNat unit
    else throw .malformed

/-- Takes the characters of a text up to its closing quote. Each step takes a character, so the
length of the text is fuel enough. -/
def takeChars (paired : Bool) : Nat → List Char → Reader (List Char)
  | 0, _ => throw .truncated
  | fuel + 1, taken => do
    match (← get).head? with
    | none => throw .truncated
    | some c =>
      advance
      if c = '"' then return taken.reverse
      else if c = '\\' then
        let decoded ← takeEscape paired
        takeChars paired fuel (decoded :: taken)
      else if c.toNat < 0x20 then throw .malformed
      else takeChars paired fuel (c :: taken)

/-- Takes a text behind its opening quote. -/
def takeText (paired : Bool) : Reader String := do
  let fuel := (← get).length + 1
  return String.ofList (← takeChars paired fuel [])

/-! ### Numbers -/

/-- Takes all digits in front. -/
def takeDigits : Reader (List Char) := do
  let cs ← get
  set (cs.dropWhile isDigit)
  return cs.takeWhile isDigit

/-- Appends digits to a number as long as it fits 64 bits, and counts the digits left over. -/
def absorb (number : Nat) : List Char → Nat × Nat
  | [] => (number, 0)
  | d :: rest =>
    let longer := number * 10 + digitValue d
    if longer < UInt64.size then absorb longer rest else (number, rest.length + 1)

/-- Ends the reading where a digit is missing. -/
def missingDigit {α : Type} : Reader α := do
  if (← get).isEmpty then throw .truncated else throw .malformed

/-- Takes a fraction, if there is one, and gives the digits and the exponent that it leads to. -/
def takeFraction (digits : Nat) (exponent : Int) : Reader (Nat × Int) := do
  if (← get).head? ≠ some '.' then return (digits, exponent)
  else
    advance
    let places ← takeDigits
    if places.isEmpty then missingDigit
    else
      let (longer, left) := absorb digits places
      return (longer, exponent - ((places.length - left : Nat) : Int))

/-- Takes an exponent, if there is one, and adds it. -/
def takeExponent (exponent : Int) : Reader Int := do
  match (← get).head? with
  | some 'e' | some 'E' =>
    advance
    let sign := (← get).head?
    if sign = some '+' ∨ sign = some '-' then advance
    let digits ← takeDigits
    if digits.isEmpty then missingDigit
    else
      let amount := digits.foldl (fun n d => n * 10 + digitValue d) 0
      return if sign = some '-' then exponent - amount else exponent + amount
  | _ => return exponent

/-- The floating-point value of digits with an exponent; the text is refused if it is too great. -/
def finite (negative : Bool) (digits : Nat) (exponent : Int) : Reader Number :=
  match floatOf negative digits exponent with
  | some value => pure (.float value)
  | none => throw .malformed

/-- Takes a number behind its sign. -/
def takeNumber (negative : Bool) : Reader Number := do
  let whole ← takeDigits
  if whole.isEmpty then missingDigit
  else if 1 < whole.length ∧ whole.head? = some '0' then throw .malformed
  else
    let (digits, left) := absorb 0 whole
    match (← get).head? with
    | some '.' | some 'e' | some 'E' =>
      let (digits, exponent) ← takeFraction digits left
      finite negative digits (← takeExponent exponent)
    | _ =>
      if left ≠ 0 then finite negative digits left
      else if !negative then return .int digits
      else if digits = 0 ∨ 0x8000000000000000 < digits then finite true digits 0
      else return .int (-digits)

/-- Takes a number with its sign. -/
def takeSigned : Reader Number := do
  if (← get).head? = some '-' then advance *> takeNumber true else takeNumber false

/-! ### Whatever is there -/

/-- Takes the constant, number or text that starts with the given character, or names the sequence
or map that does. -/
def found (start : Char) : Reader Found := do
  if start = 'n' then takeWord "null".toList *> pure .null
  else if start = 't' then takeWord "true".toList *> pure (.bool true)
  else if start = 'f' then takeWord "false".toList *> pure (.bool false)
  else if start = '-' ∨ isDigit start then return Found.ofNumber (← takeSigned)
  else if start = '"' then advance *> (Found.text <$> takeText true)
  else if start = '[' then return .sequence
  else if start = '\x7b' then return .map
  else throw .malformed

/-- Ends the reading at a value of the wrong type. -/
def refuseType {α : Type} (expected : String) : Reader α := do
  let actual ← found (← peek)
  refuse (.invalidType actual expected)

/-! ### Values that nobody asks for -/

/-- Takes digits of which at least one has to be there. -/
def skipDigits : Reader Unit := do
  if (← takeDigits).isEmpty then throw .malformed

/-- Takes a number of any size behind its sign. -/
def skipNumber : Reader Unit := do
  let whole ← takeDigits
  if whole.isEmpty ∨ (1 < whole.length ∧ whole.head? = some '0') then throw .malformed
  if (← get).head? = some '.' then advance *> skipDigits
  let mark := (← get).head?
  if mark = some 'e' ∨ mark = some 'E' then
    advance
    let sign := (← get).head?
    if sign = some '+' ∨ sign = some '-' then advance
    skipDigits

/-- Where skipping stands: before a value, behind an opening bracket, or behind a value. -/
inductive Place where
  | before
  | opened
  | behind
  deriving DecidableEq

/-- Takes a value that is neither a list nor a record. -/
def skipScalar (start : Char) : Reader Unit := do
  if start = 'n' then takeWord "null".toList
  else if start = 't' then takeWord "true".toList
  else if start = 'f' then takeWord "false".toList
  else if start = '-' then advance *> skipNumber
  else if isDigit start then skipNumber
  else if start = '"' then
    advance
    let _ ← takeText false
  else throw .malformed

/-- Takes the key in front of the next value, inside a record. -/
def skipKey (closing : Char) : Reader Unit := do
  if closing = '\x7d' then
    take '"'
    let _ ← takeText false
    take ':'

/-- Takes a whole value. The closing brackets still to come are kept, innermost first. -/
def skipFrom : Nat → Place → List Char → Reader Unit
  | 0, _, _ => throw .malformed
  | _ + 1, .behind, [] => pure ()
  | fuel + 1, .before, closings => do
    let start ← peek
    if start = '[' then advance *> skipFrom fuel .opened (']' :: closings)
    else if start = '\x7b' then advance *> skipFrom fuel .opened ('\x7d' :: closings)
    else skipScalar start *> skipFrom fuel .behind closings
  | fuel + 1, place, closings => do
    match closings with
    | [] => pure ()
    | closing :: outer =>
      let next ← peek
      if next = closing then advance *> skipFrom fuel .behind outer
      else if place = .opened then skipKey closing *> skipFrom fuel .before closings
      else if next = ',' then
        advance
        skipKey closing
        skipFrom fuel .before closings
      else throw .malformed

/-- Takes a value of any form. Every two steps take a character. -/
def skipValue : Reader Unit := do
  let fuel := 2 * (← get).length + 2
  skipFrom fuel .before []

/-! ### Whole documents -/

/-- Reads a value that makes up the whole text, blanks aside. -/
def run {α : Type} (reader : Reader α) (s : String) : Except Fault α := do
  let (value, rest) ← (do
    let value ← reader
    let next ← peek?
    pure (value, next) : Reader (α × Option Char)).run' s.toList
  match rest with
  | none => return value
  | some _ => throw .malformed

end Reader

end Highlight.Json
