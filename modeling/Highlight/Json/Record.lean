import Highlight.Json.Reader

/-!
# Reading typed values

Readers for texts, bounded numbers, optional values, lists, tables, named variants and records. A
record may be written as a map from field names, in any order and with further fields that are
ignored, or as a list of its fields in the order of their declaration.
-/

namespace Highlight.Json.Reader

/-! ### Simple values -/

/-- Reads a text. -/
def text : Reader String := do
  if (← peek) = '"' then advance *> takeText true else refuseType "a string"

/-- Reads a whole number below a bound. -/
def natBelow (bound : Nat) (expected : String) : Reader Nat := do
  let start ← peek
  if start = '-' ∨ isDigit start then
    match ← takeSigned with
    | .int value =>
      if 0 ≤ value ∧ value < bound then return value.toNat
      else refuse (.invalidValue (.int value) expected)
    | .float value => refuse (.invalidType (.float value) expected)
  else refuseType expected

/-- Reads a byte. -/
def byte : Reader UInt8 := Nat.toUInt8 <$> natBelow UInt8.size "u8"

/-- Reads a word of 32 bits. -/
def word : Reader UInt32 := Nat.toUInt32 <$> natBelow UInt32.size "u32"

/-- Reads a value, or `null` for none. -/
def optional {α : Type} (value : Reader α) : Reader (Option α) := do
  if (← peek?) = some 'n' then takeWord "null".toList *> pure none else some <$> value

/-! ### Lists and tables -/

/-- Whether another item follows in a list; a comma before it is taken. -/
def hasItem (first : Bool) : Reader Bool := do
  let next ← peek
  if next = ']' then return false
  else if first then return true
  else if next = ',' then
    advance
    if (← peek) = ']' then throw .malformed else return true
  else throw .malformed

/-- Takes the items of a list up to its closing bracket. Each takes a character at least. -/
def itemsFrom {α : Type} (item : Reader α) : Nat → List α → Reader (List α)
  | 0, _ => throw .malformed
  | fuel + 1, taken => do
    if ← hasItem taken.isEmpty then itemsFrom item fuel ((← item) :: taken)
    else return taken.reverse

/-- Takes a list with its brackets. -/
def takeItems {α : Type} (item : Reader α) : Reader (List α) := do
  advance
  let read ← itemsFrom item ((← get).length + 1) []
  take ']'
  return read

/-- Reads a list. -/
def items {α : Type} (item : Reader α) : Reader (List α) := do
  if (← peek) = '[' then takeItems item else refuseType "a sequence"

/-- Whether another key follows in a map; a comma before it and its quote are taken. -/
def hasKey (first : Bool) : Reader Bool := do
  let next ← peek
  if next = '\x7d' then return false
  else
    if !first then if next = ',' then advance else throw .malformed
    take '"' *> pure true

/-- Takes the entries of a map up to its closing bracket, folding them into a state. The key is
given to the step, which takes what follows it. -/
def entriesFrom {σ : Type} (step : σ → String → Reader σ) : Nat → Bool → σ → Reader σ
  | 0, _, _ => throw .malformed
  | fuel + 1, first, state => do
    if ← hasKey first then
      let key ← takeText true
      entriesFrom step fuel false (← step state key)
    else return state

/-- Reads a map, folding its entries into a state. -/
def entries {σ : Type} (step : σ → String → Reader σ) (state : σ) : Reader σ := do
  if (← peek) = '\x7b' then
    advance
    let read ← entriesFrom step ((← get).length + 1) true state
    take '\x7d'
    return read
  else refuseType "a map"

/-! ### Variants -/

/-- The meaning of a name, which has to be one of those allowed. -/
def variantOf {α : Type} (allowed : List (String × α)) (name : String) : Reader α :=
  match allowed.lookup name with
  | some value => pure value
  | none => refuse (.unknownVariant name (allowed.map (·.1)))

/-- Reads one of several names, written as a text or as the only key of a map to `null`. -/
def variant {α : Type} (allowed : List (String × α)) : Reader α := do
  let start ← peek
  if start = '"' then
    advance
    variantOf allowed (← takeText true)
  else if start = '\x7b' then
    advance
    take '"'
    let value ← variantOf allowed (← takeText true)
    take ':'
    if (← peek) = 'n' then takeWord "null".toList else refuseType "unit"
    take '\x7d'
    return value
  else throw .malformed

/-! ### Records -/

/-- What becomes of a record without some field. -/
inductive Absence where
  /-- The record is refused. -/
  | refused
  /-- A map may leave the field out, a list may not. -/
  | onlyInMaps
  /-- The field may be left out. -/
  | allowed
  deriving DecidableEq

/-- A field of a record that is read into a state. -/
structure Field (σ : Type) where
  name : String
  absence : Absence
  /-- Reads the field and enters it into the state. -/
  enter : σ → Reader σ

/-- A field given by a reader and a function that enters what was read. -/
def field {σ α : Type} (name : String) (absence : Absence) (value : Reader α)
    (enter : σ → α → σ) : Field σ :=
  ⟨name, absence, fun state => enter state <$> value⟩

/-- Takes one entry of a record, keeping account of the fields that were there. -/
def recordEntry {σ : Type} (fields : List (Field σ)) (state : σ × List String) (key : String) :
    Reader (σ × List String) := do
  match fields.find? (·.name == key) with
  | some known =>
    if state.2.contains key then refuse (.duplicateField key)
    else
      take ':'
      return (← known.enter state.1, key :: state.2)
  | none =>
    take ':'
    skipValue
    return state

/-- Refuses a record that lacks a field it has to have. -/
def requireFields {σ : Type} (present : List String) : List (Field σ) → Reader Unit
  | [] => pure ()
  | wanted :: rest =>
    if wanted.absence = .refused ∧ !present.contains wanted.name then
      refuse (.missingField wanted.name)
    else requireFields present rest

/-- Takes a record written as a map, with its brackets. -/
def recordMap {σ : Type} (fields : List (Field σ)) (blank : σ) : Reader σ := do
  advance
  let (state, present) ← entriesFrom (recordEntry fields) ((← get).length + 1) true (blank, [])
  requireFields present fields
  take '\x7d'
  return state

/-- Takes the fields of a record written as a list, from the given position on. -/
def recordItems {σ : Type} (expected : String) (position : Nat) (state : σ) :
    List (Field σ) → Reader σ
  | [] => pure state
  | wanted :: rest => do
    if ← hasItem (position == 0) then
      recordItems expected (position + 1) (← wanted.enter state) rest
    else if wanted.absence = .allowed then recordItems expected (position + 1) state rest
    else refuse (.invalidLength position expected)

/-- Reads a record. The name and the fields say what is expected. -/
def record {σ : Type} (name : String) (fields : List (Field σ)) (blank : σ) : Reader σ := do
  let expected := "struct " ++ name
  let start ← peek
  if start = '\x7b' then recordMap fields blank
  else if start = '[' then
    let count := fields.length
    let plural := if count = 1 then " element" else " elements"
    advance
    let state ← recordItems (expected ++ " with " ++ toString count ++ plural) 0 blank fields
    take ']'
    return state
  else refuseType expected

end Highlight.Json.Reader
