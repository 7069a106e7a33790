import Highlight.Color.Basic

/-!
# Reading colors

A color is read from a text after dropping every `#` in front. What is left is one of two names, or
hexadecimal components: three or four of one digit, each standing for the digit written twice, or
three or four of two digits. A missing fourth component means opaque. A component of two characters
may also be a plus sign and one digit.
-/

namespace Highlight

/-- Why a text is no color. -/
inductive HexFault where
  /-- There is a character beyond ASCII. -/
  | nonAscii
  /-- A component is not a number in hexadecimal. -/
  | component (text : String)
  /-- There is no layout of components of that length. -/
  | length (bytes : Nat)
  deriving DecidableEq, Repr

/-- The wording of a fault. -/
def HexFault.message : HexFault → String
  | .nonAscii => "non ascii characters"
  | .component text => "invalid hex component '" ++ text ++ "'"
  | .length bytes => "invalid length " ++ toString bytes

namespace Color

/-- The value of one component. -/
def componentValue? : List Char → Option Nat
  | [d] => Text.hexValue? d
  | [s, d] =>
    if s = '+' then Text.hexValue? d
    else
      match Text.hexValue? s, Text.hexValue? d with
      | some high, some low => some (16 * high + low)
      | _, _ => none
  | _ => none

/-- The components of a text, and the factor that turns their values into channels. -/
def components? : List Char → Option (List (List Char) × Nat)
  | [r, g, b] => some ([[r], [g], [b]], 17)
  | [r, g, b, a] => some ([[r], [g], [b], [a]], 17)
  | [r, r', g, g', b, b'] => some ([[r, r'], [g, g'], [b, b']], 1)
  | [r, r', g, g', b, b', a, a'] => some ([[r, r'], [g, g'], [b, b'], [a, a']], 1)
  | _ => none

/-- The channel that a component stands for. -/
def channel (factor : Nat) (component : List Char) : Except HexFault UInt8 :=
  match componentValue? component with
  | some value => .ok (value * factor).toUInt8
  | none => .error (.component (String.ofList component))

/-- The color of three or four channels. -/
def ofChannels : List UInt8 → Color
  | [r, g, b, a] => ⟨r, g, b, a⟩
  | [r, g, b] => rgb r g b
  | _ => black

/-- Reads a text without its leading number signs. -/
def ofHexBody (body : List Char) : Except HexFault Color :=
  if body = "white".toList then .ok white
  else if body = "black".toList then .ok black
  else if body.any fun c => 128 ≤ c.toNat then .error .nonAscii
  else
    match components? body with
    | some (parts, factor) => ofChannels <$> parts.mapM (channel factor)
    | none => .error (.length body.length)

/-- Reads a color. -/
def ofHex (s : String) : Except HexFault Color :=
  ofHexBody (s.toList.dropWhile (· == '#'))

end Color

end Highlight
