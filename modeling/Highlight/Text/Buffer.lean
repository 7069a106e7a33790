/-!
# Text buffers

A buffer collects text by appending at its end. Its length counts bytes of UTF-8.
-/

namespace Highlight.Text

/-- The character that stands in for what cannot be shown. -/
def replacementChar : Char := '\uFFFD'

/-- The character of a code point; surrogates and values past U+10FFFF give the replacement
character. -/
def charOfCodePoint (code : Nat) : Char :=
  if code.isValidChar then Char.ofNat code else replacementChar

/-- Text under construction. -/
structure Buffer where
  /-- What has been appended so far. -/
  text : String := ""

namespace Buffer

/-- A buffer without text. -/
def empty : Buffer := {}

/-- Appends a text. -/
def append (buffer : Buffer) (s : String) : Buffer :=
  { buffer with text := buffer.text ++ s }

/-- Appends one character. -/
def push (buffer : Buffer) (c : Char) : Buffer :=
  { buffer with text := buffer.text.push c }

/-- Appends the character of a code point. -/
def pushCodePoint (buffer : Buffer) (code : Nat) : Buffer :=
  buffer.push (charOfCodePoint code)

/-- Drops everything appended so far. -/
def reset (_ : Buffer) : Buffer := empty

/-- How many bytes of UTF-8 the text takes. -/
def size (buffer : Buffer) : Nat := buffer.text.utf8ByteSize

/-- Whether there is no text. -/
def isEmpty (buffer : Buffer) : Bool := buffer.text.isEmpty

end Buffer

end Highlight.Text
