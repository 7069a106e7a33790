import Highlight.Color.Basic
import Highlight.Token.Metadata

/-!
# Token themes

A token theme gives every scope path its metadata word and says which colors the indices in the
words stand for. Index 0 stands for no color in every theme that the library builds.
-/

namespace Highlight

/-- What highlighting needs from a theme. -/
structure TokenTheme where
  /-- The word of a scope path in a language. -/
  word : LanguageId → String → Metadata
  /-- The color of an index. -/
  color : Nat → Option Color

end Highlight
