import Highlight.Fault
import Highlight.Theme.Basic
import Highlight.Theme.Document

/-!
# From documents to themes

Compiling a theme document reads every color in it. The first one that cannot be read ends the
compilation: colors in ascending order of their identifiers, then rules in order, and in each rule
the foreground before the background. Of the rules without scopes the last one, taken as a whole,
changes the default style; a rule with several scopes becomes one rule per scope.
-/

namespace Highlight

/-- Reads a color that may be missing. -/
def Color.parseOption : Option String → Except Fault (Option Color)
  | none => .ok none
  | some s => some <$> Color.parse s

/-- The changes that settings ask for. -/
def RuleSettings.compile (settings : RuleSettings) : Except Fault StyleOverride := do
  let foreground ← Color.parseOption settings.foreground
  let background ← Color.parseOption settings.background
  return { foreground, background, fontStyle := settings.fontStyle.map FontStyle.ofText }

/-- Adds a rule of the document to a theme. -/
def Theme.addRule (theme : Theme) (rule : RuleDocument) : Except Fault Theme := do
  let change ← rule.settings.compile
  if rule.scopes.isEmpty then return { theme with baseline := change }
  else return { theme with rules := theme.rules ++ rule.scopes.map fun scope => ⟨scope, change⟩ }

/-- Adds a color of the document to a theme. -/
def Theme.addColor (theme : Theme) (entry : String × String) : Except Fault Theme := do
  return theme.withColor entry.1 (← Color.parse entry.2)

namespace ThemeDocument

/-- The theme that a document describes. -/
def compile (document : ThemeDocument) : Except Fault Theme := do
  let kind := (document.kind.map ThemeKind.ofText).getD .dark
  let theme ← document.colors.toList.foldlM Theme.addColor { name := document.name, kind }
  document.rules.foldlM Theme.addRule theme

/-- Reads a theme document from the contents of a file, if there are any. -/
def load (contents : Except FileFault String) : Except Fault ThemeDocument := do
  let text ← contents.mapError Fault.file
  (ofJson text).mapError Fault.document

end ThemeDocument

/-- Reads and compiles a theme from the contents of a file, if there are any. -/
def Theme.load (contents : Except FileFault String) : Except Fault Theme := do
  (← ThemeDocument.load contents).compile

end Highlight
