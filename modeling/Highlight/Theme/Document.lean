import Std.Data.TreeMap
import Highlight.Json.Record

/-!
# Theme documents

A theme document is what a theme file says, before any color in it has been looked at: the name, the
kind as it is spelled, colors by identifier, and rules with one or several scopes. Of an identifier
that occurs twice the last color counts. A setting of `inherit` says nothing.
-/

namespace Highlight

open Json Reader

/-- The settings of a rule, as they are spelled. -/
structure RuleSettings where
  foregroundText : Option String := none
  backgroundText : Option String := none
  fontStyle : Option String := none

namespace RuleSettings

/-- The foreground, unless it is inherited. -/
def foreground (settings : RuleSettings) : Option String :=
  settings.foregroundText.filter (· != "inherit")

/-- The background, unless it is inherited. -/
def background (settings : RuleSettings) : Option String :=
  settings.backgroundText.filter (· != "inherit")

end RuleSettings

/-- A rule of a theme document. Without scopes it changes the default style. -/
structure RuleDocument where
  scopes : List String := []
  settings : RuleSettings := {}

/-- What a theme file says. -/
structure ThemeDocument where
  name : String := ""
  kind : Option String := none
  colors : Std.TreeMap String String := {}
  rules : List RuleDocument := []

/-- Reads the settings of a rule. -/
def RuleSettings.reader : Reader RuleSettings :=
  record "TokenColorSettings"
    [field "foreground" .onlyInMaps (optional text)
       fun s foregroundText => { s with foregroundText },
     field "background" .onlyInMaps (optional text)
       fun s backgroundText => { s with backgroundText },
     field "fontStyle" .onlyInMaps (optional text) fun s fontStyle => { s with fontStyle }]
    {}

/-- Reads one scope or a list of scopes. -/
def scopesReader : Reader (List String) := do
  let start ← peek
  if start = '"' then return [← text]
  else if start = '[' then takeItems text
  else refuseType "string or array of strings"

/-- Reads a rule. -/
def RuleDocument.reader : Reader RuleDocument :=
  record "TokenColorRule"
    [field "scope" .allowed scopesReader fun s scopes => { s with scopes },
     field "settings" .allowed RuleSettings.reader fun s settings => { s with settings }]
    {}

/-- Reads a table of colors, still as they are spelled. -/
def colorsReader : Reader (Std.TreeMap String String) :=
  entries
    (fun table id => do
      take ':'
      return table.insert id (← text))
    {}

namespace ThemeDocument

/-- Reads a theme document. -/
def reader : Reader ThemeDocument :=
  record "RawTheme"
    [field "name" .refused text fun s name => { s with name },
     field "type" .onlyInMaps (optional text) fun s kind => { s with kind },
     field "colors" .allowed colorsReader fun s colors => { s with colors },
     field "tokenColors" .allowed (items RuleDocument.reader) fun s rules => { s with rules }]
    {}

/-- Reads a theme document from the whole of a text. -/
def ofJson (s : String) : Except Json.Fault ThemeDocument := reader.run s

end ThemeDocument

end Highlight
