import Std.Data.TreeMap
import Highlight.Cancellation
import Highlight.Html.Line
import Highlight.Line.Tokenizer
import Highlight.Provider.Waiter
import Highlight.Text.Buffer
import Highlight.Text.Lines

/-!
# Texts in HTML

A text is rendered line by line, every line followed by a break. Each line is tokenized from the
state at the end of the line before. Before each line the work may turn out to be cancelled, and
then nothing that was rendered so far is given back.

Rendering starts when the tokenizer of the language is there. While it is still to come, every poll
asks for it first, and gives up if the work is cancelled.
-/

namespace Highlight

variable {W S : Type}

namespace Html

/-- What stands behind every line of a text. -/
def lineBreak : String := "<br/>"

/-- Renders lines from a state on, behind what is in the buffer. -/
def renderLines (theme : TokenTheme) (options : RenderOptions) (cancelled : W → Bool)
    (tokenizer : Tokenizer W S) :
    List String → S → Text.Buffer → StateM W (Except Fault String)
  | [], _, buffer => return .ok buffer.text
  | line :: rest, state, buffer => do
    if cancelled (← get) then return .error .cancelled
    else
      let (words, state) ← tokenizer.encoded line state 0
      let rendered := String.ofList (renderLine theme options line.toList words)
      renderLines theme options cancelled tokenizer rest state
        ((buffer.append rendered).append lineBreak)

/-- Renders a text with a tokenizer. -/
def renderText (theme : TokenTheme) (options : RenderOptions) (cancelled : W → Bool)
    (tokenizer : Tokenizer W S) (s : String) : StateM W (Except Fault String) :=
  renderLines theme options cancelled tokenizer (Text.lines s) tokenizer.initial .empty

end Html

/-! ### Highlighters -/

/-- What is needed to render texts, the tokenizers aside. -/
structure Highlighter (W S : Type) where
  theme : TokenTheme
  /-- The tokenizer that stands in for missing ones, if that is asked for. -/
  plain : Tokenizer W S
  /-- The languages of MIME types, which are kept in lower case. -/
  mimeTypes : Std.TreeMap String String := {}

/-- A text to render, with its language. -/
structure RenderRequest where
  text : String
  language : String
  options : RenderOptions := {}

/-- A rendering that is under way: the request, and the wait for its tokenizer. -/
structure RenderJob where
  request : RenderRequest
  waiter : Waiter

/-- A rendering that has not been polled yet. -/
def RenderRequest.start (request : RenderRequest) : RenderJob :=
  ⟨request, .fresh request.language⟩

namespace Highlighter

/-- A MIME type in lower case, as far as ASCII letters go. -/
def mimeKey (mimeType : String) : String := mimeType.map Char.toLower

/-- Gives a MIME type a language. -/
def registerMimeType (highlighter : Highlighter W S) (mimeType language : String) :
    Highlighter W S :=
  { highlighter with
    mimeTypes := highlighter.mimeTypes.insert (mimeKey mimeType) language }

/-- The language of a MIME type. -/
def languageOfMimeType (highlighter : Highlighter W S) (mimeType : String) : Option String :=
  highlighter.mimeTypes[mimeKey mimeType]?

/-- The language of an element: the one it names, or that of its MIME type, or plain text. -/
def languageOfElement (highlighter : Highlighter W S) (language mimeType : Option String) :
    String :=
  (language <|> mimeType.bind highlighter.languageOfMimeType).getD Language.plainText.name

/-- The tokenizer to use, once the wait for it is over. -/
def tokenizerOf (highlighter : Highlighter W S) (options : RenderOptions) :
    Except Fault (Tokenizer W S) → Except Fault (Tokenizer W S)
  | .error (.noTokenizer language) =>
    if options.plainFallback then .ok highlighter.plain else .error (.noTokenizer language)
  | outcome => outcome

/-- Renders the text of a request with the tokenizer that was found. -/
def render (highlighter : Highlighter W S) (cancelled : W → Bool) (request : RenderRequest)
    (found : Except Fault (Tokenizer W S)) : StateM W (Except Fault String) :=
  match highlighter.tokenizerOf request.options found with
  | .error fault => return .error fault
  | .ok tokenizer =>
    Html.renderText highlighter.theme request.options cancelled tokenizer request.text

/-- Polls a rendering. As soon as its tokenizer is there, the text is rendered to the end. -/
def poll (highlighter : Highlighter W S) (cancelled : W → Bool) (job : RenderJob) :
    StateM (Providers (Tokenizer W S) × W) (Progress (Except Fault String) RenderJob) :=
  fun (providers, surroundings) =>
    match job.waiter.poll providers with
    | (.pending waiter, providers) =>
      if cancelled surroundings then (.done (.error .cancelled), (providers, surroundings))
      else (.pending { job with waiter }, (providers, surroundings))
    | (.done found, providers) =>
      let (result, surroundings) :=
        (highlighter.render cancelled job.request found).run surroundings
      (.done result, (providers, surroundings))

/-- How a highlighter is described together with the providers it uses. -/
def describe (highlighter : Highlighter W S) (providers : Providers (Tokenizer W S)) : String :=
  let mimeTypes :=
    highlighter.mimeTypes.toList.map fun (mimeType, language) =>
      Text.quoted mimeType ++ ": " ++ Text.quoted language
  "Colorizer \x7b registry: " ++ providers.describe ++ ", mime_types: \x7b" ++
    ", ".intercalate mimeTypes ++ "\x7d, .. \x7d"

end Highlighter

end Highlight
