import Tinct.Token

/-!
# HTML

Regions are nested `span` elements; a keyword or a delimiter has an element of its own.
-/

namespace Tinct.Render

/-- What all class names start with. -/
def classStart : String := "hljs-"

/-- The segments of a scope behind the first: the `n`-th of them ends in `n` underscores. -/
def subclasses : Nat → List String → String
  | _, [] => ""
  | n, s :: ss => " " ++ s ++ "".pushn '_' (n + 1) ++ subclasses (n + 1) ss

/-- The classes of a scope: `hljs-title function_` for `title.function`. -/
def className (scope : Scope) : String :=
  match scope.segments with
  | [] => classStart
  | s :: ss => classStart ++ s ++ subclasses 0 ss

def escapeChar : Char → String
  | '&' => "&amp;"
  | '<' => "&lt;"
  | '>' => "&gt;"
  | '"' => "&quot;"
  | '\'' => "&#x27;"
  | c => c.toString

/-- A text without characters that mean something in HTML. -/
def escapeHtml (text : String) : String := String.join (text.toList.map escapeChar)

def openSpan (scope : Scope) : String := "<span class=\"" ++ className scope ++ "\">"

def closeSpan : String := "</span>"

def tokenHtml (source : String) (t : Token) : String :=
  let text := escapeHtml (t.text source)
  match t.scope, t.kind with
  | some scope, .keyword | some scope, .delimiter => openSpan scope ++ text ++ closeSpan
  | _, _ => text

def eventHtml (source : String) : Event → String
  | .enter _ (some scope) _ => openSpan scope
  | .exit _ (some _) _ _ => closeSpan
  | .token t => tokenHtml source t
  | _ => ""

def html (t : Tokenization) (source : String) : String :=
  String.join (t.events.map (eventHtml source))

end Tinct.Render
