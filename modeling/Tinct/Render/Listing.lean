import Tinct.Json.Value
import Tinct.Text.Quoted
import Tinct.Token

/-!
# Listings of tokens

The leaf tokens of a text one by one: as JSON, or on a line each.
-/

namespace Tinct

namespace TokenKind

def label : TokenKind → String
  | text => "Text"
  | keyword => "Keyword"
  | delimiter => "Delimiter"

/-- The name of a kind in JSON. -/
def key : TokenKind → String
  | text => "text"
  | keyword => "keyword"
  | delimiter => "delimiter"

end TokenKind

namespace Render

def nullOr (f : α → Json) : Option α → Json
  | none => .null
  | some a => f a

def tokenJson (source : String) (t : Token) : Json :=
  .obj [("start", .int t.span.start), ("end", .int t.span.stop),
    ("scope", nullOr .str t.scopeName), ("kind", .str t.kind.key), ("text", .str (t.text source))]

def json (t : Tokenization) (source : String) : String :=
  (Json.obj [("relevance", .int t.relevance), ("illegal", nullOr (fun i => .int i) t.illegal),
    ("tokens", .arr (t.tokens.map (tokenJson source)))]).renderPretty

def tokenLine (source : String) (t : Token) : String :=
  toString t.span.start ++ ".." ++ toString t.span.stop ++ " " ++ t.scopeName.getD "-" ++ " " ++
    t.kind.label ++ " " ++ quoted (t.text source) ++ "\n"

def lines (t : Tokenization) (source : String) : String :=
  String.join (t.tokens.map (tokenLine source))

end Render
end Tinct
