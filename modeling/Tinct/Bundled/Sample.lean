/-!
# Samples

Short texts in the bundled languages, each checked by hand against the grammar of its language.
-/

namespace Tinct.Bundled

/-- A text in a language. -/
structure Sample where
  language : String
  name : String
  text : String
deriving DecidableEq, Repr

namespace Sample

def lambdaArrow : Sample where
  language := "oxygene"
  name := "lambda-arrow"
  text := "var square := x -> x * x;\n"

def procedureDeclaration : Sample where
  language := "oxygene"
  name := "procedure-declaration"
  text := "procedure Foo(a: Integer);"

def shapesUnit : Sample where
  language := "oxygene"
  name := "unit"
  text :=
    "namespace Shapes;\n\n" ++
    "interface\n\n" ++
    "type\n" ++
    "  Circle = public class\n" ++
    "  public\n" ++
    "    method Area: Double;\n" ++
    "    method Describe: String;\n" ++
    "    property Radius: Double;\n" ++
    "  end;\n\n" ++
    "implementation\n\n" ++
    "\x7b TODO: cache the result \x7d\n" ++
    "method Circle.Area: Double;\n" ++
    "begin\n" ++
    "  // pi r squared\n" ++
    "  result := 3.14159 * Radius * Radius;\n" ++
    "end;\n\n" ++
    "(* the greeting uses a doubled quote *)\n" ++
    "method Circle.Describe: String;\n" ++
    "begin\n" ++
    "  exit 'it''s a circle' + #13#10;\n" ++
    "end;\n\n" ++
    "end.\n"

def label : Sample where
  language := "mercury"
  name := "label"
  text :=
    "Retry:\n" ++
    "    GoTo Retry\n"

def programModule : Sample where
  language := "mercury"
  name := "module"
  text :=
    "Imports System\n\n" ++
    "''' <summary>Entry point.</summary>\n" ++
    "Module Program\n" ++
    "    ' TODO: read the date from the command line\n" ++
    "    Sub Main()\n" ++
    "        Dim started = #2024-01-15 10:30 AM#\n" ++
    "        Dim count As Integer = &H1F\n" ++
    "        Dim ratio = 1.5E3\n" ++
    "        Dim letter = \"x\"C\n" ++
    "        Dim quote = \"say \"\"hi\"\"\"\n" ++
    "#If DEBUG Then\n" ++
    "        Console.WriteLine(quote) REM trace only\n" ++
    "#End If\n" ++
    "    End Sub\n" ++
    "End Module\n"

def newlineInString : Sample where
  language := "mercury"
  name := "newline-in-string"
  text :=
    "Dim s = \"first\n" ++
    "second\"\n"

def unterminatedString : Sample where
  language := "mercury"
  name := "unterminated-string"
  text := "Dim greeting = \"hello"

def urlInString : Sample where
  language := "mercury"
  name := "url-in-string"
  text := "Dim url = \"http://example.com\"\n"

/-- The samples of each language by name. -/
def all : List Sample :=
  [lambdaArrow, procedureDeclaration, shapesUnit,
    label, programModule, newlineInString, unterminatedString, urlInString]

/-- The names of the samples of a language. -/
def namesOf (language : String) : List String :=
  (all.filter (·.language == language)).map (·.name)

def find? (language name : String) : Option Sample :=
  all.find? fun s => s.language == language && s.name == name

end Sample
end Tinct.Bundled
