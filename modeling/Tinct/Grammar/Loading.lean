import Tinct.Grammar.Compile
import Tinct.Grammar.Reader
import Tinct.Json.Reader
import Tinct.Yaml.Reader

/-!
# Loading grammars

A grammar file holds a definition in JSON or in YAML, which the extension of its name tells apart:
`Grammar.load` reads and compiles the text of one, `Grammar.loadFile` the file itself.
-/

namespace Tinct

/-- How a grammar file is written. -/
inductive GrammarFormat where
  | json
  | yaml
deriving DecidableEq, Repr

/-- The last name of a path; a path to a directory above has none. -/
def fileName? (path : String) : Option String :=
  match (path.splitOn "/").reverse.dropWhile (fun name => name == "" || name == ".") with
  | ".." :: _ | [] => none
  | name :: _ => some name

/-- What stands behind the last dot of a file name. A dot in front of the name does not count. -/
def extension? (path : String) : Option String := do
  match ((← fileName? path).splitOn ".").reverse with
  | ext :: name :: names => if names.isEmpty && name.isEmpty then none else some ext
  | _ => none

/-- Whether two names are equal but for the case of ASCII letters. -/
def sameName (a b : String) : Bool := a.toLower == b.toLower

namespace GrammarFormat

/-- The format of a file: a `json` extension stands for JSON, all else for YAML. -/
def ofPath (path : String) : GrammarFormat :=
  if (extension? path).any (sameName "json") then .json else .yaml

/-- Reads a text into a document. -/
def parse? : GrammarFormat → String → Option Document
  | json, text => (Json.parse? text).map .ofJson
  | yaml, text => Yaml.parse? text

/-- What cannot be read if a text is broken. -/
def inputKind : GrammarFormat → InputKind
  | json => .json
  | yaml => .yaml

end GrammarFormat

/-- The definition that a text holds. -/
def GrammarDef.load (format : GrammarFormat) (text : String) : Except Error GrammarDef :=
  match (format.parse? text).bind GrammarDef.ofDocument? with
  | some d => .ok d
  | none => .error (.unreadable format.inputKind)

namespace Grammar

/-- The grammar whose definition a text holds. -/
def load (format : GrammarFormat) (text : String) : Except Error Grammar := do
  compile (← GrammarDef.load format text)

/-- The grammar in a file, whose content is missing if it cannot be read. -/
def loadFile (path : String) (content : Option String) : Except Error Grammar :=
  match content with
  | some text => load (.ofPath path) text
  | none => .error (.unreadable .file)

end Grammar
end Tinct
