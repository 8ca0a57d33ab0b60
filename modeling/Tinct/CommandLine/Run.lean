import Tinct.CommandLine.Command
import Tinct.Registry
import Tinct.Render.Format

/-!
# Running commands

`Command.run` answers a command: it highlights a text, detects the language of one, or lists the
grammars. The bundled grammars come first and those of the grammar files after them, in order.
-/

namespace Tinct

/-- Why a command fails. -/
inductive CommandError where
  | failed (e : Error)
  | unknownFormat (name : String) (known : List String)
  | unknownLanguage (name : String)
  /-- The text is legal in no grammar. -/
  | noGrammar
deriving DecidableEq, Repr

namespace CommandError

def message : CommandError → String
  | failed e => e.message
  | unknownFormat name known =>
    "unknown format '" ++ name ++ "' (available: " ++ ", ".intercalate known ++ ")"
  | unknownLanguage name => "unknown language '" ++ name ++ "'"
  | noGrammar => "no grammar accepts this input"

end CommandError

/-- What a command writes. -/
structure CommandOutput where
  out : String
  warning : String := ""
deriving DecidableEq, Repr

namespace Command

/-- The content of a file. -/
def read (content? : String → Option String) (path : String) : Except CommandError String :=
  match content? path with
  | some text => .ok text
  | none => .error (.failed (.unreadable .file))

/-- The bundled grammars and those of the files. -/
def registry (content? : String → Option String) (paths : List String) :
    Except CommandError Registry :=
  let load (r : Registry) (path : String) := r.loadFile path (content? path)
  (Registry.bundled >>= paths.foldlM load).mapError .failed

/-- The format of a highlighted text where none is given. -/
def defaultFormat : String := "ansi"

/-- The grammar of a language, or else the one that fits the text. -/
def grammarFor (r : Registry) (language : Option String) (source : String) :
    Except CommandError Grammar :=
  match language with
  | some name =>
    match r.get? name with
    | some g => .ok g
    | none => .error (.unknownLanguage name)
  | none =>
    match r.detect source with
    | some d => .ok d.best.grammar
    | none => .error .noGrammar

def warning (g : Grammar) (t : Tokenization) : String :=
  match t.illegal with
  | some i =>
    "Warning: illegal sequence for " ++ g.name ++ " at offset " ++ toString i ++
      "; the rest is plain text\n"
  | none => ""

def runHighlight (content? : String → Option String) (path : String)
    (language format : Option String) (grammars : List String) (lenient : Bool) :
    Except CommandError CommandOutput := do
  let r ← registry content? grammars
  let source ← read content? path
  let name := format.getD defaultFormat
  match Render.Formats.standard.get? name with
  | none => throw (.unknownFormat name Render.Formats.standard.names)
  | some format =>
    let g ← grammarFor r language source
    let policy := if lenient then IllegalPolicy.plainRemainder else .abort
    let t ← (g.tokenize policy source).mapError .failed
    return ⟨format.render t source, warning g t⟩

/-- A name in a column of at least 16 characters. -/
def column (name : String) : String := name ++ "".pushn ' ' (16 - name.length)

def scoreLine (s : Score) : String :=
  "  " ++ column s.grammar.name ++ " " ++ toString s.relevance ++ "\n"

def runDetect (content? : String → Option String) (path : String) (grammars : List String) :
    Except CommandError CommandOutput := do
  let r ← registry content? grammars
  match r.detect (← read content? path) with
  | none => throw .noGrammar
  | some d =>
    let second := match d.secondBest with
      | some s => "runner-up: " ++ s.grammar.name ++ "\n"
      | none => ""
    return ⟨d.best.grammar.name ++ "\n" ++ second ++ "\n" ++
      String.join (d.scores.map scoreLine), ""⟩

def grammarLine (g : Grammar) : String :=
  "  " ++ g.name ++ (if g.aliases.isEmpty then "" else " (" ++ ", ".intercalate g.aliases ++ ")") ++
    "\n"

def runList (content? : String → Option String) (grammars : List String) :
    Except CommandError CommandOutput := do
  let r ← registry content? grammars
  return ⟨"Available grammars:\n\n" ++ String.join (r.grammars.map grammarLine), ""⟩

def versionText : String := "hilex 0.1.0\n"

def helpText : String :=
  "Usage: hilex highlight <path> [-l <language>] [-f <format>] [-g <grammar>]... [--lenient]\n" ++
  "       hilex detect <path> [-g <grammar>]...\n" ++
  "       hilex list-grammars [-g <grammar>]...\n"

/-- Answers a command; `content?` gives the content of a file, if it can be read as text. -/
def run (content? : String → Option String) : Command → Except CommandError CommandOutput
  | version => .ok ⟨versionText, ""⟩
  | help => .ok ⟨helpText, ""⟩
  | highlight path language format grammars lenient =>
    runHighlight content? path language format grammars lenient
  | detect path grammars => runDetect content? path grammars
  | listGrammars grammars => runList content? grammars

end Command

/-- What a command line leaves behind. -/
structure Outcome where
  status : Nat
  out : String
  err : String
deriving DecidableEq, Repr

/-- Reads and answers a command line. The status is 1 if the command fails, and 2 if there is none
in the arguments. -/
def runCommandLine (content? : String → Option String) (args : List String) : Outcome :=
  match Command.parse? args with
  | none => ⟨2, "", Command.helpText⟩
  | some c =>
    match c.run content? with
    | .ok o => ⟨0, o.out, o.warning⟩
    | .error e => ⟨1, "", "Error: " ++ e.message ++ "\n"⟩

end Tinct
