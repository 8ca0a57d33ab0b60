/-!
# Commands

`Command.parse?` reads the arguments of a command line: a subcommand, the path of a text where it
takes one, and options, which may stand in any place behind the subcommand. The value of an option
is the next argument, or follows the option's letter or an equals sign. Behind `--` all arguments
are paths.
-/

namespace Tinct

/-- What a command line asks for. -/
inductive Command where
  | version
  | help
  | highlight (path : String) (language format : Option String) (grammars : List String)
    (lenient : Bool)
  | detect (path : String) (grammars : List String)
  | listGrammars (grammars : List String)
deriving DecidableEq, Repr

namespace Command

/-- The options of the subcommands. -/
inductive Setting where
  | language
  | format
  | grammar
  | lenient
  | help
deriving DecidableEq, Repr

namespace Setting

def name : Setting → String
  | language => "language"
  | format => "format"
  | grammar => "grammar"
  | lenient => "lenient"
  | help => "help"

def letter? : Setting → Option Char
  | language => some 'l'
  | format => some 'f'
  | grammar => some 'g'
  | lenient => none
  | help => some 'h'

def takesValue : Setting → Bool
  | language | format | grammar => true
  | lenient | help => false

end Setting

/-- What a subcommand takes. -/
structure Usage where
  settings : List Setting
  takesPath : Bool

/-- What has been read of the arguments of a subcommand. -/
structure Arguments where
  path : Option String := none
  language : Option String := none
  format : Option String := none
  grammars : List String := []
  lenient : Bool := false
  /-- Help is asked for; what follows does not count. -/
  help : Bool := false

namespace Arguments

/-- Only grammars may be given more than once. -/
def setValue? (s : Setting) (value : String) (a : Arguments) : Option Arguments :=
  match s with
  | .language => if a.language.isSome then none else some { a with language := some value }
  | .format => if a.format.isSome then none else some { a with format := some value }
  | .grammar => some { a with grammars := a.grammars ++ [value] }
  | .lenient | .help => none

def setFlag? (s : Setting) (a : Arguments) : Option Arguments :=
  match s with
  | .lenient => if a.lenient then none else some { a with lenient := true }
  | .help => some { a with help := true }
  | .language | .format | .grammar => none

def setPath? (u : Usage) (path : String) (a : Arguments) : Option Arguments :=
  if u.takesPath && a.path.isNone then some { a with path := some path } else none

end Arguments

/-- What an argument is. -/
inductive Argument where
  /-- An option and the value that is attached to it. -/
  | setting (s : Setting) (value : Option String)
  /-- The mark behind which all arguments are paths. -/
  | divider
  | path (path : String)
deriving DecidableEq, Repr

/-- The option of a long name, which an equals sign may divide from a value. -/
def longArgument? (u : Usage) (cs : List Char) : Option Argument := do
  let name := String.ofList (cs.takeWhile (· != '='))
  let s ← u.settings.find? (·.name == name)
  match cs.dropWhile (· != '=') with
  | [] => return .setting s none
  | _ :: value => return .setting s (some (.ofList value))

/-- The option of a letter, which a value may follow. -/
def shortArgument? (u : Usage) (c : Char) (cs : List Char) : Option Argument := do
  let s ← u.settings.find? (·.letter? == some c)
  if s.takesValue then
    match cs with
    | [] => return .setting s none
    | '=' :: value => return .setting s (some (.ofList value))
    | value => return .setting s (some (.ofList value))
  else return .setting s none

def argument? (u : Usage) (arg : String) : Option Argument :=
  match arg.toList with
  | ['-', '-'] => some .divider
  | '-' :: '-' :: cs => longArgument? u cs
  | '-' :: c :: cs => shortArgument? u c cs
  | _ => some (.path arg)

/-- Whether an argument can be the value of the option in front of it. -/
def isValue (arg : String) : Bool :=
  match arg.toList with
  | '-' :: _ :: _ => false
  | _ => true

/-- The paths behind the divider. -/
def paths? (u : Usage) (a : Arguments) (args : List String) : Option Arguments :=
  args.foldlM (fun a arg => a.setPath? u arg) a

/-- Reads the arguments of a subcommand. -/
def arguments? (u : Usage) (a : Arguments) : List String → Option Arguments
  | [] => some a
  | arg :: args => do
    match ← argument? u arg with
    | .divider => paths? u a args
    | .path path => arguments? u (← a.setPath? u path) args
    | .setting s value =>
      if s.takesValue then
        match value with
        | some value => arguments? u (← a.setValue? s value) args
        | none =>
          match args with
          | [] => none
          | value :: args =>
            if isValue value then arguments? u (← a.setValue? s value) args else none
      else if value.isSome then none
      else
        let a ← a.setFlag? s
        if a.help then return a else arguments? u a args

/-- A subcommand, from the arguments behind it. -/
def subcommand? (u : Usage) (args : List String) (build : Arguments → Option Command) :
    Option Command := do
  let a ← arguments? u {} args
  if a.help then return .help else build a

/-- What the arguments of a command line ask for; none if they are not used rightly. -/
def parse? : List String → Option Command
  | [] => none
  | "highlight" :: args =>
    subcommand? ⟨[.language, .format, .grammar, .lenient, .help], true⟩ args fun a =>
      a.path.map fun path => .highlight path a.language a.format a.grammars a.lenient
  | "detect" :: args =>
    subcommand? ⟨[.grammar, .help], true⟩ args fun a => a.path.map (.detect · a.grammars)
  | "list-grammars" :: args =>
    subcommand? ⟨[.grammar, .help], false⟩ args fun a => some (.listGrammars a.grammars)
  | ["help"] => some .help
  | ["help", name] =>
    if ["highlight", "detect", "list-grammars", "help"].contains name then some .help else none
  | arg :: _ =>
    match arg.toList with
    | '-' :: 'V' :: _ => some .version
    | '-' :: 'h' :: _ => some .help
    | _ =>
      if arg == "--version" then some .version
      else if arg == "--help" then some .help
      else none

/-- The files that a command reads. -/
def files : Command → List String
  | version | help => []
  | highlight path _ _ grammars _ | detect path grammars => path :: grammars
  | listGrammars grammars => grammars

end Command
end Tinct
