import Tinct.Error
import Tinct.Grammar.Definition
import Tinct.Grammar.Mode

/-!
# Compiling grammars

`Grammar.compile` turns a definition into a grammar. A mode gets its place before its contents are
compiled, so modes may contain each other and themselves; every mode under a name is compiled,
used or not. The first fault rejects the grammar.
-/

namespace Tinct

/-- The begin of a mode that has a scope and no begin: it matches everywhere. -/
def implicitBegin : Pattern := .source "\\B|\\b"

/-- A grammar being compiled: its modes so far, `none` where a place is taken, and the places of
the modes that have names. -/
structure Build where
  slots : Array (Option Mode) := #[]
  named : Entries Nat := []

/-- Steps of a compilation. -/
abbrev Compiling := StateT Build (Except GrammarFault)

/-- A result of the pattern compiler. -/
def ofPattern (r : Except PatternError α) : Except GrammarFault α := r.mapError .pattern

namespace Build

/-- Takes the next place. -/
def reserve : Compiling Nat := do
  let b ← get
  set { b with slots := b.slots.push none }
  return b.slots.size

/-- Puts a mode into its place. -/
def fill (m : Mode) : Compiling Unit :=
  modify fun b => { b with slots := b.slots.setIfInBounds m.id (some m) }

end Build

namespace GrammarDef

def patternScope (d : GrammarDef) : PatternScope := ⟨d.patterns, d.caseInsensitive⟩

/-- The scope of a name. Aliases apply once: the alias of an alias is not looked up. -/
def scope (d : GrammarDef) (name : String) : Scope := ⟨(d.scopeAliases.get? name).getD name⟩

/-- A table with a list of words added. -/
def addWords (d : GrammarDef) (t : KeywordTable) (category words : String) :
    Except GrammarFault KeywordTable :=
  match t.add (d.scope category) words with
  | (t, none) => .ok t
  | (_, some e) => .error (.keyword e)

/-- The table of a keyword definition. -/
def keywordTable (d : GrammarDef) : KeywordsDef → Except GrammarFault KeywordTable
  | .words list => d.addWords { ignoreCase := d.caseInsensitive } "keyword" list
  | .table pattern categories => do
    let pattern ← pattern.mapM fun source => ofPattern (d.patternScope.identifier source)
    categories.foldlM (fun t (category, words) => d.addWords t category words)
      { ignoreCase := d.caseInsensitive, pattern }

def matcher (d : GrammarDef) (p : Pattern) : Except GrammarFault Matcher :=
  ofPattern (d.patternScope.matcher p)

/-- How the regions of a begin end. -/
def finish (d : GrammarDef) (p : Option Pattern) (isMatch endsWithParent : Bool)
    (begin : Matcher) : Except GrammarFault Finish :=
  if isMatch then .ok .immediate
  else
    match p with
    | some p => do return .pattern (← ofPattern (d.patternScope.endPattern p begin))
    | none => .ok (if endsWithParent then .unbounded else .immediate)

/-- The begin that the mode itself declares, for its regions and for variants without one. -/
def ownBegin (d : GrammarDef) (m : ModeDef) : Except GrammarFault (Option Matcher) :=
  match m.beginKeywords, m.begin.or m.matched with
  | some words, _ => do return some (← ofPattern (d.patternScope.words (splitWords words)))
  | none, some p => do return some (← d.matcher p)
  | none, none => .ok none

/-- A variant of a mode; what the variant lacks is taken from the mode. -/
def variant (d : GrammarDef) (m : ModeDef) (inherited : Option Matcher) (label : String)
    (v : VariantDef) : Except GrammarFault Variant := do
  if v.begin.isSome && v.matched.isSome then throw (.variantManyBegins label)
  let (begin, isMatch) ←
    match v.begin.or v.matched, inherited with
    | some p, _ => pure (← d.matcher p, v.matched.isSome)
    | none, some begin => pure (begin, m.matched.isSome)
    | none, none => throw (.variantNoBegin label)
  if isMatch && v.finish.isSome then throw (.matchWithEnd label)
  return ⟨begin, ← d.finish (v.finish.or m.finish) isMatch m.endsWithParent begin⟩

/-- The variants of a mode: those it lists, or the one that the mode itself is. -/
def variants (d : GrammarDef) (m : ModeDef) (label : String) :
    Except GrammarFault (List Variant) := do
  let begins := [m.begin.isSome, m.matched.isSome, m.beginKeywords.isSome]
  if 1 < begins.count true then throw (.manyBegins label)
  if m.matched.isSome && m.finish.isSome then throw (.matchWithEnd label)
  let own ← d.ownBegin m
  if m.variants.isEmpty then
    let begin ←
      match own with
      | some begin => pure begin
      | none => if m.scope.isSome then d.matcher implicitBegin else throw (.noBegin label)
    return [⟨begin, ← d.finish m.finish m.matched.isSome m.endsWithParent begin⟩]
  else m.variants.mapM (d.variant m own label)

/-- The keywords of a mode's own. Words it begins at are keywords too, unless it lists some. -/
def ownKeywords (d : GrammarDef) (m : ModeDef) : Except GrammarFault (Option KeywordTable) :=
  match m.keywords, m.beginKeywords with
  | some k, _ => do return some (← d.keywordTable k)
  | none, some words => do
    return some (← d.addWords { ignoreCase := d.caseInsensitive } "keyword" words)
  | none, none => .ok none

mutual

/-- Compiles a mode into the place `id`, `resolve` giving the places of modes by name. -/
def compileMode (d : GrammarDef) (resolve : String → Compiling Nat) (id : Nat)
    (name : Option String) : ModeDef → Compiling Unit
  | m@⟨_, _, _, _, _, _, _, _, contains, _, _, _, _, _, _, _, _, _⟩ => do
    let label := name.getD "inline mode"
    let variants ← d.variants m label
    let keywords ← d.ownKeywords m
    let contains ← compileEntries d resolve (some id) contains
    let illegal ← m.illegal.mapM fun p => d.matcher p
    Build.fill
      { id, name, variants, keywords, contains, illegal
        scope := m.scope.map d.scope
        beginScope := m.beginScope.map d.scope
        endScope := m.endScope.map d.scope
        relevance := m.relevance.getD (if m.scope.isSome then 1 else 0)
        flags := ⟨m.excludeBegin, m.excludeEnd, m.returnEnd, m.endsWithParent, m.endsParent,
          m.preferContinuation⟩ }

/-- The places of the modes of a list that belongs to the mode at `parent`. -/
def compileEntries (d : GrammarDef) (resolve : String → Compiling Nat) (parent : Option Nat) :
    List (ModeEntry ModeDef) → Compiling (List Nat)
  | [] => return []
  | e :: es => do
    let id ← compileEntry d resolve parent e
    return id :: (← compileEntries d resolve parent es)

/-- The place of an entry of a list. -/
def compileEntry (d : GrammarDef) (resolve : String → Compiling Nat) (parent : Option Nat) :
    ModeEntry ModeDef → Compiling Nat
  | .ref name =>
    if name = "self" then
      match parent with
      | some id => return id
      | none => throw .selfOutsideMode
    else resolve name
  | .inline m => do
    let id ← Build.reserve
    compileMode d resolve id none m
    return id

end

/-- The place of the mode under a name, which is compiled when it is first asked for. Modes under
way have their place already, so no chain of modes is longer than the list of modes. -/
def placeOf (d : GrammarDef) : Nat → String → Compiling Nat
  | 0, name => do
    match (← get).named.get? name with
    | some id => return id
    | none => throw (.unknownMode name)
  | depth + 1, name => do
    match (← get).named.get? name, d.modes.get? name with
    | some id, _ => return id
    | none, none => throw (.unknownMode name)
    | none, some m =>
      let id ← Build.reserve
      modify fun b => { b with named := b.named.put name id }
      compileMode d (placeOf d depth) id (some name) m
      return id

/-- Compiles all modes: those the root reaches first, then the rest in order. -/
def compileModes (d : GrammarDef) : Compiling Unit := do
  let place := d.placeOf d.modes.length
  let root ← Build.reserve
  let illegal ← d.illegal.mapM fun p => d.matcher p
  let contains ← compileEntries d place none d.contains
  Build.fill { Mode.root contains illegal with id := root }
  d.modes.forM fun (name, _) => do
    let _ ← place name

/-- The modes of a finished build. -/
def finishModes (slots : Array (Option Mode)) : Except GrammarFault (Array Mode) := do
  let modes ← slots.toList.zipIdx.mapM fun
    | (some m, _) => .ok m
    | (none, i) => .error (.uncompiledMode i)
  return modes.toArray

end GrammarDef

namespace Grammar

/-- The name under which faults of a grammar without a name are reported. -/
def unnamed : String := "<unnamed>"

/-- The grammar of a definition. -/
def compile (d : GrammarDef) : Except Error Grammar :=
  if (splitWords d.name).isEmpty then .error (.malformed unnamed .noName)
  else
    let built : Except GrammarFault Grammar := do
      let (_, build) ← d.compileModes.run {}
      let keywords ← match d.keywords with
        | some k => d.keywordTable k
        | none => .ok { ignoreCase := d.caseInsensitive }
      let modes ← GrammarDef.finishModes build.slots
      return ⟨d.name, d.aliases, d.caseInsensitive, modes, keywords⟩
    built.mapError (.malformed d.name)

end Grammar
end Tinct
