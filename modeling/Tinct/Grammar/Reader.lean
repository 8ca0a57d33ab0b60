import Tinct.Document
import Tinct.Grammar.Definition
import Tinct.Grammar.Keywords

/-!
# Reading grammar definitions

`GrammarDef.ofDocument?` reads a definition out of a document. A record is a table of its fields or,
where the document allows it, the list of their values in order. Unknown fields are refused, and so
is a field that is written twice; in tables of names the last value of a name counts. A pattern, a
list of keywords and an entry of a list of modes may have several shapes, which are tried in order.
-/

namespace Tinct

namespace Document

def text? : Document → Option String
  | .scalar s => s.text?
  | .tagged (.scalar s) => s.text?
  | _ => none

def bool? : Document → Option Bool
  | .scalar s => s.bool?
  | .tagged (.scalar s) => s.bool?
  | _ => none

/-- A number that fits 32 bits. -/
def weight? : Document → Option Nat
  | .scalar s => s.nat?.filter (· ≤ maxWeight)
  | .tagged (.scalar s) => s.nat?.filter (· ≤ maxWeight)
  | _ => none

/-- A value that may be missing: null stands for none. -/
def optional? (read? : Document → Option α) (d : Document) : Option (Option α) :=
  match d with
  | .scalar s => do if ← s.null? then return none else return some (← read? d)
  | _ => (read? d).map some

def list? (read? : Document → Option α) (d : Document) : Option (List α) :=
  match d.untagged with
  | .list items _ => items.mapM read?
  | .scalar s => if s.isBlank then some [] else none
  | _ => none

/-- The fields of a table, keys and values read one by one. -/
def fields? {α β : Type} (key? : Document → Option α) (value? : Document → Option β)
    (fields : List (Document × Document)) : Option (List (α × β)) :=
  fields.mapM fun f => do return (← key? f.1, ← value? f.2)

/-- A table of names; the last value of a name counts. -/
def entries? (read? : Document → Option α) (d : Document) : Option (Entries α) :=
  match d.untagged with
  | .table fields => (fields? text? read? fields).map Entries.ofPairs
  | .scalar s => if s.isBlank then some [] else none
  | _ => none

/-- The fields of a record by name. -/
abbrev Record := List (String × Document)

/-- The name of a field among `names`: the key itself, or the name at the place that a number
gives. -/
def fieldName? (names : List String) : Document → Option String
  | .scalar { text? := some key, .. } => some key
  | .scalar { text? := none, nat? := some i, .. } => names[i]?
  | .tagged (.scalar { text? := some key, .. }) => some key
  | _ => none

/-- Adds the fields of a table to a record, none twice. -/
def collect? (names : List String) (rename : String → String) (r : Record) :
    List (Document × Document) → Option Record
  | [] => some r
  | (k, v) :: fs => do
    let name := rename (← fieldName? names k)
    if names.contains name && (r.lookup name).isNone then
      collect? names rename ((name, v) :: r) fs
    else none

/-- The fields of a record. As a list it has to reach as far as its last required field, and no
further than its fields go. -/
def record? (names : List String) (required : Nat) (d : Document)
    (rename : String → String := id) : Option Record :=
  match d.untagged with
  | .table fields => collect? names rename [] fields
  | .list items positional =>
    let fits := positional && required ≤ items.length && items.length ≤ names.length
    if fits then some (names.zip items) else none
  | .scalar s => if s.isBlank then some [] else none
  | _ => none

/-- A field of a record, or a default where it is not written. -/
def Record.get? (r : Record) (name : String) (read? : Document → Option α) (default : α) :
    Option α :=
  match r.lookup name with
  | some d => read? d
  | none => some default

end Document

open Document (Record)

namespace Pattern

/-- The one value of the field `name` of a table; other fields do not count. -/
def variantField? (name : String) (fields : List (Document × Document)) : Option Document := do
  let named ← Document.fields? (Document.fieldName? [name]) some fields
  match named.filter (·.1 == name) with
  | [(_, v)] => some v
  | _ => none

/-- A pattern whose types are settled, nested at most `fuel` deep. -/
def ofSettled? : Nat → Document → Option Pattern
  | _, .scalar s => s.text?.map .source
  | fuel + 1, .table fields =>
    let operands? (name : String) : Option (List Pattern) := do
      (← variantField? name fields).list? (ofSettled? fuel)
    ((operands? "concat").map .concat).or (((operands? "either").map .either).or
      (((variantField? "caseless" fields).bind (ofSettled? fuel)).map .caseless))
  | _, _ => none

def ofDocument? (d : Document) : Option Pattern := do
  let d ← d.settle?
  ofSettled? d.depth d

end Pattern

namespace KeywordsDef

/-- The table of a keyword definition: its pattern, and its categories in order. -/
def tableOf? (fields : List (Document × Document)) : Option KeywordsDef := do
  let named ← Document.fields? Document.text? some fields
  let (patterns, categories) := named.partition (·.1 == "$pattern")
  let categories ← categories.mapM fun c => do return (c.1, ← c.2.text?)
  match patterns with
  | [] => return .table none (.ofPairs categories)
  | [(_, v)] => return .table (← v.optional? Document.text?) (.ofPairs categories)
  | _ => none

def ofDocument? (d : Document) : Option KeywordsDef := do
  match ← d.settle? with
  | .scalar s => s.text?.map .words
  | .table fields => tableOf? fields
  | _ => none

end KeywordsDef

namespace VariantDef

def ofDocument? (d : Document) : Option VariantDef := do
  let r ← d.record? ["begin", "end", "match"] 3
  let pattern? (name : String) := r.get? name (Document.optional? Pattern.ofDocument?) none
  return ⟨← pattern? "begin", ← pattern? "end", ← pattern? "match"⟩

end VariantDef

namespace ModeDef

/-- The fields of a mode in order. -/
def fieldNames : List String :=
  ["scope", "begin", "end", "match", "begin_keywords", "keywords", "relevance", "illegal",
    "contains", "variants", "begin_scope", "end_scope", "exclude_begin", "exclude_end",
    "return_end", "ends_with_parent", "ends_parent", "prefer_continuation"]

/-- An older name of a field. -/
def renameField (name : String) : String := if name = "className" then "scope" else name

/-- A mode, `readItem?` reading the entries of its list of modes. -/
def ofFields? (readItem? : Document → Option (ModeEntry ModeDef)) (d : Document) :
    Option ModeDef := do
  let r ← d.record? fieldNames 12 renameField
  let text? (name : String) := r.get? name (Document.optional? Document.text?) none
  let pattern? (name : String) := r.get? name (Document.optional? Pattern.ofDocument?) none
  let flag? (name : String) := r.get? name Document.bool? false
  return {
    scope := ← text? "scope"
    begin := ← pattern? "begin"
    finish := ← pattern? "end"
    matched := ← pattern? "match"
    beginKeywords := ← text? "begin_keywords"
    keywords := ← r.get? "keywords" (Document.optional? KeywordsDef.ofDocument?) none
    relevance := ← r.get? "relevance" (Document.optional? Document.weight?) none
    illegal := ← pattern? "illegal"
    contains := ← r.get? "contains" (Document.list? readItem?) []
    variants := ← r.get? "variants" (Document.list? VariantDef.ofDocument?) []
    beginScope := ← text? "begin_scope"
    endScope := ← text? "end_scope"
    excludeBegin := ← flag? "exclude_begin"
    excludeEnd := ← flag? "exclude_end"
    returnEnd := ← flag? "return_end"
    endsWithParent := ← flag? "ends_with_parent"
    endsParent := ← flag? "ends_parent"
    preferContinuation := ← flag? "prefer_continuation" }

/-- The name of a mode in a list of modes. -/
def refOf? (d : Document) : Option (ModeEntry ModeDef) := do
  let r ← d.record? ["ref"] 1
  return .ref (← (← r.lookup "ref").text?)

/-- An entry of a list of modes: a name, or else a mode, in which lists of modes nest at most
`fuel` deep. -/
def entryOf? : Nat → Document → Option (ModeEntry ModeDef)
  | 0, d => do refOf? (← d.settle?)
  | fuel + 1, d => do
    let d ← d.settle?
    (refOf? d).or ((ofFields? (entryOf? fuel) d).map .inline)

def ofDocument? (d : Document) : Option ModeDef := ofFields? (entryOf? d.depth) d

end ModeDef

namespace GrammarDef

/-- The fields of a grammar in order. -/
def fieldNames : List String :=
  ["name", "aliases", "case_insensitive", "keywords", "illegal", "patterns", "modes", "contains",
    "scope_aliases"]

def ofDocument? (d : Document) : Option GrammarDef := do
  let r ← d.record? fieldNames 1
  return {
    name := ← (← r.lookup "name").text?
    aliases := ← r.get? "aliases" (Document.list? Document.text?) []
    caseInsensitive := ← r.get? "case_insensitive" Document.bool? false
    keywords := ← r.get? "keywords" (Document.optional? KeywordsDef.ofDocument?) none
    illegal := ← r.get? "illegal" (Document.optional? Pattern.ofDocument?) none
    patterns := ← r.get? "patterns" (Document.entries? Pattern.ofDocument?) []
    modes := ← r.get? "modes" (Document.entries? ModeDef.ofDocument?) []
    contains := ← r.get? "contains" (Document.list? (ModeDef.entryOf? (d.depth + 1))) []
    scopeAliases := ← r.get? "scope_aliases" (Document.entries? Document.text?) [] }

end GrammarDef
end Tinct
