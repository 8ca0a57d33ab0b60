import Tinct.Grammar.Definition
import Tinct.Json.Value

/-!
# Writing grammar definitions

`GrammarDef.toJson` writes a definition as a JSON value with all fields, those without a value as
null. Reading the value gives the definition back.
-/

namespace Tinct

/-- An optional value, null for none. -/
def optionJson (write : α → Json) : Option α → Json
  | none => .null
  | some a => write a

namespace Pattern

mutual

def toJson : Pattern → Json
  | .source text => .str text
  | .concat operands => .obj [("concat", .arr (operandsJson operands))]
  | .either operands => .obj [("either", .arr (operandsJson operands))]
  | .caseless operand => .obj [("caseless", operand.toJson)]

def operandsJson : List Pattern → List Json
  | [] => []
  | p :: ps => p.toJson :: operandsJson ps

end

end Pattern

def KeywordsDef.toJson : KeywordsDef → Json
  | .words list => .str list
  | .table pattern categories =>
    .obj (("$pattern", optionJson .str pattern) :: categories.map fun (k, v) => (k, .str v))

def VariantDef.toJson (v : VariantDef) : Json :=
  .obj [("begin", optionJson Pattern.toJson v.begin), ("end", optionJson Pattern.toJson v.finish),
    ("match", optionJson Pattern.toJson v.matched)]

namespace ModeDef

mutual

def toJson : ModeDef → Json
  | m@⟨_, _, _, _, _, _, _, _, contains, _, _, _, _, _, _, _, _, _⟩ =>
    .obj [("scope", optionJson .str m.scope),
      ("begin", optionJson Pattern.toJson m.begin),
      ("end", optionJson Pattern.toJson m.finish),
      ("match", optionJson Pattern.toJson m.matched),
      ("begin_keywords", optionJson .str m.beginKeywords),
      ("keywords", optionJson KeywordsDef.toJson m.keywords),
      ("relevance", optionJson (fun n => .int n) m.relevance),
      ("illegal", optionJson Pattern.toJson m.illegal),
      ("contains", .arr (entriesJson contains)),
      ("variants", .arr (m.variants.map VariantDef.toJson)),
      ("begin_scope", optionJson .str m.beginScope),
      ("end_scope", optionJson .str m.endScope),
      ("exclude_begin", .bool m.excludeBegin),
      ("exclude_end", .bool m.excludeEnd),
      ("return_end", .bool m.returnEnd),
      ("ends_with_parent", .bool m.endsWithParent),
      ("ends_parent", .bool m.endsParent),
      ("prefer_continuation", .bool m.preferContinuation)]

def entriesJson : List (ModeEntry ModeDef) → List Json
  | [] => []
  | e :: es => entryJson e :: entriesJson es

def entryJson : ModeEntry ModeDef → Json
  | .ref name => .obj [("ref", .str name)]
  | .inline m => m.toJson

end

end ModeDef

def GrammarDef.toJson (d : GrammarDef) : Json :=
  .obj [("name", .str d.name),
    ("aliases", .arr (d.aliases.map .str)),
    ("case_insensitive", .bool d.caseInsensitive),
    ("keywords", optionJson KeywordsDef.toJson d.keywords),
    ("illegal", optionJson Pattern.toJson d.illegal),
    ("patterns", .obj (d.patterns.map fun (k, p) => (k, p.toJson))),
    ("modes", .obj (d.modes.map fun (k, m) => (k, m.toJson))),
    ("contains", .arr (ModeDef.entriesJson d.contains)),
    ("scope_aliases", .obj (d.scopeAliases.map fun (k, v) => (k, .str v)))]

end Tinct
