import Tinct.Bundled.Oxygene
import Tinct.Grammar.Loading
import Tinct.Proofs.Document
import Tinct.Proofs.Json.Writing

/-!
# Written definitions read back

A definition that is written as JSON and read again is the definition it was:

* `Pattern.ofDocument?_toJson`, `KeywordsDef.ofDocument?_toJson`, `ModeDef.entryOf?_toJson`: what
  may have several shapes is read in the shape it was written in;
* `GrammarDef.ofDocument?_toJson`: a definition is read back from its value;
* `GrammarDef.load_render`: and from its text.

What has to hold of a definition is `GrammarDef.isProper`: names are distinct where order counts, a
relevance fits 32 bits, and no keyword category bears the name under which a table keeps its
pattern.
-/

namespace Tinct

/-! ## Patterns -/

namespace Pattern

theorem operandsJson_eq (ps : List Pattern) : operandsJson ps = ps.map toJson := by
  induction ps with
  | nil => rfl
  | cons p ps ih => rw [operandsJson, ih, List.map_cons]

/-- The fields of a table with one field. -/
theorem variantField?_ofJson (name key : String) (v : Json) :
    variantField? name (Document.ofFields [(key, v)]) =
      if key = name then some (Document.ofJson v) else none := by
  have hfields : Document.fields? (Document.fieldName? [name]) some (Document.ofFields [(key, v)]) =
      some [(key, Document.ofJson v)] := rfl
  rw [variantField?, hfields]
  by_cases h : key = name
  · simp [h]
  · simp [h]

/-- The induction is on how deep patterns may nest, as in the reader. -/
theorem ofSettled?_toJson {p : Pattern} {fuel : Nat}
    (hdepth : (Document.ofJson p.toJson).depth ≤ fuel) :
    ofSettled? fuel (Document.ofJson p.toJson) = some p := by
  induction fuel generalizing p with
  | zero =>
    cases p with
    | source text => rfl
    | _ => exact absurd hdepth (Nat.not_succ_le_zero _)
  | succ fuel ih =>
    have hoperands {ps : List Pattern} {key : String}
        (h : (Document.ofJson (.obj [(key, .arr (operandsJson ps))])).depth ≤ fuel + 1) :
        (Document.ofJson (.arr (operandsJson ps))).list? (ofSettled? fuel) = some ps := by
      rw [operandsJson_eq] at h ⊢
      refine Document.list?_ofJson fun p hp => ih ?_
      have hmem : Document.ofJson p.toJson ∈ Document.ofItems (ps.map toJson) := by
        rw [Document.ofItems_eq]
        exact List.mem_map_of_mem (List.mem_map_of_mem hp)
      have hle := Document.depth_le_of_mem hmem
      simp only [Document.ofJson, Document.ofFields, Document.depth, Document.depthFields] at h
      omega
    cases p with
    | source text => rfl
    | concat ps =>
      have hps := hoperands hdepth
      simp only [toJson, Document.ofJson, ofSettled?, variantField?_ofJson] at hps ⊢
      simp [hps]
    | either ps =>
      have hps := hoperands hdepth
      simp only [toJson, Document.ofJson, ofSettled?, variantField?_ofJson] at hps ⊢
      simp [hps]
    | caseless p =>
      have hp := ih (p := p) (by
        simp only [toJson, Document.ofJson, Document.ofFields, Document.depth,
          Document.depthFields] at hdepth
        omega)
      simp only [toJson, Document.ofJson, ofSettled?, variantField?_ofJson]
      simp [hp]

/-- A pattern is read back. -/
theorem ofDocument?_toJson (p : Pattern) : ofDocument? (Document.ofJson p.toJson) = some p := by
  rw [ofDocument?, Document.settle?_ofJson]
  exact ofSettled?_toJson (Nat.le_refl _)

theorem toJson_ne_null (p : Pattern) : p.toJson ≠ .null := by
  cases p <;> exact Json.noConfusion

end Pattern

theorem Document.optional?_pattern (o : Option Pattern) :
    optional? Pattern.ofDocument? (ofJson (optionJson Pattern.toJson o)) = some o :=
  optional?_optionJson (fun p _ => p.toJson_ne_null) fun p _ => p.ofDocument?_toJson

namespace KeywordsDef

/-- No category has two lists, and none bears the name of the table's pattern. -/
def isProper : KeywordsDef → Bool
  | .words _ => true
  | .table _ categories =>
    let names := categories.map (·.1)
    names.Nodup && !names.contains "$pattern"

theorem tableOf?_ofFields {pattern : Option String} {categories : Entries String}
    (h : (table pattern categories).isProper = true) :
    tableOf? (Document.ofFields (("$pattern", optionJson .str pattern) ::
      categories.map fun (k, v) => (k, .str v))) = some (table pattern categories) := by
  obtain ⟨hnodup, hfree⟩ := (Bool.and_eq_true _ _).mp h
  have hnames : ∀ f ∈ categories.map fun c => (c.1, Document.ofJson (.str c.2)),
      (f.1 == "$pattern") = false := by
    intro f hf
    obtain ⟨c, hc, rfl⟩ := List.mem_map.mp hf
    refine beq_eq_false_iff_ne.mpr fun heq => ?_
    simp only [Bool.not_eq_true', List.contains_eq_mem, decide_eq_false_iff_not] at hfree
    exact hfree (List.mem_map.mpr ⟨c, hc, heq⟩)
  have htexts : (categories.map fun c => (c.1, Document.ofJson (.str c.2))).mapM
      (fun c => do return (c.1, ← c.2.text?)) = some categories := by
    clear * -
    induction categories with
    | nil => rfl
    | cons c cs ih => rw [List.map_cons, List.mapM_cons, ih]; rfl
  have hkept : ∀ f ∈ categories.map fun c => (c.1, Document.ofJson (.str c.2)),
      (not ∘ fun f => f.1 == "$pattern") f = true :=
    fun f hf => (Bool.not_eq_true' _).mpr (hnames f hf)
  have hsplit : (("$pattern", Document.ofJson (optionJson .str pattern)) ::
        categories.map fun c => (c.1, Document.ofJson (.str c.2))).partition (·.1 == "$pattern") =
      ([("$pattern", Document.ofJson (optionJson .str pattern))],
        categories.map fun c => (c.1, Document.ofJson (.str c.2))) := by
    rw [List.partition_eq_filter_filter, List.filter_cons_of_pos rfl,
      List.filter_cons_of_neg (by simp),
      List.filter_eq_nil_iff.mpr fun f hf => Bool.not_eq_true _ ▸ hnames f hf,
      List.filter_eq_self.mpr hkept]
  rw [tableOf?, Document.fields?_ofFields, List.map_cons, List.map_map]
  simp only [Option.bind_eq_bind, Option.bind_some, Function.comp_def, hsplit] at htexts ⊢
  rw [htexts]
  simp only [Option.bind_some, Document.optional?_text,
    Entries.ofPairs_eq (of_decide_eq_true hnodup)]
  rfl

theorem ofDocument?_toJson {k : KeywordsDef} (h : k.isProper = true) :
    ofDocument? (Document.ofJson k.toJson) = some k := by
  rw [ofDocument?, Document.settle?_ofJson]
  cases k with
  | words list => rfl
  | table pattern categories => exact tableOf?_ofFields h

theorem toJson_ne_null (k : KeywordsDef) : k.toJson ≠ .null := by
  cases k <;> exact Json.noConfusion

theorem optional?_toJson {o : Option KeywordsDef} (h : o.all isProper = true) :
    Document.optional? ofDocument? (Document.ofJson (optionJson toJson o)) = some o := by
  refine Document.optional?_optionJson (fun k _ => k.toJson_ne_null) ?_
  rintro k rfl
  exact ofDocument?_toJson h

end KeywordsDef

theorem VariantDef.ofDocument?_toJson (v : VariantDef) :
    ofDocument? (Document.ofJson v.toJson) = some v := by
  let fields := [("begin", optionJson Pattern.toJson v.begin),
    ("end", optionJson Pattern.toJson v.finish), ("match", optionJson Pattern.toJson v.matched)]
  have hnames : fields.map (·.1) = ["begin", "end", "match"] := rfl
  obtain ⟨r, hr, hfields⟩ := Document.record?_ofJson 3 id hnames (by decide) fun _ _ => rfl
  have hbegin := hfields "begin" _ (List.mem_of_getElem? (i := 0) rfl)
  have hend := hfields "end" _ (List.mem_of_getElem? (i := 1) rfl)
  have hmatch := hfields "match" _ (List.mem_of_getElem? (i := 2) rfl)
  rw [ofDocument?, toJson, hr]
  simp only [Option.bind_eq_bind, Option.bind_some, Document.get?_of_lookup hbegin,
    Document.get?_of_lookup hend, Document.get?_of_lookup hmatch, Document.optional?_pattern]
  rfl

namespace ModeDef

theorem entriesJson_eq (es : List (ModeEntry ModeDef)) : entriesJson es = es.map entryJson := by
  induction es with
  | nil => rfl
  | cons e es ih => rw [entriesJson, ih, List.map_cons]

mutual

/-- Whether the relevance of a mode and of those in its lists fits 32 bits, and their keywords are
proper. -/
def isProper : ModeDef → Bool
  | m@⟨_, _, _, _, _, _, _, _, contains, _, _, _, _, _, _, _, _, _⟩ =>
    m.keywords.all KeywordsDef.isProper && m.relevance.all (· ≤ maxWeight) && areProper contains

def areProper : List (ModeEntry ModeDef) → Bool
  | [] => true
  | e :: es => isProperEntry e && areProper es

def isProperEntry : ModeEntry ModeDef → Bool
  | .ref _ => true
  | .inline m => m.isProper

end

theorem optional?_weight {o : Option Nat} (h : o.all (· ≤ maxWeight) = true) :
    Document.optional? Document.weight?
      (Document.ofJson (optionJson (fun n : Nat => .int n) o)) = some o := by
  have hread (n : Nat) (hn : n ∈ o) : Document.weight? (Document.ofJson (.int n)) = some n := by
    cases hn
    have hle : n ≤ maxWeight := of_decide_eq_true h
    simp [Document.ofJson, Document.weight?, Scalar.ofAtom, hle]
  exact Document.optional?_optionJson (fun n (_ : n ∈ o) => Json.noConfusion) hread

/-- The fields of a mode as they are written. -/
def fields (m : ModeDef) : List (String × Json) :=
  [("scope", optionJson .str m.scope),
    ("begin", optionJson Pattern.toJson m.begin),
    ("end", optionJson Pattern.toJson m.finish),
    ("match", optionJson Pattern.toJson m.matched),
    ("begin_keywords", optionJson .str m.beginKeywords),
    ("keywords", optionJson KeywordsDef.toJson m.keywords),
    ("relevance", optionJson (fun n : Nat => .int n) m.relevance),
    ("illegal", optionJson Pattern.toJson m.illegal),
    ("contains", .arr (m.contains.map entryJson)),
    ("variants", .arr (m.variants.map VariantDef.toJson)),
    ("begin_scope", optionJson .str m.beginScope),
    ("end_scope", optionJson .str m.endScope),
    ("exclude_begin", .bool m.excludeBegin),
    ("exclude_end", .bool m.excludeEnd),
    ("return_end", .bool m.returnEnd),
    ("ends_with_parent", .bool m.endsWithParent),
    ("ends_parent", .bool m.endsParent),
    ("prefer_continuation", .bool m.preferContinuation)]

theorem toJson_eq (m : ModeDef) : m.toJson = .obj m.fields := by
  obtain ⟨_, _, _, _, _, _, relevance⟩ := m
  rw [toJson, entriesJson_eq]
  cases relevance <;> rfl

theorem areProper_eq (es : List (ModeEntry ModeDef)) : areProper es = es.all isProperEntry := by
  induction es with
  | nil => rfl
  | cons e es ih => rw [areProper, ih, List.all_cons]

theorem isProper_iff {m : ModeDef} : m.isProper = true ↔
    m.keywords.all KeywordsDef.isProper = true ∧ m.relevance.all (· ≤ maxWeight) = true ∧
      ∀ e ∈ m.contains, isProperEntry e = true := by
  cases m
  rw [isProper, areProper_eq, Bool.and_eq_true, Bool.and_eq_true, and_assoc, List.all_eq_true]

/-- A mode is read back where the entries of its list are. -/
theorem ofFields?_toJson {readItem? : Document → Option (ModeEntry ModeDef)} {m : ModeDef}
    (h : m.isProper = true)
    (hitems : ∀ e ∈ m.contains, readItem? (Document.ofJson (entryJson e)) = some e) :
    ofFields? readItem? (Document.ofJson m.toJson) = some m := by
  obtain ⟨hkeywords, hrelevance, -⟩ := isProper_iff.mp h
  have hnames : m.fields.map (·.1) = fieldNames := rfl
  obtain ⟨r, hr, hfields⟩ :=
    Document.record?_ofJson 12 renameField hnames (by decide) (by decide)
  have hat (i : Nat) {name : String} {v : Json} (hi : m.fields[i]? = some (name, v)) {α : Type}
      (read? : Document → Option α) (default : α) :
      r.get? name read? default = read? (Document.ofJson v) :=
    Document.get?_of_lookup (hfields name v (List.mem_of_getElem? hi)) read? default
  rw [ofFields?, toJson_eq, hr, Option.bind_eq_bind, Option.bind_some]
  simp only [hat 0 rfl, hat 1 rfl, hat 2 rfl, hat 3 rfl, hat 4 rfl, hat 5 rfl, hat 6 rfl, hat 7 rfl,
    hat 8 rfl, hat 9 rfl, hat 10 rfl, hat 11 rfl, hat 12 rfl, hat 13 rfl, hat 14 rfl, hat 15 rfl,
    hat 16 rfl, hat 17 rfl, Document.optional?_text, Document.optional?_pattern,
    KeywordsDef.optional?_toJson hkeywords, optional?_weight hrelevance,
    Document.list?_ofJson hitems,
    Document.list?_ofJson fun v (_ : v ∈ m.variants) => v.ofDocument?_toJson]
  cases m
  rfl

theorem refOf?_toJson (m : ModeDef) : refOf? (Document.ofJson m.toJson) = none := by
  rw [toJson_eq]
  rfl

/-- The list of modes of a mode lies below it. -/
theorem depth_entry_lt {m : ModeDef} {e : ModeEntry ModeDef} (h : e ∈ m.contains) :
    (Document.ofJson (entryJson e)).depth + 1 < (Document.ofJson m.toJson).depth := by
  have hlist : ("contains", Json.arr (m.contains.map entryJson)) ∈ m.fields :=
    List.mem_of_getElem? (i := 8) rfl
  rw [toJson_eq]
  exact Document.depth_lt_of_mem_list h hlist

/-- The induction is on how deep modes may nest, as in the reader. -/
theorem entryOf?_toJson {e : ModeEntry ModeDef} {fuel : Nat} (h : isProperEntry e = true)
    (hdepth : (Document.ofJson (entryJson e)).depth ≤ fuel) :
    entryOf? fuel (Document.ofJson (entryJson e)) = some e := by
  induction fuel generalizing e with
  | zero =>
    cases e with
    | ref name => exact absurd hdepth (Nat.not_succ_le_zero _)
    | inline m =>
      rw [entryJson, toJson_eq] at hdepth
      exact absurd hdepth (Nat.not_succ_le_zero _)
  | succ fuel ih =>
    rw [entryOf?, Document.settle?_ofJson]
    cases e with
    | ref name => rfl
    | inline m =>
      have hm : ofFields? (entryOf? fuel) (Document.ofJson m.toJson) = some m :=
        ofFields?_toJson h fun e he => ih ((isProper_iff.mp h).2.2 e he) (by
          have := depth_entry_lt he
          rw [entryJson] at hdepth
          omega)
      rw [entryJson, Option.bind_eq_bind, Option.bind_some, refOf?_toJson, hm]
      rfl

/-- A mode is read back. -/
theorem ofDocument?_toJson {m : ModeDef} (h : m.isProper = true) :
    ofDocument? (Document.ofJson m.toJson) = some m :=
  ofFields?_toJson h fun e he => entryOf?_toJson ((isProper_iff.mp h).2.2 e he)
    (Nat.le_of_lt (Nat.lt_of_succ_lt (depth_entry_lt he)))

end ModeDef

namespace GrammarDef

/-- What a definition has by its types: names are distinct where order counts, and relevances fit
32 bits. And no category of keywords bears the name of a table's pattern. -/
def isProper (d : GrammarDef) : Bool :=
  d.keywords.all KeywordsDef.isProper && (d.patterns.map (·.1)).Nodup &&
    (d.modes.map (·.1)).Nodup && d.modes.all (·.2.isProper) && ModeDef.areProper d.contains &&
    (d.scopeAliases.map (·.1)).Nodup

/-- The fields of a definition as they are written. -/
def fields (d : GrammarDef) : List (String × Json) :=
  [("name", .str d.name),
    ("aliases", .arr (d.aliases.map .str)),
    ("case_insensitive", .bool d.caseInsensitive),
    ("keywords", optionJson KeywordsDef.toJson d.keywords),
    ("illegal", optionJson Pattern.toJson d.illegal),
    ("patterns", .obj (d.patterns.map fun (k, p) => (k, p.toJson))),
    ("modes", .obj (d.modes.map fun (k, m) => (k, m.toJson))),
    ("contains", .arr (d.contains.map ModeDef.entryJson)),
    ("scope_aliases", .obj (d.scopeAliases.map fun (k, v) => (k, .str v)))]

theorem toJson_eq (d : GrammarDef) : d.toJson = .obj d.fields := by
  rw [toJson, ModeDef.entriesJson_eq]
  rfl

theorem depth_entry_le {d : GrammarDef} {e : ModeEntry ModeDef} (h : e ∈ d.contains) :
    (Document.ofJson (ModeDef.entryJson e)).depth ≤ (Document.ofJson d.toJson).depth := by
  have hlist : ("contains", Json.arr (d.contains.map ModeDef.entryJson)) ∈ d.fields :=
    List.mem_of_getElem? (i := 7) rfl
  rw [toJson_eq]
  exact Nat.le_of_lt (Nat.lt_of_succ_lt (Document.depth_lt_of_mem_list h hlist))

/-- A definition is read back from its value. -/
theorem ofDocument?_toJson {d : GrammarDef} (h : d.isProper = true) :
    ofDocument? (Document.ofJson d.toJson) = some d := by
  simp only [isProper, Bool.and_eq_true, decide_eq_true_eq, List.all_eq_true,
    ModeDef.areProper_eq] at h
  obtain ⟨⟨⟨⟨⟨hkeywords, hpatterns⟩, hmodes⟩, hmode⟩, hcontains⟩, hscopes⟩ := h
  have hnames : d.fields.map (·.1) = fieldNames := rfl
  obtain ⟨r, hr, hfields⟩ := Document.record?_ofJson 1 id hnames (by decide) fun _ _ => rfl
  have hat (i : Nat) {name : String} {v : Json} (hi : d.fields[i]? = some (name, v)) :
      r.lookup name = some (Document.ofJson v) := hfields name v (List.mem_of_getElem? hi)
  have hread (i : Nat) {name : String} {v : Json} (hi : d.fields[i]? = some (name, v)) {α : Type}
      (read? : Document → Option α) (default : α) :
      r.get? name read? default = read? (Document.ofJson v) :=
    Document.get?_of_lookup (hat i hi) read? default
  have hentries : ∀ e ∈ d.contains,
      ModeDef.entryOf? ((Document.ofJson d.toJson).depth + 1)
        (Document.ofJson (ModeDef.entryJson e)) = some e :=
    fun e he => ModeDef.entryOf?_toJson (hcontains e he) (Nat.le_succ_of_le (depth_entry_le he))
  rw [toJson_eq] at hentries ⊢
  rw [ofDocument?, hr]
  simp only [Option.bind_eq_bind, Option.bind_some, hat 0 rfl, hread 1 rfl, hread 2 rfl,
    hread 3 rfl, hread 4 rfl, hread 5 rfl, hread 6 rfl, hread 7 rfl, hread 8 rfl,
    Document.text?_str, Document.list?_ofJson fun s (_ : s ∈ d.aliases) => Document.text?_str s,
    KeywordsDef.optional?_toJson hkeywords, Document.optional?_pattern,
    Document.entries?_ofJson hpatterns fun e _ => e.2.ofDocument?_toJson,
    Document.entries?_ofJson hmodes fun e he => ModeDef.ofDocument?_toJson (hmode e he),
    Document.list?_ofJson hentries,
    Document.entries?_ofJson hscopes fun e _ => Document.text?_str e.2]
  rfl

end GrammarDef

/-! ## Written numbers -/

section whole
variable {α : Type} {write : α → Json}

theorem isWhole_optionJson {o : Option α} (h : ∀ a ∈ o, (write a).isWhole = true) :
    (optionJson write o).isWhole = true := by
  cases o with
  | none => rfl
  | some a => exact h a rfl

theorem isWhole_arr {as : List α} (h : ∀ a ∈ as, (write a).isWhole = true) :
    (Json.arr (as.map write)).isWhole = true := by
  rw [Json.isWhole]
  induction as with
  | nil => rfl
  | cons a as ih =>
    obtain ⟨ha, has⟩ := List.forall_mem_cons.mp h
    rw [List.map_cons, Json.areWhole, ha, ih has]
    rfl

theorem isWhole_obj {fs : List (String × Json)} (h : ∀ f ∈ fs, f.2.isWhole = true) :
    (Json.obj fs).isWhole = true := by
  rw [Json.isWhole]
  induction fs with
  | nil => rfl
  | cons f fs ih =>
    obtain ⟨hf, hfs⟩ := List.forall_mem_cons.mp h
    rw [Json.haveWhole, hf, ih hfs]
    rfl

theorem isWhole_entries {es : Entries α} (h : ∀ e ∈ es, (write e.2).isWhole = true) :
    (Json.obj (es.map fun (k, a) => (k, write a))).isWhole = true := by
  refine isWhole_obj fun f hf => ?_
  obtain ⟨e, he, rfl⟩ := List.mem_map.mp hf
  exact h e he

end whole

mutual

theorem Pattern.isWhole_toJson (p : Pattern) : p.toJson.isWhole = true := by
  match p with
  | .source _ => rfl
  | .concat ps | .either ps =>
    simp [toJson, Json.isWhole, Json.haveWhole, areWhole_operandsJson ps]
  | .caseless p => simp [toJson, Json.isWhole, Json.haveWhole, isWhole_toJson p]

theorem Pattern.areWhole_operandsJson (ps : List Pattern) :
    Json.areWhole (operandsJson ps) = true := by
  match ps with
  | [] => rfl
  | p :: ps =>
    rw [operandsJson, Json.areWhole, isWhole_toJson p, areWhole_operandsJson ps]
    rfl

end

theorem Pattern.isWhole_optionJson (o : Option Pattern) :
    (optionJson toJson o).isWhole = true := Tinct.isWhole_optionJson fun p _ => p.isWhole_toJson

theorem isWhole_text (o : Option String) : (optionJson .str o).isWhole = true :=
  isWhole_optionJson fun _ _ => rfl

theorem KeywordsDef.isWhole_toJson (k : KeywordsDef) : k.toJson.isWhole = true := by
  cases k with
  | words list => rfl
  | table pattern categories =>
    refine isWhole_obj (List.forall_mem_cons.mpr ⟨isWhole_text pattern, fun f hf => ?_⟩)
    obtain ⟨c, -, rfl⟩ := List.mem_map.mp hf
    rfl

theorem VariantDef.isWhole_toJson (v : VariantDef) : v.toJson.isWhole = true :=
  isWhole_obj (by simp [Pattern.isWhole_optionJson])

namespace ModeDef

theorem isWhole_weight {o : Option Nat} (h : o.all (· ≤ maxWeight) = true) :
    (optionJson (fun n : Nat => .int n) o).isWhole = true := by
  refine isWhole_optionJson ?_
  rintro n rfl
  have hle : n ≤ maxWeight := of_decide_eq_true h
  have hmax : maxWeight < Nat.pow 2 64 := by decide
  simp only [Json.isWhole, Bool.and_eq_true, decide_eq_true_eq]
  omega

theorem isWhole_of_contains {m : ModeDef} (h : m.isProper = true)
    (hcontains : (Json.arr (m.contains.map entryJson)).isWhole = true) :
    m.toJson.isWhole = true := by
  have hrelevance := isWhole_weight (isProper_iff.mp h).2.1
  have hkeywords : (optionJson KeywordsDef.toJson m.keywords).isWhole = true :=
    isWhole_optionJson fun k _ => k.isWhole_toJson
  have hvariants : (Json.arr (m.variants.map VariantDef.toJson)).isWhole = true :=
    isWhole_arr fun v _ => v.isWhole_toJson
  have hflag (b : Bool) : (Json.bool b).isWhole = true := rfl
  rw [toJson_eq]
  refine isWhole_obj ?_
  simp only [fields, List.forall_mem_cons, isWhole_text, Pattern.isWhole_optionJson, hkeywords,
    hrelevance, hcontains, hvariants, hflag, List.not_mem_nil, false_implies, implies_true,
    and_self]

mutual

theorem isWhole_toJson (m : ModeDef) (h : m.isProper = true) : m.toJson.isWhole = true := by
  match m with
  | ⟨_, _, _, _, _, _, _, _, contains, _, _, _, _, _, _, _, _, _⟩ =>
    refine isWhole_of_contains h ?_
    rw [← entriesJson_eq, Json.isWhole]
    exact areWhole_entriesJson contains (Bool.and_eq_true _ _ ▸ h).2

theorem areWhole_entriesJson (es : List (ModeEntry ModeDef)) (h : areProper es = true) :
    Json.areWhole (entriesJson es) = true := by
  match es with
  | [] => rfl
  | e :: es =>
    obtain ⟨he, hes⟩ := (Bool.and_eq_true _ _).mp h
    rw [entriesJson, Json.areWhole, isWhole_entryJson e he, areWhole_entriesJson es hes]
    rfl

theorem isWhole_entryJson (e : ModeEntry ModeDef) (h : isProperEntry e = true) :
    (entryJson e).isWhole = true := by
  match e with
  | .ref _ => rfl
  | .inline m => exact isWhole_toJson m h

end

end ModeDef

namespace GrammarDef

theorem isWhole_toJson {d : GrammarDef} (h : d.isProper = true) : d.toJson.isWhole = true := by
  simp only [isProper, Bool.and_eq_true, List.all_eq_true] at h
  obtain ⟨⟨⟨-, hmode⟩, hcontains⟩, -⟩ := h
  have haliases : (Json.arr (d.aliases.map .str)).isWhole = true := isWhole_arr fun _ _ => rfl
  have hkeywords : (optionJson KeywordsDef.toJson d.keywords).isWhole = true :=
    isWhole_optionJson fun k _ => k.isWhole_toJson
  have hpatterns := isWhole_entries fun (e : String × Pattern) (_ : e ∈ d.patterns) =>
    e.2.isWhole_toJson
  have hmodes := isWhole_entries fun e he => ModeDef.isWhole_toJson e.2 (hmode e he)
  have hentries : (Json.arr (d.contains.map ModeDef.entryJson)).isWhole = true := by
    rw [← ModeDef.entriesJson_eq, Json.isWhole]
    exact ModeDef.areWhole_entriesJson d.contains hcontains
  have hscopes : (Json.obj (d.scopeAliases.map fun (k, v) => (k, .str v))).isWhole = true :=
    isWhole_entries fun _ _ => rfl
  rw [toJson_eq]
  refine isWhole_obj ?_
  simp only [fields, List.forall_mem_cons]
  exact ⟨rfl, haliases, rfl, hkeywords, Pattern.isWhole_optionJson _, hpatterns, hmodes, hentries,
    hscopes, List.forall_mem_nil _⟩

/-- A definition is read back from its text, where the text does not nest too deep. -/
theorem load_render {d : GrammarDef} (h : d.isProper = true)
    (hdepth : d.toJson.depth ≤ Json.depthLimit) : load .json d.toJson.render = .ok d := by
  rw [load, GrammarFormat.parse?, Json.parse?_render (isWhole_toJson h) hdepth, Option.map_some,
    Option.bind_some, ofDocument?_toJson h]

/-- The bundled grammar of an Oxygene program, whose modes hold modes that hold modes. -/
theorem load_render_oxygene : Bundled.Oxygene.grammar.isProper = true ∧
    load .json Bundled.Oxygene.grammar.toJson.render = .ok Bundled.Oxygene.grammar :=
  have h : Bundled.Oxygene.grammar.isProper = true := by decide +kernel
  ⟨h, load_render h (by decide +kernel)⟩

end GrammarDef
end Tinct
