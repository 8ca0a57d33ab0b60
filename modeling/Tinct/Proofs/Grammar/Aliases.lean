import Tinct.Proofs.Scan.Classification
import Tinct.Proofs.Scan.Renaming

/-!
# Scope aliases

The aliases of a definition give its scopes other names and do nothing else:

* `GrammarDef.aliased`: the scope that goes for another one;
* `Grammar.rename`: a grammar with other scopes;
* `Renamed`: two ways to compile of which one gives what the other one gives, with other scopes;
* `Grammar.compile_withoutAliases`: a definition compiles as it does without its aliases, but for
  the scopes;
* `scopeAliases_rename`: so do its scans.
-/

namespace Tinct

namespace GrammarDef

/-- The scope that goes for another one: the one that the aliases list for it, or itself. -/
def aliased (d : GrammarDef) (s : Scope) : Scope := ⟨(d.scopeAliases.get? s.name).getD s.name⟩

/-- The same definition without aliases of scopes. -/
def withoutAliases (d : GrammarDef) : GrammarDef := { d with scopeAliases := [] }

theorem map_scope (d : GrammarDef) (name : Option String) :
    name.map d.scope = (name.map d.withoutAliases.scope).map d.aliased := by
  cases name <;> rfl

theorem aliased_scope (d : GrammarDef) (name : String) :
    d.aliased (d.withoutAliases.scope name) = d.scope name := rfl

end GrammarDef

section compile
variable {d : GrammarDef}

/-! ## Keyword tables -/

theorem KeywordTable.rename_addEntries {ρ : Scope → Scope} (category : Scope) (t : KeywordTable)
    (entries : List String) :
    (t.rename ρ).addEntries (ρ category) entries =
      ((t.addEntries category entries).1.rename ρ, (t.addEntries category entries).2) := by
  induction entries generalizing t with
  | nil => rfl
  | cons entry entries ih =>
    rw [addEntries, addEntries]
    cases readEntry entry with
    | error e => rfl
    | ok spelled =>
      obtain ⟨word, weight⟩ := spelled
      have hput := Entries.put_map (Keyword.rename ρ) t.entries (t.fold word) ⟨category, weight⟩
      rw [← ih]
      exact congrArg (addEntries (ρ category) · entries)
        (congrArg (KeywordTable.mk t.ignoreCase · t.pattern) hput)

namespace GrammarDef

theorem rename_addWords (t : KeywordTable) (category words : String) :
    d.addWords (t.rename d.aliased) category words =
      (d.withoutAliases.addWords t category words).map (·.rename d.aliased) := by
  have hadd := KeywordTable.rename_addEntries (ρ := d.aliased) (d.withoutAliases.scope category) t
    (splitWords words)
  rw [aliased_scope] at hadd
  unfold addWords KeywordTable.add
  rw [hadd]
  rcases t.addEntries (d.withoutAliases.scope category) (splitWords words) with ⟨t', _ | e⟩ <;> rfl

theorem rename_keywordTable (k : KeywordsDef) :
    d.keywordTable k = (d.withoutAliases.keywordTable k).map (·.rename d.aliased) := by
  cases k with
  | words list => exact rename_addWords { ignoreCase := d.caseInsensitive } "keyword" list
  | table pattern categories =>
    show (pattern.mapM (fun source => ofPattern (d.patternScope.identifier source)) >>= fun p =>
        categories.foldlM _ (KeywordTable.rename d.aliased { ignoreCase := _, pattern := p })) =
      (pattern.mapM (fun source => ofPattern (d.patternScope.identifier source)) >>= fun p =>
        categories.foldlM _ _).map _
    cases pattern.mapM (fun source => ofPattern (d.patternScope.identifier source)) with
    | error e => rfl
    | ok p =>
      exact foldlM_map_eq (fun t c => rename_addWords t c.1 c.2) categories
        { ignoreCase := d.caseInsensitive, pattern := p }

theorem rename_ownKeywords (m : ModeDef) :
    d.ownKeywords m =
      (d.withoutAliases.ownKeywords m).map (Option.map (KeywordTable.rename d.aliased)) := by
  have hwords (words : String) :
      d.addWords { ignoreCase := d.caseInsensitive } "keyword" words =
        (d.withoutAliases.addWords { ignoreCase := d.caseInsensitive } "keyword" words).map
          (·.rename d.aliased) :=
    rename_addWords { ignoreCase := d.caseInsensitive } "keyword" words
  unfold ownKeywords
  cases m.keywords with
  | some k =>
    dsimp only
    rw [rename_keywordTable]
    cases d.withoutAliases.keywordTable k <;> rfl
  | none =>
    cases m.beginKeywords with
    | none => rfl
    | some words =>
      dsimp only
      rw [hwords]
      show _ = Except.map _
        (d.withoutAliases.addWords { ignoreCase := d.caseInsensitive } _ _ >>= _)
      cases d.withoutAliases.addWords { ignoreCase := d.caseInsensitive } "keyword" words <;> rfl

end GrammarDef

end compile

/-! ## Compiling with other scopes -/

def Build.rename (ρ : Scope → Scope) (b : Build) : Build :=
  { b with slots := b.slots.map (Option.map (Mode.rename ρ)) }

theorem Build.rename_named {ρ : Scope → Scope} (b : Build) : (b.rename ρ).named = b.named := rfl

theorem Build.rename_slots_size {ρ : Scope → Scope} (b : Build) :
    (b.rename ρ).slots.size = b.slots.size := Array.size_map

theorem Build.rename_slots_push {ρ : Scope → Scope} (b : Build) :
    (b.rename ρ).slots.push none = (b.slots.push none).map (Option.map (Mode.rename ρ)) := by
  rw [Array.map_push]
  rfl

/-- On a build with other scopes, `x` does what `x'` does on the build itself, and gives what `φ`
makes of what `x'` gives. -/
def Renamed {α β : Type} (ρ : Scope → Scope) (φ : β → α) (x : Compiling α) (x' : Compiling β) :
    Prop :=
  ∀ b : Build, x.run (b.rename ρ) = (x'.run b).map fun p => (φ p.1, p.2.rename ρ)

namespace Renamed
variable {α β γ δ : Type} {ρ : Scope → Scope} {φ : β → α}

theorem pure {a : α} {c : β} (h : a = φ c) : Renamed ρ φ (pure a) (pure c) := by
  rw [h]
  exact fun _ => rfl

theorem throw (e : GrammarFault) : Renamed ρ φ (throw e) (throw e) := fun _ => rfl

theorem bind {ψ : δ → γ} {x : Compiling α} {x' : Compiling β} {f : α → Compiling γ}
    {f' : β → Compiling δ} (hx : Renamed ρ φ x x') (hf : ∀ a, Renamed ρ ψ (f (φ a)) (f' a)) :
    Renamed ρ ψ (x >>= f) (x' >>= f') := by
  intro b
  rw [StateT.run_bind, StateT.run_bind, hx b]
  cases x'.run b with
  | error e => rfl
  | ok p => exact hf p.1 p.2

theorem lift {r : Except GrammarFault α} {r' : Except GrammarFault β} (h : r = r'.map φ) :
    Renamed ρ φ (liftM r) (liftM r') := by
  subst h
  intro b
  cases r' <;> rfl

theorem lift_id (r : Except GrammarFault α) : Renamed ρ id (liftM r) (liftM r) :=
  lift (by rw [Except.map_id]; rfl)

theorem mapM_lift (f : β → Except GrammarFault α) (p : Option β) :
    Renamed ρ id (p.mapM fun x => (f x : Compiling α)) (p.mapM fun x => (f x : Compiling α)) := by
  cases p with
  | none => exact pure rfl
  | some x =>
    show Renamed ρ id (liftM (f x) >>= fun a => Pure.pure (some a))
      (liftM (f x) >>= fun a => Pure.pure (some a))
    exact bind (lift_id (f x)) fun a => pure rfl

theorem reserve : Renamed ρ id Build.reserve Build.reserve := by
  intro b
  show Except.ok ((b.rename ρ).slots.size, Build.mk ((b.rename ρ).slots.push none) b.named) = _
  rw [b.rename_slots_push, b.rename_slots_size]
  rfl

theorem fill {m m' : Mode} (h : m = m'.rename ρ) :
    Renamed ρ id (Build.fill m) (Build.fill m') := by
  subst h
  intro b
  have hslots : (b.rename ρ).slots.setIfInBounds m'.id (some (m'.rename ρ)) =
      (b.slots.setIfInBounds m'.id (some m')).map (Option.map (Mode.rename ρ)) := by
    rw [Build.rename, Array.map_setIfInBounds]
    rfl
  exact congrArg (fun slots => Except.ok ((), Build.mk slots b.named)) hslots

theorem forM {x : β → Compiling Unit} {x' : β → Compiling Unit}
    (h : ∀ a, Renamed ρ id (x a) (x' a)) (as : List β) :
    Renamed ρ id (as.forM x) (as.forM x') := by
  induction as with
  | nil => exact pure rfl
  | cons a as ih => exact bind (h a) fun _ => ih

end Renamed

namespace GrammarDef
variable {d : GrammarDef}

section
variable {resolve resolve' : String → Compiling Nat}

mutual

theorem compileMode_renamed (h : ∀ name, Renamed d.aliased id (resolve name) (resolve' name))
    (place : Nat) (name : Option String) : ∀ m : ModeDef,
    Renamed d.aliased id (d.compileMode resolve place name m)
      (d.withoutAliases.compileMode resolve' place name m)
  | ⟨_, _, _, _, _, _, _, _, contains, _, _, _, _, _, _, _, _, _⟩ => by
    unfold compileMode
    refine Renamed.bind (Renamed.lift_id (d.variants _ _)) fun variants => ?_
    refine Renamed.bind (Renamed.lift (rename_ownKeywords _)) fun keywords => ?_
    refine Renamed.bind (compileEntries_renamed h (some place) contains) fun contains => ?_
    refine Renamed.bind (Renamed.mapM_lift _ _) fun illegal => ?_
    dsimp only
    simp only [d.map_scope]
    exact Renamed.fill rfl

theorem compileEntries_renamed (h : ∀ name, Renamed d.aliased id (resolve name) (resolve' name))
    (parent : Option Nat) : ∀ es : List (ModeEntry ModeDef),
    Renamed d.aliased id (d.compileEntries resolve parent es)
      (d.withoutAliases.compileEntries resolve' parent es)
  | [] => by
    unfold compileEntries
    exact Renamed.pure rfl
  | e :: es => by
    unfold compileEntries
    refine Renamed.bind (compileEntry_renamed h parent e) fun id => ?_
    exact Renamed.bind (compileEntries_renamed h parent es) fun ids => Renamed.pure rfl

theorem compileEntry_renamed (h : ∀ name, Renamed d.aliased id (resolve name) (resolve' name))
    (parent : Option Nat) : ∀ e : ModeEntry ModeDef,
    Renamed d.aliased id (d.compileEntry resolve parent e)
      (d.withoutAliases.compileEntry resolve' parent e)
  | .ref name => by
    unfold compileEntry
    split
    · split
      · exact Renamed.pure rfl
      · exact Renamed.throw _
    · exact h name
  | .inline m => by
    unfold compileEntry
    refine Renamed.bind Renamed.reserve fun id => ?_
    exact Renamed.bind (compileMode_renamed h id none m) fun _ => Renamed.pure rfl

end

end

theorem placeOf_renamed (n : Nat) (name : String) :
    Renamed d.aliased id (d.placeOf n name) (d.withoutAliases.placeOf n name) := by
  induction n generalizing name with
  | zero =>
    intro b
    rw [placeOf_zero_run, placeOf_zero_run, b.rename_named]
    cases b.named.get? name <;> rfl
  | succ n ih =>
    intro b
    have hmodes : d.withoutAliases.modes = d.modes := rfl
    rw [placeOf_succ, placeOf_succ, placeStep_run, placeStep_run, b.rename_named, hmodes]
    cases b.named.get? name with
    | some place => rfl
    | none =>
      cases d.modes.get? name with
      | none => rfl
      | some m =>
        have hmode : Renamed d.aliased id
            (do compileMode d (d.placeOf n) b.slots.size (some name) m
                return b.slots.size)
            (do compileMode d.withoutAliases (d.withoutAliases.placeOf n) b.slots.size (some name) m
                return b.slots.size) :=
          Renamed.bind (compileMode_renamed ih b.slots.size (some name) m) fun _ =>
            Renamed.pure rfl
        dsimp only
        rw [b.rename_slots_push, b.rename_slots_size]
        exact hmode ⟨b.slots.push none, b.named.put name b.slots.size⟩

theorem compileModes_renamed (d : GrammarDef) :
    Renamed d.aliased id d.compileModes d.withoutAliases.compileModes := by
  unfold compileModes
  refine Renamed.bind Renamed.reserve fun root => ?_
  refine Renamed.bind (Renamed.mapM_lift _ _) fun illegal => ?_
  refine Renamed.bind (compileEntries_renamed (placeOf_renamed _) none d.contains) fun ids => ?_
  refine Renamed.bind (Renamed.fill rfl) fun _ => ?_
  refine Renamed.forM (fun e => ?_) d.modes
  exact Renamed.bind (placeOf_renamed _ e.1) fun _ => Renamed.pure rfl

theorem finishModes_rename (ρ : Scope → Scope) (slots : Array (Option Mode)) :
    finishModes (slots.map (Option.map (Mode.rename ρ))) =
      (finishModes slots).map (Array.map (Mode.rename ρ)) := by
  have harray (r : Except GrammarFault (List Mode)) :
      (r.map (List.map (Mode.rename ρ)) >>= fun modes => pure modes.toArray) =
        (r >>= fun modes => pure modes.toArray).map (Array.map (Mode.rename ρ)) := by
    cases r with
    | error e => rfl
    | ok modes => exact congrArg Except.ok (List.map_toArray ..).symm
  unfold finishModes
  rw [Array.toList_map, List.zipIdx_map]
  refine Eq.trans (congrArg (· >>= fun modes => pure modes.toArray)
    (@mapM_map_eq _ _ _ _ _ _ _ (Prod.map (Option.map (Mode.rename ρ)) id) (Mode.rename ρ)
      (fun p => ?_) slots.toList.zipIdx)) (harray _)
  obtain ⟨_ | m, i⟩ := p <;> rfl

end GrammarDef

def Grammar.rename (ρ : Scope → Scope) (g : Grammar) : Grammar :=
  { g with modes := g.modes.map (·.rename ρ), keywords := g.keywords.rename ρ }

/-- A definition compiles as it does without its aliases, but for the scopes. -/
theorem Grammar.compile_withoutAliases (d : GrammarDef) :
    compile d = (compile d.withoutAliases).map (·.rename d.aliased) := by
  have hmodes : d.compileModes.run {} =
      (d.withoutAliases.compileModes.run {}).map fun p => (p.1, p.2.rename d.aliased) := by
    have hrun := d.compileModes_renamed {}
    rwa [Build.rename, Array.map_empty] at hrun
  unfold compile
  by_cases hname : (splitWords d.name).isEmpty = true
  · rw [if_pos hname, if_pos (show (splitWords d.withoutAliases.name).isEmpty = true from hname)]
    rfl
  rw [if_neg hname, if_neg (show ¬ (splitWords d.withoutAliases.name).isEmpty = true from hname)]
  dsimp only
  rw [hmodes, ← map_mapError]
  refine congrArg (Except.mapError (Error.malformed d.name)) ?_
  cases d.withoutAliases.compileModes.run {} with
  | error e => rfl
  | ok p =>
    have hrest (keywords : KeywordTable) :
        (do let modes ← GrammarDef.finishModes (p.2.rename d.aliased).slots
            return ⟨d.name, d.aliases, d.caseInsensitive, modes, keywords.rename d.aliased⟩ :
          Except GrammarFault Grammar) =
        (do let modes ← GrammarDef.finishModes p.2.slots
            return ⟨d.name, d.aliases, d.caseInsensitive, modes, keywords⟩ :
          Except GrammarFault Grammar).map (·.rename d.aliased) := by
      rw [Build.rename, GrammarDef.finishModes_rename]
      cases GrammarDef.finishModes p.2.slots <;> rfl
    have hkeywords : d.withoutAliases.keywords = d.keywords := rfl
    dsimp only [Except.map]
    rw [hkeywords]
    cases d.keywords with
    | none => exact hrest { ignoreCase := d.caseInsensitive }
    | some k =>
      dsimp only
      rw [GrammarDef.rename_keywordTable]
      cases d.withoutAliases.keywordTable k with
      | error e => rfl
      | ok keywords => exact hrest keywords

theorem Grammar.rename_mode {ρ : Scope → Scope} (g : Grammar) (id : Nat) :
    (g.rename ρ).mode id = (g.mode id).rename ρ := by
  rw [mode, rename, Array.getD_eq_getD_getElem?, Array.getElem?_map, mode,
    Array.getD_eq_getD_getElem?]
  cases g.modes[id]? <;> rfl

theorem Grammar.renames_rename {ρ : Scope → Scope} (g : Grammar) :
    g.Renames ρ (fun _ => True) (g.rename ρ) :=
  ⟨rfl, trivial, fun id _ => g.rename_mode id, fun _ _ _ _ => trivial, rfl⟩

/-- Aliases rename scopes and do nothing else. A definition fails to compile as it does without its
aliases; and if it compiles, each scan gives what it gives without the aliases, with the alias of
each scope in its place. -/
theorem scopeAliases_rename (d : GrammarDef) :
    (∀ e, Grammar.compile d = .error e ↔ Grammar.compile d.withoutAliases = .error e) ∧
    ∀ g g', Grammar.compile d = .ok g → Grammar.compile d.withoutAliases = .ok g' →
      ∀ policy source,
        g.tokenize policy source = (g'.tokenize policy source).map (·.rename d.aliased) := by
  have hcompile := Grammar.compile_withoutAliases d
  refine ⟨fun e => ?_, fun g g' hg hg' policy source => ?_⟩
  · rw [hcompile]
    cases Grammar.compile d.withoutAliases with
    | error e' => exact ⟨fun h => by cases h; rfl, fun h => by cases h; rfl⟩
    | ok g' => exact ⟨nofun, nofun⟩
  · rw [hg, hg'] at hcompile
    obtain rfl := Except.ok.inj hcompile
    exact g'.renames_rename.tokenize (Grammar.compile_numbered hg') (Grammar.compile_numbered hg)
      policy source

/-- Remarks under other names. What words are called is what remarks were called. -/
def renamedRemarksDef : GrammarDef :=
  { remarksDef with scopeAliases := [("word", "remark"), ("remark", "note"), ("open", "note")] }

/-- An alias is not looked up again, and scopes that get one name are not joined. -/
theorem scopeAliases_rename_remarks : ∃ g, Grammar.compile renamedRemarksDef = .ok g ∧
    g.tokenize .abort "let <be x>" = .ok
      { keywordAndRemark with
        events := [.token ⟨⟨0, 3⟩, some ⟨"remark"⟩, .keyword⟩, .token ⟨⟨3, 4⟩, none, .text⟩,
          .enter 1 (some ⟨"note"⟩) 4, .token ⟨⟨4, 5⟩, some ⟨"note"⟩, .delimiter⟩,
          .token ⟨⟨5, 7⟩, some ⟨"remark"⟩, .keyword⟩, .token ⟨⟨7, 9⟩, some ⟨"note"⟩, .text⟩,
          .exit 1 (some ⟨"note"⟩) ⟨4, 9⟩ .matched,
          .token ⟨⟨9, 10⟩, some ⟨"close"⟩, .delimiter⟩] } := by
  obtain ⟨herror, hrename⟩ := scopeAliases_rename renamedRemarksDef
  have hremarks : Grammar.compile renamedRemarksDef.withoutAliases = .ok remarks :=
    compile_eq_remarks
  cases hg : Grammar.compile renamedRemarksDef with
  | error e =>
    rw [(herror e).mp hg] at hremarks
    cases hremarks
  | ok g =>
    refine ⟨g, rfl, ?_⟩
    rw [hrename g remarks hg hremarks, tokenize_remarks]
    decide

end Tinct
