import Mathlib.Data.List.Chain
import Mathlib.Data.List.Count
import Mathlib.Logic.Relation
import Tinct.Pattern.Assembly
import Tinct.Proofs.Except

/-!
# References between named patterns

A pattern is assembled by following its references from named pattern to named pattern, along a
trail of the names on the way:

* `Pattern.Mentions`, `Refers`, `Pattern.Reaches`: which names a pattern refers to, by itself and by
  way of others;
* `wellFounded_descends`: following references ends, as each name on a trail is one key less to
  follow;
* `resolveName_congr`, `assemble_eq`: so the bound on the length of trails decides nothing;
* `not_transGen_of_resolveFreely_eq_ok`: what is assembled does not refer to itself;
* `exists_of_resolveFreely_eq_error`: what is reported of a reference holds of the trail to it;
* `assemble_follows_references`: what assembling a pattern says of its references.
-/

namespace Tinct

open Relation (ReflTransGen TransGen)

/-- The pattern refers to a name. -/
inductive Pattern.Mentions : Pattern → String → Prop
  | source {text : String} {ls : List Lexeme} {l : Lexeme} (hls : lex text = .ok ls) (hl : l ∈ ls)
    (hkind : l.kind = .reference) : Mentions (.source text) l.name
  | concat {operands : List Pattern} {p : Pattern} {name : String} (hp : p ∈ operands) :
    p.Mentions name → Mentions (.concat operands) name
  | either {operands : List Pattern} {p : Pattern} {name : String} (hp : p ∈ operands) :
    p.Mentions name → Mentions (.either operands) name
  | caseless {p : Pattern} {name : String} : p.Mentions name → Mentions (.caseless p) name

/-- The pattern that `a` stands for refers to `b`. -/
def Refers (named : Entries Pattern) (a b : String) : Prop :=
  ∃ p, named.get? a = some p ∧ p.Mentions b

/-- The pattern refers to a name by way of any number of named patterns. -/
def Pattern.Reaches (p : Pattern) (named : Entries Pattern) (name : String) : Prop :=
  ∃ first, p.Mentions first ∧ ReflTransGen (Refers named) first name

/-- The names of a trail refer to each other in turn, and the pattern to the first of them. -/
def Pattern.Trail (p : Pattern) (named : Entries Pattern) (trail : List String) : Prop :=
  (∀ first ∈ trail.head?, p.Mentions first) ∧ trail.IsChain (Refers named)

/-- While the name of the second is resolved on its trail, that of the first is on its own. -/
def Descends (named : Entries Pattern) : List String × String → List String × String → Prop
  | (trail', name'), (trail, name) =>
    name ∉ trail ∧ trail' = trail ++ [name] ∧ Refers named name name'

section
variable {named : Entries Pattern} {trail : List String} {name : String} {p : Pattern}

/-! ## Following references ends -/

/-- How many keys are not on a trail. -/
def unvisited (named : Entries Pattern) (trail : List String) : Nat :=
  named.countP fun e => !trail.contains e.1

theorem unvisited_append_lt (hname : name ∉ trail) (hp : named.get? name = some p) :
    unvisited named (trail ++ [name]) < unvisited named trail := by
  obtain ⟨front, back, rfl, -⟩ := List.lookup_eq_some_iff.mp hp
  have hle (es : Entries Pattern) : es.countP (fun e => !(trail ++ [name]).contains e.1) ≤
      es.countP fun e => !trail.contains e.1 := by
    refine List.countP_mono_left fun e _ he => ?_
    simp only [List.contains_append, Bool.not_or, Bool.and_eq_true] at he
    exact he.1
  have hfront := hle front
  have hback := hle back
  rw [unvisited, unvisited, List.countP_append, List.countP_append,
    List.countP_cons_of_neg (by simp), List.countP_cons_of_pos (by simpa using hname)]
  omega

/-- Following references ends: each name on a trail is one key less to follow. -/
theorem wellFounded_descends (named : Entries Pattern) : WellFounded (Descends named) := by
  refine Subrelation.wf ?_ (measure fun c : List String × String => unvisited named c.1).wf
  rintro ⟨trail', name'⟩ ⟨trail, name⟩ ⟨hname, rfl, p, hp, -⟩
  exact unvisited_append_lt hname hp

/-! ### The bound on the length of trails -/

theorem resolveName_of_mem (h : name ∈ trail) (depth : Nat) :
    resolveName named depth trail name = .error (.cyclicReference trail name) := by
  rw [resolveName.eq_def]
  exact if_pos (List.contains_iff_mem.mpr h)

theorem resolveName_of_none (h : name ∉ trail) (hp : named.get? name = none) (depth : Nat) :
    resolveName named depth trail name = .error (.unresolvedReference name) := by
  rw [resolveName.eq_def]
  dsimp only
  rw [if_neg (mt List.contains_iff_mem.mp h), hp]

theorem resolveName_succ (h : name ∉ trail) (hp : named.get? name = some p) (depth : Nat) :
    resolveName named (depth + 1) trail name =
      assembleWith (resolveName named depth (trail ++ [name])) false p := by
  rw [resolveName.eq_def]
  dsimp only
  rw [if_neg (mt List.contains_iff_mem.mp h), hp]

/-- A bound that leaves room for each key decides nothing. -/
theorem resolveName_congr {depth depth' : Nat} (h : unvisited named trail ≤ depth)
    (h' : unvisited named trail ≤ depth') :
    resolveName named depth trail name = resolveName named depth' trail name := by
  induction depth generalizing depth' trail name with
  | zero =>
    by_cases hname : name ∈ trail
    · rw [resolveName_of_mem hname, resolveName_of_mem hname]
    cases hp : named.get? name with
    | none => rw [resolveName_of_none hname hp, resolveName_of_none hname hp]
    | some p =>
      have hlt := unvisited_append_lt hname hp
      omega
  | succ depth ih =>
    by_cases hname : name ∈ trail
    · rw [resolveName_of_mem hname, resolveName_of_mem hname]
    cases hp : named.get? name with
    | none => rw [resolveName_of_none hname hp, resolveName_of_none hname hp]
    | some p =>
      have hlt := unvisited_append_lt hname hp
      obtain ⟨depth', rfl⟩ : ∃ n, depth' = n + 1 := ⟨depth' - 1, by omega⟩
      rw [resolveName_succ hname hp, resolveName_succ hname hp]
      exact congrArg (assembleWith · false p) (funext fun m => ih (by omega) (by omega))

/-- What a name stands for, without a bound. -/
def resolveFreely (named : Entries Pattern) (trail : List String) (name : String) :
    Except PatternError String :=
  resolveName named (unvisited named trail) trail name

theorem resolveFreely_eq (named : Entries Pattern) (trail : List String) (name : String) :
    resolveFreely named trail name =
      if trail.contains name then .error (.cyclicReference trail name)
      else
        match named.get? name with
        | none => .error (.unresolvedReference name)
        | some p => assembleWith (resolveFreely named (trail ++ [name])) false p := by
  by_cases hname : name ∈ trail
  · rw [resolveFreely, resolveName_of_mem hname, if_pos (List.contains_iff_mem.mpr hname)]
  rw [if_neg (mt List.contains_iff_mem.mp hname)]
  cases hp : named.get? name with
  | none => exact resolveName_of_none hname hp _
  | some p =>
    have hlt := unvisited_append_lt hname hp
    obtain ⟨depth, hdepth⟩ : ∃ n, unvisited named trail = n + 1 :=
      ⟨unvisited named trail - 1, by omega⟩
    rw [resolveFreely, hdepth, resolveName_succ hname hp]
    exact congrArg (assembleWith · false p) (funext fun m => resolveName_congr (by omega) le_rfl)

theorem assemble_eq (named : Entries Pattern) (p : Pattern) :
    assemble named p = assembleWith (resolveFreely named []) true p :=
  congrArg (assembleWith · true p)
    (funext fun _ => resolveName_congr List.countP_le_length le_rfl)

/-! ## What assembling resolves -/

section
variable {resolve : String → Except PatternError String}

theorem splice_cons (l : Lexeme) (ls : List Lexeme) : splice resolve (l :: ls) =
    (if l.kind = .reference then (resolve l.name).map grouped else .ok (.ofList l.text)) >>=
      fun text => splice resolve ls >>= fun rest => .ok (text ++ rest) := by
  rw [splice]
  split <;> rfl

theorem exists_of_splice_eq_ok {ls : List Lexeme} {s : String} (h : splice resolve ls = .ok s)
    {l : Lexeme} (hl : l ∈ ls) (hkind : l.kind = .reference) : ∃ t, resolve l.name = .ok t := by
  induction ls generalizing s with
  | nil => cases hl
  | cons k ls ih =>
    rw [splice_cons] at h
    obtain ⟨text, htext, h⟩ := bind_eq_ok.mp h
    obtain ⟨rest, hrest, -⟩ := bind_eq_ok.mp h
    obtain rfl | hl := List.mem_cons.mp hl
    · rw [if_pos hkind] at htext
      obtain ⟨t, ht, -⟩ := map_eq_ok.mp htext
      exact ⟨t, ht⟩
    · exact ih hrest hl

theorem exists_of_assembleOperands_eq_ok {needsGroup : String → Except PatternError Bool}
    {operands : List Pattern} {ss : List String}
    (h : assembleOperands resolve needsGroup operands = .ok ss) (hp : p ∈ operands) :
    ∃ s, assembleWith resolve false p = .ok s := by
  induction operands generalizing ss with
  | nil => cases hp
  | cons q operands ih =>
    rw [assembleOperands] at h
    obtain ⟨s, hs, h⟩ := bind_eq_ok.mp h
    obtain ⟨part, -, h⟩ := bind_eq_ok.mp h
    obtain ⟨rest, hrest, -⟩ := bind_eq_ok.mp h
    obtain rfl | hp := List.mem_cons.mp hp
    · exact ⟨s, hs⟩
    · exact ih hrest hp

/-- Where a pattern is assembled, each name that it refers to is resolved. -/
theorem exists_of_assembleWith_eq_ok {outermost : Bool} {s : String} (hname : p.Mentions name)
    (h : assembleWith resolve outermost p = .ok s) : ∃ t, resolve name = .ok t := by
  induction hname generalizing outermost s with
  | source hls hl hkind =>
    rw [assembleWith] at h
    obtain ⟨ls, hls', h⟩ := bind_eq_ok.mp h
    obtain rfl := Except.ok.inj (hls.symm.trans hls')
    obtain ⟨spliced, hspliced, -⟩ := bind_eq_ok.mp h
    exact exists_of_splice_eq_ok hspliced hl hkind
  | concat hp _ ih =>
    rw [assembleWith] at h
    split at h
    · cases h
    · obtain ⟨ss, hss, -⟩ := bind_eq_ok.mp h
      obtain ⟨s, hs⟩ := exists_of_assembleOperands_eq_ok hss hp
      exact ih hs
  | either hp _ ih =>
    rw [assembleWith] at h
    split at h
    · cases h
    · obtain ⟨ss, hss, -⟩ := bind_eq_ok.mp h
      obtain ⟨s, hs⟩ := exists_of_assembleOperands_eq_ok hss hp
      exact ih hs
  | caseless _ ih =>
    rw [assembleWith] at h
    obtain ⟨t, ht, -⟩ := bind_eq_ok.mp h
    exact ih ht

end

/-! ## Trails -/

namespace Pattern.Trail

theorem append {next : String} (h : p.Trail named (trail ++ [name]))
    (hnext : Refers named name next) : p.Trail named (trail ++ [name] ++ [next]) := by
  refine ⟨?_, h.2.append (.singleton next) ?_⟩
  · rw [List.head?_append_of_ne_nil _ (by simp)]
    exact h.1
  · simpa using hnext

theorem transGen_of_isChain {a b : String} {l : List String}
    (h : (a :: (l ++ [b])).IsChain (Refers named)) : TransGen (Refers named) a b := by
  induction l generalizing a with
  | nil => exact .single (List.isChain_pair.mp h)
  | cons c l ih =>
    obtain ⟨hfirst, hrest⟩ := List.isChain_cons_cons.mp h
    exact .head hfirst (ih hrest)

theorem reaches (h : p.Trail named (trail ++ [name])) : p.Reaches named name := by
  cases trail with
  | nil => exact ⟨name, h.1 name rfl, .refl⟩
  | cons first trail => exact ⟨first, h.1 first rfl, (transGen_of_isChain h.2).to_reflTransGen⟩

/-- A name that comes again on a trail refers to itself by way of others. -/
theorem transGen (h : p.Trail named (trail ++ [name])) (hname : name ∈ trail) :
    TransGen (Refers named) name name := by
  obtain ⟨front, back, rfl⟩ := List.append_of_mem hname
  rw [List.append_assoc] at h
  exact transGen_of_isChain h.2.right_of_append

end Pattern.Trail

/-! ## What is assembled -/

theorem resolveFreely_eq_ok {s : String} (h : resolveFreely named trail name = .ok s) :
    name ∉ trail ∧ ∃ q, named.get? name = some q ∧
      assembleWith (resolveFreely named (trail ++ [name])) false q = .ok s := by
  rw [resolveFreely_eq] at h
  split at h
  · cases h
  · rename_i hname
    refine ⟨mt List.contains_iff_mem.mpr hname, ?_⟩
    split at h
    · cases h
    · rename_i q hq
      exact ⟨q, hq, h⟩

/-- What a name that has been resolved refers to, by way of any others, has been resolved on a trail
that goes on from its own. -/
theorem exists_of_resolveFreely_eq_ok {s other : String}
    (h : resolveFreely named trail name = .ok s)
    (hother : ReflTransGen (Refers named) name other) :
    ∃ behind t, resolveFreely named (trail ++ behind) other = .ok t := by
  induction hother using ReflTransGen.head_induction_on generalizing trail s with
  | refl => exact ⟨[], s, by rwa [List.append_nil]⟩
  | head hfirst _ ih =>
    obtain ⟨-, q, hq, h⟩ := resolveFreely_eq_ok h
    obtain ⟨q', hq', hmentions⟩ := hfirst
    obtain rfl := Option.some.inj (hq.symm.trans hq')
    obtain ⟨t, ht⟩ := exists_of_assembleWith_eq_ok hmentions h
    obtain ⟨behind, hbehind⟩ := ih ht
    rw [List.append_assoc] at hbehind
    exact ⟨_, hbehind⟩

/-- What a name that has been resolved stands for does not refer to it by way of any others. -/
theorem not_transGen_of_resolveFreely_eq_ok {s : String}
    (h : resolveFreely named trail name = .ok s) : ¬TransGen (Refers named) name name := by
  intro hcycle
  obtain ⟨next, ⟨q, hq, hmentions⟩, hback⟩ := TransGen.head'_iff.mp hcycle
  obtain ⟨-, q', hq', h⟩ := resolveFreely_eq_ok h
  obtain rfl := Option.some.inj (hq.symm.trans hq')
  obtain ⟨t, ht⟩ := exists_of_assembleWith_eq_ok hmentions h
  obtain ⟨behind, t', ht'⟩ := exists_of_resolveFreely_eq_ok ht hback
  exact (resolveFreely_eq_ok ht').1 (by simp)

/-! ## What is reported -/

/-- The faults of references. -/
def PatternError.ofReference : PatternError → Bool
  | .cyclicReference .. | .unresolvedReference _ => true
  | _ => false

theorem ofReference_of_lex {source : String} {e : PatternError} (h : lex source = .error e) :
    e.ofReference = false := by
  rw [lex] at h
  split at h
  · cases h
  · cases h
    rfl

/-- A fault of a step that only reads a source. -/
theorem ofReference_of_map {α : Type} {source : String} {f : List Lexeme → α} {e : PatternError}
    (h : (lex source >>= fun ls => .ok (f ls)) = .error e) : e.ofReference = false := by
  obtain h | ⟨ls, -, h⟩ := bind_eq_error.mp h
  · exact ofReference_of_lex h
  · cases h

section
variable {resolve : String → Except PatternError String} {e : PatternError}

theorem exists_of_splice_eq_error {ls : List Lexeme} (h : splice resolve ls = .error e) :
    ∃ l ∈ ls, l.kind = .reference ∧ resolve l.name = .error e := by
  induction ls with
  | nil => cases h
  | cons l ls ih =>
    rw [splice_cons] at h
    obtain h | ⟨text, -, h⟩ := bind_eq_error.mp h
    · split at h
      · rename_i hkind
        refine ⟨l, List.mem_cons_self, hkind, ?_⟩
        cases hl : resolve l.name with
        | error e' =>
          rw [hl] at h
          cases h
          rfl
        | ok t =>
          rw [hl] at h
          cases h
      · cases h
    · obtain h | ⟨rest, -, h⟩ := bind_eq_error.mp h
      · obtain ⟨l', hl', hfault⟩ := ih h
        exact ⟨l', List.mem_cons_of_mem _ hl', hfault⟩
      · cases h

mutual

/-- A fault of references is that of a name that the pattern refers to. -/
theorem exists_of_assembleWith_eq_error (he : e.ofReference = true) (outermost : Bool) :
    ∀ p : Pattern, assembleWith resolve outermost p = .error e →
      ∃ name, p.Mentions name ∧ resolve name = .error e
  | .source text => fun h => by
    rw [assembleWith] at h
    obtain h | ⟨ls, hls, h⟩ := bind_eq_error.mp h
    · rw [ofReference_of_lex h] at he
      cases he
    obtain h | ⟨spliced, -, h⟩ := bind_eq_error.mp h
    · obtain ⟨l, hl, hkind, hfault⟩ := exists_of_splice_eq_error h
      exact ⟨l.name, .source hls hl hkind, hfault⟩
    · split at h
      · cases h
      · rw [ofReference_of_map h] at he
        cases he
  | .concat operands => fun h => by
    rw [assembleWith] at h
    split at h
    · cases h
      cases he
    · obtain h | ⟨ss, -, h⟩ := bind_eq_error.mp h
      · obtain ⟨q, hq, name, hname, hfault⟩ := exists_of_assembleOperands_eq_error he
          (fun s e' h => ofReference_of_map h) operands h
        exact ⟨name, .concat hq hname, hfault⟩
      · cases h
  | .either operands => fun h => by
    rw [assembleWith] at h
    split at h
    · cases h
      cases he
    · obtain h | ⟨ss, -, h⟩ := bind_eq_error.mp h
      · obtain ⟨q, hq, name, hname, hfault⟩ := exists_of_assembleOperands_eq_error he
          (fun s e' h => ofReference_of_map h) operands h
        exact ⟨name, .either hq hname, hfault⟩
      · cases h
  | .caseless p => fun h => by
    rw [assembleWith] at h
    obtain h | ⟨s, -, h⟩ := bind_eq_error.mp h
    · obtain ⟨name, hname, hfault⟩ := exists_of_assembleWith_eq_error he outermost p h
      exact ⟨name, .caseless hname, hfault⟩
    · cases h

theorem exists_of_assembleOperands_eq_error (he : e.ofReference = true)
    {needsGroup : String → Except PatternError Bool}
    (hneeds : ∀ s e, needsGroup s = .error e → e.ofReference = false) :
    ∀ operands : List Pattern, assembleOperands resolve needsGroup operands = .error e →
      ∃ q ∈ operands, ∃ name, q.Mentions name ∧ resolve name = .error e
  | [] => fun h => by cases h
  | p :: ps => fun h => by
    rw [assembleOperands] at h
    obtain h | ⟨s, -, h⟩ := bind_eq_error.mp h
    · exact ⟨p, List.mem_cons_self, exists_of_assembleWith_eq_error he false p h⟩
    obtain h | ⟨part, -, h⟩ := bind_eq_error.mp h
    · obtain h | ⟨needs, -, h⟩ := bind_eq_error.mp h
      · rw [hneeds s e h] at he
        cases he
      · cases h
    obtain h | ⟨rest, -, h⟩ := bind_eq_error.mp h
    · obtain ⟨q, hq, hfault⟩ := exists_of_assembleOperands_eq_error he hneeds ps h
      exact ⟨q, List.mem_cons_of_mem _ hq, hfault⟩
    · cases h

end

end

/-- What is reported of a reference holds of the trail to it. -/
theorem exists_of_resolveFreely_eq_error {e : PatternError} (he : e.ofReference = true)
    (htrail : p.Trail named (trail ++ [name])) (h : resolveFreely named trail name = .error e) :
    (∃ back again, e = .cyclicReference back again ∧ p.Trail named (back ++ [again]) ∧
      again ∈ back) ∨
    ∃ missing, e = .unresolvedReference missing ∧ p.Reaches named missing ∧
      named.get? missing = none := by
  induction hc : (trail, name) using (wellFounded_descends named).induction
    generalizing trail name with
  | _ c ih =>
    subst hc
    rw [resolveFreely_eq] at h
    split at h
    · rename_i hname
      cases h
      exact .inl ⟨trail, name, rfl, htrail, List.contains_iff_mem.mp hname⟩
    · rename_i hname
      split at h
      · rename_i hnone
        cases h
        exact .inr ⟨name, rfl, htrail.reaches, hnone⟩
      · rename_i q hq
        obtain ⟨next, hmentions, h⟩ := exists_of_assembleWith_eq_error he false q h
        have hrefers : Refers named name next := ⟨q, hq, hmentions⟩
        exact ih (trail ++ [name], next) ⟨mt List.contains_iff_mem.mpr hname, rfl, hrefers⟩
          (htrail.append hrefers) h rfl

theorem intercalate_concat {sep : String} {ss : List String} (h : ss ≠ []) (s : String) :
    sep.intercalate (ss ++ [s]) = sep.intercalate ss ++ sep ++ s := by
  induction ss with
  | nil => exact absurd rfl h
  | cons t ss ih =>
    cases ss with
    | nil => rw [List.singleton_append, String.intercalate_cons_cons, String.intercalate_singleton,
        String.intercalate_singleton]
    | cons u ss =>
      rw [List.cons_append, List.cons_append, String.intercalate_cons_cons, ← List.cons_append,
        ih (List.cons_ne_nil _ _), String.intercalate_cons_cons]
      simp only [String.append_assoc]

/-- A cycle is reported as the trail that comes back to one of its names. -/
theorem message_cyclicReference {trail : List String} (h : trail ≠ []) (name : String) :
    (PatternError.cyclicReference trail name).message =
      "cyclic pattern reference: " ++ " -> ".intercalate (trail ++ [name]) := by
  rw [intercalate_concat h, ← String.append_assoc, ← String.append_assoc]
  rfl

end

/-- Assembling a pattern follows its references to their ends. -/
theorem assemble_follows_references (named : Entries Pattern) (p : Pattern) :
    (WellFounded (Descends named) ∧
      ∃ resolve : List String → String → Except PatternError String,
        (∀ trail name, resolve trail name =
          if trail.contains name then .error (.cyclicReference trail name)
          else
            match named.get? name with
            | none => .error (.unresolvedReference name)
            | some q => assembleWith (resolve (trail ++ [name])) false q) ∧
        assemble named p = assembleWith (resolve []) true p) ∧
    (∀ s, assemble named p = .ok s → ∀ name, p.Reaches named name →
      (∃ q, named.get? name = some q) ∧ ¬TransGen (Refers named) name name) ∧
    (∀ trail name, assemble named p = .error (.cyclicReference trail name) →
      p.Trail named (trail ++ [name]) ∧ name ∈ trail ∧
        (PatternError.cyclicReference trail name).message =
          "cyclic pattern reference: " ++ " -> ".intercalate (trail ++ [name])) ∧
    (∀ name, assemble named p = .error (.unresolvedReference name) →
      p.Reaches named name ∧ named.get? name = none) ∧
    ((∀ name, p.Reaches named name → ¬TransGen (Refers named) name name) →
      ∀ trail name, assemble named p ≠ .error (.cyclicReference trail name)) := by
  have hfault {e : PatternError} (he : e.ofReference = true) (h : assemble named p = .error e) :
      (∃ back again, e = .cyclicReference back again ∧ p.Trail named (back ++ [again]) ∧
        again ∈ back) ∨
      ∃ missing, e = .unresolvedReference missing ∧ p.Reaches named missing ∧
        named.get? missing = none := by
    rw [assemble_eq] at h
    obtain ⟨name, hmentions, h⟩ := exists_of_assembleWith_eq_error he true p h
    refine exists_of_resolveFreely_eq_error he ⟨?_, .singleton name⟩ h
    rintro _ ⟨rfl⟩
    exact hmentions
  have hcyclic (trail : List String) (name : String)
      (h : assemble named p = .error (.cyclicReference trail name)) :
      p.Trail named (trail ++ [name]) ∧ name ∈ trail := by
    obtain ⟨back, again, heq, htrail, hmem⟩ | ⟨missing, heq, -⟩ := hfault rfl h
    · cases heq
      exact ⟨htrail, hmem⟩
    · cases heq
  refine ⟨⟨wellFounded_descends named, resolveFreely named, resolveFreely_eq named,
    assemble_eq named p⟩, ?_, ?_, ?_, ?_⟩
  · rintro s h name ⟨first, hmentions, hreach⟩
    rw [assemble_eq] at h
    obtain ⟨t, ht⟩ := exists_of_assembleWith_eq_ok hmentions h
    obtain ⟨behind, t', ht'⟩ := exists_of_resolveFreely_eq_ok ht hreach
    obtain ⟨-, q, hq, -⟩ := resolveFreely_eq_ok ht'
    exact ⟨⟨q, hq⟩, not_transGen_of_resolveFreely_eq_ok ht'⟩
  · intro trail name h
    obtain ⟨htrail, hname⟩ := hcyclic trail name h
    exact ⟨htrail, hname, message_cyclicReference (List.ne_nil_of_mem hname) name⟩
  · intro name h
    obtain ⟨back, again, heq, -⟩ | ⟨missing, heq, hreaches, hnone⟩ := hfault rfl h
    · cases heq
    · cases heq
      exact ⟨hreaches, hnone⟩
  · intro hacyclic trail name h
    obtain ⟨htrail, hname⟩ := hcyclic trail name h
    exact hacyclic name htrail.reaches (htrail.transGen hname)

/-- A name may be used on several branches. -/
example : (assemble [("a", .source "x"), ("b", .source "\x7b\x7ba\x7d\x7d")]
    (.concat [.source "\x7b\x7ba\x7d\x7d", .source "\x7b\x7bb\x7d\x7d"])).toOption =
      some "(?:x)(?:(?:x))" := by
  decide +kernel

end Tinct
