import Mathlib.Data.List.Chain
import Tinct.Regex.Expr

/-!
# Expressions in simple form

The functions that build expressions keep them in a form in which a sequence has no sequences and no
empty expressions among its elements, and no two literals next to each other (`Expr.Simple`):

* `Expr.concat_simple`, `Expr.choice_simple`, `Expr.repeated_simple`: what is built of simple
  expressions is simple;
* `Expr.concat_singleton`: a simple expression is the sequence of itself alone;
* `Expr.concat_append_concat`, `Expr.concat_append_congr`: elements in a row may be taken together
  or left apart.
-/

namespace Tinct.Regex.Expr

/-! ## Sequences -/

def isLiteral : Expr → Bool
  | .literal _ => true
  | _ => false

/-- Two elements that may stand next to each other, since they do not become one. -/
def Apart (a b : Expr) : Prop := ¬(a.isLiteral = true ∧ b.isLiteral = true)

/-- A sequence has elements that are neither empty nor sequences, and no two literals in a row. -/
def Simple : Expr → Prop
  | .seq a b => a.factors = [a] ∧ a.Simple ∧ b ≠ .empty ∧ b.Simple ∧
      ∀ c ∈ b.factors.head?, a.Apart c
  | .alt a b => a.Simple ∧ b.Simple
  | _ => True

theorem factors_cases (e : Expr) :
    e = .empty ∧ e.factors = [] ∨ (∃ a b, e = .seq a b ∧ e.factors = a :: b.factors) ∨
      e.factors = [e] := by
  cases e with
  | empty => exact .inl ⟨rfl, rfl⟩
  | seq a b => exact .inr (.inl ⟨a, b, rfl, rfl⟩)
  | _ => exact .inr (.inr rfl)

theorem factors_seqs {fs : List Expr} (h : ∀ f ∈ fs, f.factors = [f]) :
    (seqs fs).factors = fs := by
  induction fs with
  | nil => rfl
  | cons f fs ih =>
    obtain ⟨hf, hfs⟩ := List.forall_mem_cons.mp h
    cases fs with
    | nil => exact hf
    | cons f' fs => exact congrArg (f :: ·) (ih hfs)

theorem ne_empty_of_factors {e : Expr} (h : e.factors = [e]) : e ≠ .empty := by
  rintro rfl
  cases h

theorem seqs_ne_empty {f : Expr} {fs : List Expr} (h : f.factors = [f]) :
    seqs (f :: fs) ≠ .empty := by
  cases fs with
  | nil => exact ne_empty_of_factors h
  | cons f' fs => exact nofun

theorem factors_ne_nil {e : Expr} (h : e ≠ .empty) : e.factors ≠ [] := by
  obtain ⟨he, -⟩ | ⟨a, b, -, hab⟩ | he := e.factors_cases
  · exact absurd he h
  · rw [hab]
    exact List.cons_ne_nil _ _
  · rw [he]
    exact List.cons_ne_nil _ _

theorem seqs_cons {f : Expr} {fs : List Expr} (h : fs ≠ []) :
    seqs (f :: fs) = .seq f (seqs fs) := by
  cases fs with
  | nil => exact absurd rfl h
  | cons f' fs => rfl

namespace Simple

theorem factors {e : Expr} (h : e.Simple) : ∀ f ∈ e.factors, f.factors = [f] ∧ f.Simple := by
  induction e with
  | empty => exact nofun
  | seq a b _ ih =>
    obtain ⟨ha, hsimple, -, hb, -⟩ := h
    exact List.forall_mem_cons.mpr ⟨⟨ha, hsimple⟩, ih hb⟩
  | _ => exact List.forall_mem_singleton.mpr ⟨rfl, h⟩

theorem apart {e : Expr} (h : e.Simple) : e.factors.IsChain Apart := by
  induction e with
  | empty => exact .nil
  | seq a b _ ih =>
    obtain ⟨-, -, -, hb, hapart⟩ := h
    exact List.isChain_cons.mpr ⟨hapart, ih hb⟩
  | _ => exact .singleton _

theorem seqs_factors {e : Expr} (h : e.Simple) : seqs e.factors = e := by
  induction e with
  | seq a b _ ih =>
    obtain ⟨-, -, hne, hb, -⟩ := h
    exact (seqs_cons (factors_ne_nil hne)).trans (congrArg (Expr.seq a) (ih hb))
  | _ => rfl

end Simple

theorem seqs_simple {fs : List Expr} (h : ∀ f ∈ fs, f.factors = [f] ∧ f.Simple)
    (hapart : fs.IsChain Apart) : (seqs fs).Simple := by
  induction fs with
  | nil => exact trivial
  | cons f fs ih =>
    obtain ⟨⟨hf, hsimple⟩, hfs⟩ := List.forall_mem_cons.mp h
    cases fs with
    | nil => exact hsimple
    | cons f' fs =>
      obtain ⟨hhead, htail⟩ := List.isChain_cons.mp hapart
      have hfactors : (seqs (f' :: fs)).factors = f' :: fs :=
        factors_seqs fun e he => (hfs e he).1
      refine ⟨hf, hsimple, seqs_ne_empty (hfs f' (List.mem_cons_self ..)).1, ih hfs htail, ?_⟩
      rwa [hfactors]

/-! ### Literals that meet -/

theorem joinLiterals_cons_of_not {f : Expr} (hf : f.isLiteral = false) (fs : List Expr) :
    joinLiterals (f :: fs) = f :: joinLiterals fs := by
  cases f with
  | literal a => cases hf
  | _ => rfl

/-- A literal is joined with the literal that the elements behind it begin with, if they do. -/
theorem joinLiterals_literal (cs : List Char) (fs : List Expr) :
    (∃ ds es, joinLiterals fs = .literal ds :: es ∧
        joinLiterals (.literal cs :: fs) = .literal (cs ++ ds) :: es) ∨
      (∀ c ∈ (joinLiterals fs).head?, c.isLiteral = false) ∧
        joinLiterals (.literal cs :: fs) = .literal cs :: joinLiterals fs := by
  rw [joinLiterals]
  split
  · rename_i ds es hes
    exact .inl ⟨ds, es, hes, rfl⟩
  · rename_i hne
    refine .inr ⟨fun c hc => ?_, rfl⟩
    obtain ⟨es, hes⟩ := List.head?_eq_some_iff.mp hc
    cases c with
    | literal ds => exact absurd hes (hne ds es)
    | _ => rfl

theorem joinLiterals_literal_of_eq {cs ds : List Char} {fs es : List Expr}
    (h : joinLiterals fs = .literal ds :: es) :
    joinLiterals (.literal cs :: fs) = .literal (cs ++ ds) :: es := by
  obtain ⟨ds', es', hes, hjoin⟩ | ⟨hhead, -⟩ := joinLiterals_literal cs fs
  · rw [h] at hes
    cases hes
    exact hjoin
  · rw [h] at hhead
    cases hhead _ rfl

theorem joinLiterals_cons_of_apart {f : Expr} {fs : List Expr}
    (h : ∀ c ∈ (joinLiterals fs).head?, f.Apart c) :
    joinLiterals (f :: fs) = f :: joinLiterals fs := by
  cases f with
  | literal cs =>
    obtain ⟨ds, es, hes, -⟩ | ⟨-, hjoin⟩ := joinLiterals_literal cs fs
    · rw [hes] at h
      exact absurd ⟨rfl, rfl⟩ (h _ rfl)
    · exact hjoin
  | _ => rfl

/-- Where no two literals meet, nothing is joined. -/
theorem joinLiterals_eq_self {fs : List Expr} (h : fs.IsChain Apart) : joinLiterals fs = fs := by
  induction fs with
  | nil => rfl
  | cons f fs ih =>
    obtain ⟨hhead, htail⟩ := List.isChain_cons.mp h
    rw [joinLiterals_cons_of_apart (by rwa [ih htail]), ih htail]

theorem apart_of_not_isLiteral {f : Expr} (hf : f.isLiteral = false) (c : Expr) : f.Apart c := by
  rintro ⟨h, -⟩
  rw [hf] at h
  cases h

theorem joinLiterals_apart (fs : List Expr) : (joinLiterals fs).IsChain Apart := by
  induction fs with
  | nil => exact .nil
  | cons f fs ih =>
    cases hf : f.isLiteral with
    | false =>
      rw [joinLiterals_cons_of_not hf]
      exact List.isChain_cons.mpr ⟨fun c _ => apart_of_not_isLiteral hf c, ih⟩
    | true =>
      cases f with
      | literal cs =>
        obtain ⟨ds, es, hes, hjoin⟩ | ⟨hhead, hjoin⟩ := joinLiterals_literal cs fs
        · rw [hes] at ih
          obtain ⟨hhead, htail⟩ := List.isChain_cons.mp ih
          rw [hjoin]
          exact List.isChain_cons.mpr ⟨fun c hc h => hhead c hc ⟨rfl, h.2⟩, htail⟩
        · rw [hjoin]
          refine List.isChain_cons.mpr ⟨fun c hc h => ?_, ih⟩
          exact Bool.false_ne_true ((hhead c hc).symm.trans h.2)
      | _ => cases hf

/-- Joining makes nothing new but literals. -/
theorem mem_joinLiterals {f : Expr} {fs : List Expr} (h : f ∈ joinLiterals fs) :
    f ∈ fs ∨ f.isLiteral = true := by
  induction fs with
  | nil => cases h
  | cons e es ih =>
    have hlater (h : f ∈ joinLiterals es) : f ∈ e :: es ∨ f.isLiteral = true :=
      (ih h).imp_left (List.mem_cons_of_mem e)
    cases he : e.isLiteral with
    | false =>
      rw [joinLiterals_cons_of_not he] at h
      obtain rfl | h := List.mem_cons.mp h
      · exact .inl (List.mem_cons_self ..)
      · exact hlater h
    | true =>
      cases e with
      | literal cs =>
        obtain ⟨ds, es', hes, hjoin⟩ | ⟨-, hjoin⟩ := joinLiterals_literal cs es
        · rw [hjoin] at h
          obtain rfl | h := List.mem_cons.mp h
          · exact .inr rfl
          · exact hlater (hes ▸ List.mem_cons_of_mem _ h)
        · rw [hjoin] at h
          obtain rfl | h := List.mem_cons.mp h
          · exact .inl (List.mem_cons_self ..)
          · exact hlater h
      | _ => cases he

theorem factors_of_isLiteral {f : Expr} (h : f.isLiteral = true) : f.factors = [f] ∧ f.Simple := by
  cases f with
  | literal a => exact ⟨rfl, trivial⟩
  | _ => cases h

/-- How an element is joined depends on those behind it only by how these are joined. -/
theorem joinLiterals_cons_congr {as bs : List Expr} (h : joinLiterals as = joinLiterals bs)
    (f : Expr) : joinLiterals (f :: as) = joinLiterals (f :: bs) := by
  cases f with
  | literal cs =>
    obtain ⟨ds, es, hes, hjoin⟩ | ⟨hhead, hjoin⟩ := joinLiterals_literal cs as
    · rw [hjoin, joinLiterals_literal_of_eq (h.symm.trans hes)]
    · rw [h] at hhead hjoin
      rw [hjoin, joinLiterals_cons_of_apart fun c hc hap => ?_]
      exact Bool.false_ne_true ((hhead c hc).symm.trans hap.2)
  | _ => exact congrArg (_ :: ·) h

theorem joinLiterals_literal_literal (cs ds : List Char) (fs : List Expr) :
    joinLiterals (.literal cs :: .literal ds :: fs) = joinLiterals (.literal (cs ++ ds) :: fs) := by
  obtain ⟨ds', es, hes, hjoin⟩ | ⟨hhead, hjoin⟩ := joinLiterals_literal ds fs
  · rw [joinLiterals_literal_of_eq hjoin, joinLiterals_literal_of_eq hes, List.append_assoc]
  · rw [joinLiterals_literal_of_eq hjoin, joinLiterals_cons_of_apart fun c hc hap => ?_]
    exact Bool.false_ne_true ((hhead c hc).symm.trans hap.2)

/-- What is joined before the rest is read is joined with the rest as well. -/
theorem joinLiterals_append_joinLiterals (as bs : List Expr) :
    joinLiterals (as ++ joinLiterals bs) = joinLiterals (as ++ bs) := by
  induction as with
  | nil => exact joinLiterals_eq_self (joinLiterals_apart bs)
  | cons a as ih => exact joinLiterals_cons_congr ih a

theorem joinLiterals_joinLiterals_append (as bs : List Expr) :
    joinLiterals (joinLiterals as ++ bs) = joinLiterals (as ++ bs) := by
  induction as with
  | nil => rfl
  | cons a as ih =>
    cases a with
    | literal cs =>
      obtain ⟨ds, es, hes, hjoin⟩ | ⟨-, hjoin⟩ := joinLiterals_literal cs as
      · rw [hes] at ih
        rw [hjoin, List.cons_append, ← joinLiterals_literal_literal]
        exact joinLiterals_cons_congr ih _
      · rw [hjoin]
        exact joinLiterals_cons_congr ih _
    | _ => exact congrArg (_ :: ·) ih

/-! ### Sequences of simple expressions -/

theorem joined_factors {es : List Expr} (h : ∀ e ∈ es, e.Simple) :
    ∀ f ∈ joinLiterals (es.flatMap factors), f.factors = [f] ∧ f.Simple := by
  intro f hf
  obtain hf | hf := mem_joinLiterals hf
  · obtain ⟨e, he, hfe⟩ := List.mem_flatMap.mp hf
    exact (h e he).factors f hfe
  · exact factors_of_isLiteral hf

theorem concat_simple {es : List Expr} (h : ∀ e ∈ es, e.Simple) : (concat es).Simple :=
  seqs_simple (joined_factors h) (joinLiterals_apart _)

theorem factors_concat {es : List Expr} (h : ∀ e ∈ es, e.Simple) :
    (concat es).factors = joinLiterals (es.flatMap factors) :=
  factors_seqs fun f hf => (joined_factors h f hf).1

theorem concat_singleton {e : Expr} (h : e.Simple) : concat [e] = e := by
  rw [concat, List.flatMap_singleton, joinLiterals_eq_self h.apart, h.seqs_factors]

/-- Elements in a row may be taken together. -/
theorem concat_append_concat {as bs : List Expr} (hb : ∀ e ∈ bs, e.Simple) :
    concat (as ++ [concat bs]) = concat (as ++ bs) := by
  have hjoin : joinLiterals ((as ++ [concat bs]).flatMap factors) =
      joinLiterals ((as ++ bs).flatMap factors) := by
    rw [List.flatMap_append, List.flatMap_singleton, factors_concat hb,
      joinLiterals_append_joinLiterals, List.flatMap_append]
  exact congrArg seqs hjoin

theorem concat_append_congr {as bs cs : List Expr} (ha : ∀ e ∈ as, e.Simple)
    (hb : ∀ e ∈ bs, e.Simple) (h : concat as = concat bs) :
    concat (as ++ cs) = concat (bs ++ cs) := by
  have hfactors := congrArg factors h
  rw [factors_concat ha, factors_concat hb] at hfactors
  rw [concat, concat, List.flatMap_append, List.flatMap_append,
    ← joinLiterals_joinLiterals_append, hfactors, joinLiterals_joinLiterals_append]

/-! ## Choices -/

theorem Simple.branches {e : Expr} (h : e.Simple) : ∀ b ∈ e.branches, b.Simple := by
  induction e with
  | alt a b _ ih => exact List.forall_mem_cons.mpr ⟨h.1, ih h.2⟩
  | _ => exact List.forall_mem_singleton.mpr h

theorem alts_simple {es : List Expr} (h : ∀ e ∈ es, e.Simple) : (alts es).Simple := by
  induction es with
  | nil => exact trivial
  | cons e es ih =>
    obtain ⟨he, hes⟩ := List.forall_mem_cons.mp h
    cases es with
    | nil => exact he
    | cons e' es => exact ⟨he, ih hes⟩

/-- What an expression does or has if one of its branches does. -/
theorem exists_branches {P : Expr → Prop} (halt : ∀ a b, P (.alt a b) ↔ P a ∨ P b) (e : Expr) :
    (∃ b ∈ e.branches, P b) ↔ P e := by
  induction e with
  | alt a b _ ih => rw [branches, List.exists_mem_cons_iff, ih, halt]
  | _ => simp [branches]

theorem exists_flatMap_branches {P : Expr → Prop} (halt : ∀ a b, P (.alt a b) ↔ P a ∨ P b)
    (es : List Expr) : (∃ b ∈ es.flatMap branches, P b) ↔ ∃ e ∈ es, P e := by
  constructor
  · rintro ⟨b, hb, h⟩
    obtain ⟨e, he, hbe⟩ := List.mem_flatMap.mp hb
    exact ⟨e, he, (exists_branches halt e).mp ⟨b, hbe, h⟩⟩
  · rintro ⟨e, he, h⟩
    obtain ⟨b, hb, h⟩ := (exists_branches halt e).mpr h
    exact ⟨b, List.mem_flatMap.mpr ⟨e, he, hb⟩, h⟩

theorem alts_iff {P : Expr → Prop} (halt : ∀ a b, P (.alt a b) ↔ P a ∨ P b) {es : List Expr}
    (hne : es ≠ []) : P (alts es) ↔ ∃ e ∈ es, P e := by
  induction es with
  | nil => exact absurd rfl hne
  | cons e es ih =>
    cases es with
    | nil => simp [alts]
    | cons e' es =>
      rw [List.exists_mem_cons_iff, ← ih (List.cons_ne_nil e' es)]
      exact halt e (alts (e' :: es))

theorem flatMap_branches_ne_nil {es : List Expr} (hne : es ≠ []) : es.flatMap branches ≠ [] := by
  obtain ⟨e, es, rfl⟩ := List.exists_cons_of_ne_nil hne
  rw [List.flatMap_cons]
  refine List.append_ne_nil_of_left_ne_nil ?_ _
  cases e <;> exact List.cons_ne_nil _ _

theorem ofSet_simple (s : CharSet) : (ofSet s).Simple := by
  unfold ofSet
  split <;> exact trivial

theorem oneOf_cases (es : List Expr) :
    (∃ e, es.flatMap branches = [e] ∧ oneOf es = e) ∨
      (∃ ss, ((es.flatMap branches).mapM char?).or ((es.flatMap branches).mapM set?) = some ss ∧
        oneOf es = ofSet (CharSet.unions ss)) ∨
      oneOf es = alts (es.flatMap branches) := by
  unfold oneOf
  dsimp only
  split
  · rename_i e hes
    exact .inl ⟨e, hes, rfl⟩
  · split
    · rename_i ss hss
      exact .inr (.inl ⟨ss, hss, rfl⟩)
    · exact .inr (.inr rfl)

theorem flatMap_branches_simple {es : List Expr} (h : ∀ e ∈ es, e.Simple) :
    ∀ b ∈ es.flatMap branches, b.Simple := by
  intro b hb
  obtain ⟨e, he, hbe⟩ := List.mem_flatMap.mp hb
  exact (h e he).branches b hbe

theorem oneOf_simple {es : List Expr} (h : ∀ e ∈ es, e.Simple) : (oneOf es).Simple := by
  have hbranches := flatMap_branches_simple h
  obtain ⟨e, hes, hone⟩ | ⟨ss, -, hone⟩ | hone := oneOf_cases es
  · rw [hone]
    exact hbranches e (hes ▸ List.mem_singleton_self e)
  · rw [hone]
    exact ofSet_simple _
  · rw [hone]
    exact alts_simple hbranches

/-! ### Shared elements -/

theorem sharedStart_prefix_both (as bs : List Expr) :
    sharedStart as bs <+: as ∧ sharedStart as bs <+: bs := by
  induction as generalizing bs with
  | nil => cases bs <;> exact ⟨List.nil_prefix, List.nil_prefix⟩
  | cons a as ih =>
    cases bs with
    | nil => exact ⟨List.nil_prefix, List.nil_prefix⟩
    | cons b bs =>
      rw [sharedStart]
      split
      · rename_i hab
        subst hab
        obtain ⟨has, hbs⟩ := ih bs
        exact ⟨List.cons_prefix_cons.mpr ⟨rfl, has⟩, List.cons_prefix_cons.mpr ⟨rfl, hbs⟩⟩
      · exact ⟨List.nil_prefix, List.nil_prefix⟩

/-- All branches begin with the elements that they share. -/
theorem commonStart_prefix_factors {bs : List Expr} {b : Expr} (hb : b ∈ bs) :
    commonStart bs <+: b.factors := by
  have hfold (es : List Expr) (start : List Expr) :
      es.foldl (fun start b => sharedStart start b.factors) start <+: start ∧
        ∀ e ∈ es, es.foldl (fun start b => sharedStart start b.factors) start <+: e.factors := by
    induction es generalizing start with
    | nil => exact ⟨List.prefix_refl start, nofun⟩
    | cons e es ih =>
      obtain ⟨hstart, hes⟩ := ih (sharedStart start e.factors)
      obtain ⟨hleft, hright⟩ := sharedStart_prefix_both start e.factors
      exact ⟨hstart.trans hleft, List.forall_mem_cons.mpr ⟨hstart.trans hright, hes⟩⟩
  cases bs with
  | nil => cases hb
  | cons e es =>
    rw [commonStart]
    split
    · obtain ⟨hstart, hes⟩ := hfold es e.factors
      cases hb with
      | head => exact hstart
      | tail _ hb => exact hes b hb
    · exact List.nil_prefix

/-- A choice is one of its branches, or there is something that all of them begin with, and it comes
in front of the choice between what is behind it in each. -/
theorem choice_cases (es : List Expr) : choice es = oneOf (es.flatMap branches) ∨
    ∃ start rests, rests ≠ [] ∧ (es.flatMap branches).map factors = rests.map (start ++ ·) ∧
      choice es = concat (start ++ [oneOf (rests.map concat)]) := by
  unfold choice
  dsimp only
  generalize es.flatMap branches = bs
  have hstart : ∀ b ∈ bs, (if 1 < bs.length then commonStart bs else []) <+: b.factors := by
    intro b hb
    split
    · exact commonStart_prefix_factors hb
    · exact List.nil_prefix
  have hne : (if 1 < bs.length then commonStart bs else []) ≠ [] → bs ≠ [] := by
    rintro h rfl
    exact h rfl
  generalize (if 1 < bs.length then commonStart bs else []) = start at hstart hne ⊢
  split
  · exact .inl rfl
  · rename_i hempty
    have hne' := hne fun hnil => hempty (List.isEmpty_iff.mpr hnil)
    refine .inr ⟨start, bs.map fun b => b.factors.drop start.length, by simpa using hne', ?_, ?_⟩
    · rw [List.map_map]
      refine List.map_congr_left fun b hb => ?_
      obtain ⟨rest, hrest⟩ := hstart b hb
      rw [Function.comp_apply, ← hrest, List.drop_left]
    · rw [List.map_map]
      rfl

/-- What is behind the shared elements belongs to one of the branches, and these have no others. -/
theorem exists_of_map_factors {bs : List Expr} {start : List Expr} {rests : List (List Expr)}
    (h : bs.map factors = rests.map (start ++ ·)) {rest : List Expr} (hrest : rest ∈ rests) :
    ∃ b ∈ bs, b.factors = start ++ rest := by
  have hmem : start ++ rest ∈ bs.map factors := h ▸ List.mem_map_of_mem hrest
  exact List.mem_map.mp hmem

theorem choice_simple {es : List Expr} (h : ∀ e ∈ es, e.Simple) : (choice es).Simple := by
  have hbranches := flatMap_branches_simple h
  obtain hchoice | ⟨start, rests, hne, hfactors, hchoice⟩ := choice_cases es
  · rw [hchoice]
    exact oneOf_simple hbranches
  · rw [hchoice]
    have hall (rest : List Expr) (hrest : rest ∈ rests) : ∀ f ∈ start ++ rest, f.Simple := by
      obtain ⟨b, hb, hbf⟩ := exists_of_map_factors hfactors hrest
      exact fun f hf => ((hbranches b hb).factors f (hbf ▸ hf)).2
    obtain ⟨rest, hrest⟩ := List.exists_mem_of_ne_nil rests hne
    refine concat_simple (List.forall_mem_append.mpr ⟨?_, List.forall_mem_singleton.mpr ?_⟩)
    · exact (List.forall_mem_append.mp (hall rest hrest)).1
    · exact oneOf_simple (List.forall_mem_map.mpr fun rest hrest =>
        concat_simple (List.forall_mem_append.mp (hall rest hrest)).2)

/-! ## Repetitions -/

/-- A repetition is nothing, what is repeated, or a repetition with bounds that depend on it only by
whether it reads anything. -/
theorem repeated_cases (e : Expr) (min : Nat) (max : Option Nat) (greedy : Bool) :
    ∃ lo hi, ((∀ m ∈ max, min ≤ m) → ∀ m ∈ hi, lo ≤ m) ∧
      ∀ e' : Expr, e'.isEmptyWidth = e.isEmptyWidth →
        e'.repeated min max greedy =
          if hi = some 0 then .empty else if lo = 1 ∧ hi = some 1 then e'
          else .rep e' lo hi greedy := by
  cases hwidth : e.isEmptyWidth with
  | false =>
    refine ⟨min, max, id, fun e' h => ?_⟩
    rw [repeated, h, if_neg Bool.false_ne_true]
  | true =>
    refine ⟨Nat.min min 1, some ((max.map (Nat.min 1)).getD 1), fun hle m hm => ?_, fun e' h => ?_⟩
    · obtain rfl := Option.some.inj hm
      cases max with
      | none => exact Nat.min_le_right min 1
      | some n =>
        have hmin := (Nat.min_le_left min 1).trans (hle n rfl)
        exact Nat.le_min.mpr ⟨Nat.min_le_right min 1, hmin⟩
    · rw [repeated, h, if_pos rfl]

theorem repeated_simple {e : Expr} {min : Nat} {max : Option Nat} {greedy : Bool} (h : e.Simple) :
    (e.repeated min max greedy).Simple := by
  obtain ⟨lo, hi, -, hrepeated⟩ := repeated_cases e min max greedy
  rw [hrepeated e rfl]
  split
  · exact trivial
  · split
    · exact h
    · exact trivial

end Tinct.Regex.Expr
