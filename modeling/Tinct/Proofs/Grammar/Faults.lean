import Tinct.Grammar.Compile
import Tinct.Proofs.Except

/-!
# Faults that a compilation reports

A compilation fails for what is written in the definition, never for the order in which it goes
about it:

* `GrammarDef.Blames`: the faults that a definition may be rejected for, which are neither a place
  that was never filled nor a mode that is there but has not been found;
* `OnlyBlames`: a result that fails with such faults only;
* `Yields`: a step of a compilation that does so too, with what holds once it has succeeded;
* `GrammarDef.variants_blames`, `GrammarDef.ownKeywords_blames`, `GrammarDef.matcher_blames`: what
  is read off a mode by itself;
* `GrammarDef.variants_ne_nil`: a mode has a variant at least.
-/

namespace Tinct

/-- The definition may be rejected for this fault: if a mode is said to be unknown, then the
definition has none of the name, and no place is left without its mode. -/
def GrammarDef.Blames (d : GrammarDef) : GrammarFault → Prop
  | .unknownMode name => d.modes.get? name = none
  | .uncompiledMode _ => False
  | _ => True

/-- A result that fails with faults of the definition only. -/
def OnlyBlames {α : Type} (d : GrammarDef) (r : Except GrammarFault α) : Prop :=
  ∀ e, r = .error e → d.Blames e

namespace OnlyBlames
variable {α β : Type} {d : GrammarDef}

theorem ok (a : α) : OnlyBlames d (.ok a) := nofun

theorem error {e : GrammarFault} (he : d.Blames e) : OnlyBlames d (.error e : Except _ α) := by
  rintro _ ⟨⟩
  exact he

theorem bind {r : Except GrammarFault α} {f : α → Except GrammarFault β} (hr : OnlyBlames d r)
    (hf : ∀ a, OnlyBlames d (f a)) : OnlyBlames d (r >>= f) := by
  cases r with
  | error e => exact error (hr e rfl)
  | ok a => exact hf a

theorem ofPattern (r : Except PatternError α) : OnlyBlames d (ofPattern r) := by
  cases r with
  | error e => exact error trivial
  | ok a => exact ok a

/-- A check in front of what follows. -/
theorem check {p : Prop} [Decidable p] {e : GrammarFault} (he : d.Blames e)
    {f : PUnit → Except GrammarFault α} (hf : OnlyBlames d (f ⟨⟩)) :
    OnlyBlames d (if p then throw e >>= f else f ⟨⟩) := by
  split
  · exact error he
  · exact hf

theorem mapM {f : α → Except GrammarFault β} (hf : ∀ a, OnlyBlames d (f a)) (as : List α) :
    OnlyBlames d (as.mapM f) := by
  induction as with
  | nil => exact ok []
  | cons a as ih =>
    rw [List.mapM_cons]
    exact bind (hf a) fun b => bind ih fun bs => ok _

theorem foldlM {f : β → α → Except GrammarFault β} (hf : ∀ b a, OnlyBlames d (f b a))
    (as : List α) (b : β) : OnlyBlames d (as.foldlM f b) := by
  induction as generalizing b with
  | nil => exact ok b
  | cons a as ih => exact bind (hf b a) fun b => ih b

theorem mapM_option {f : α → Except GrammarFault β} (hf : ∀ a, OnlyBlames d (f a))
    (o : Option α) : OnlyBlames d (o.mapM f) := by
  cases o with
  | none => exact ok none
  | some a => exact bind (hf a) fun b => ok (some b)

theorem mapError {r : Except GrammarFault α} (hr : OnlyBlames d r) {grammar name : String}
    {fault : GrammarFault}
    (h : r.mapError (Error.malformed grammar) = .error (.malformed name fault)) :
    d.Blames fault := by
  cases r with
  | error e => cases h; exact hr fault rfl
  | ok a => cases h

end OnlyBlames

/-! ## What a mode says by itself -/

namespace GrammarDef
variable (d : GrammarDef)

theorem addWords_blames (t : KeywordTable) (category words : String) :
    OnlyBlames d (d.addWords t category words) := by
  unfold addWords
  split
  · exact .ok _
  · exact .error trivial

theorem keywordTable_blames (k : KeywordsDef) : OnlyBlames d (d.keywordTable k) := by
  cases k with
  | words list => exact d.addWords_blames _ _ _
  | table pattern categories =>
    refine .bind (.mapM_option (fun source => .ofPattern _) pattern) fun pattern => ?_
    exact .foldlM (fun t entry => d.addWords_blames t entry.1 entry.2) categories _

theorem matcher_blames (p : Pattern) : OnlyBlames d (d.matcher p) := .ofPattern _

theorem finish_blames (p : Option Pattern) (isMatch endsWithParent : Bool) (begin : Matcher) :
    OnlyBlames d (d.finish p isMatch endsWithParent begin) := by
  unfold finish
  split
  · exact .ok _
  · split
    · exact .bind (.ofPattern _) fun finish => .ok _
    · exact .ok _

theorem ownBegin_blames (m : ModeDef) : OnlyBlames d (d.ownBegin m) := by
  unfold ownBegin
  split
  · exact .bind (.ofPattern _) fun begin => .ok _
  · exact .bind (d.matcher_blames _) fun begin => .ok _
  · exact .ok _

theorem variant_blames (m : ModeDef) (inherited : Option Matcher) (label : String)
    (v : VariantDef) : OnlyBlames d (d.variant m inherited label v) := by
  unfold variant
  dsimp only
  refine .check (by exact trivial) ?_
  split
  · refine .bind (d.matcher_blames _) fun begin => .bind (.ok _) fun p => ?_
    refine .check (by exact trivial) ?_
    exact .bind (d.finish_blames _ _ _ _) fun finish => .ok _
  · refine .bind (.ok _) fun p => .check (by exact trivial) ?_
    exact .bind (d.finish_blames _ _ _ _) fun finish => .ok _
  · exact .error trivial

theorem variants_blames (m : ModeDef) (label : String) : OnlyBlames d (d.variants m label) := by
  unfold variants
  dsimp only
  refine .check (by exact trivial) (.check (by exact trivial) ?_)
  refine .bind (d.ownBegin_blames m) fun own => ?_
  split
  · split
    · exact .bind (.ok _) fun begin => .bind (d.finish_blames _ _ _ _) fun finish => .ok _
    · split
      · refine .bind (d.matcher_blames _) fun begin => ?_
        exact .bind (d.finish_blames _ _ _ _) fun finish => .ok _
      · exact .error trivial
  · exact .mapM (fun v => d.variant_blames m own label v) m.variants

/-- A mode has a variant at least. -/
theorem variants_ne_nil {m : ModeDef} {label : String} {vs : List Variant}
    (h : d.variants m label = .ok vs) : vs ≠ [] := by
  unfold variants at h
  dsimp only at h
  split at h
  · cases h
  split at h
  · cases h
  obtain ⟨own, -, h⟩ := bind_eq_ok.mp h
  split at h
  · have hone : ∀ begin : Matcher, (do
        return [⟨begin, ← d.finish m.finish m.matched.isSome m.endsWithParent begin⟩] :
          Except GrammarFault (List Variant)) = .ok vs → vs ≠ [] := by
      intro begin h
      obtain ⟨finish, -, h⟩ := bind_eq_ok.mp h
      cases h
      exact List.cons_ne_nil _ _
    split at h
    · exact hone _ h
    split at h
    · obtain ⟨begin, -, h⟩ := bind_eq_ok.mp h
      exact hone begin h
    · cases h
  · rename_i hlist
    cases hvariants : m.variants with
    | nil => exact absurd (by rw [hvariants]; rfl) hlist
    | cons v rest =>
      rw [hvariants, List.mapM_cons] at h
      obtain ⟨first, -, h⟩ := bind_eq_ok.mp h
      obtain ⟨others, -, h⟩ := bind_eq_ok.mp h
      cases h
      exact List.cons_ne_nil _ _

theorem ownKeywords_blames (m : ModeDef) : OnlyBlames d (d.ownKeywords m) := by
  unfold ownKeywords
  split
  · exact .bind (d.keywordTable_blames _) fun table => .ok _
  · exact .bind (d.addWords_blames _ _ _) fun table => .ok _
  · exact .ok _

end GrammarDef

/-! ## Steps of a compilation -/

/-- The step fails with faults of the definition only, and where it succeeds, `post` holds of what
it gives and of the build it leaves. -/
def Yields {α : Type} (d : GrammarDef) (x : Compiling α) (b : Build) (post : α → Build → Prop) :
    Prop :=
  match x.run b with
  | .ok (a, b') => post a b'
  | .error e => d.Blames e

namespace Yields
variable {α β : Type} {d : GrammarDef} {b : Build} {post : α → Build → Prop}
  {post' : β → Build → Prop}

theorem pure {a : α} (h : post a b) : Yields d (pure a) b post := h

theorem throw {e : GrammarFault} (he : d.Blames e) : Yields d (throw e) b post := he

theorem mono {x : Compiling α} {post post' : α → Build → Prop} (h : Yields d x b post)
    (himp : ∀ a b', post a b' → post' a b') : Yields d x b post' := by
  unfold Yields at h ⊢
  split
  · rename_i a b' hrun
    rw [hrun] at h
    exact himp a b' h
  · rename_i e hrun
    rwa [hrun] at h

theorem bind {x : Compiling α} {f : α → Compiling β} (hx : Yields d x b post)
    (hf : ∀ a b', post a b' → Yields d (f a) b' post') : Yields d (x >>= f) b post' := by
  unfold Yields at hx ⊢
  rw [StateT.run_bind]
  cases h : x.run b with
  | error e =>
    rw [h] at hx
    exact hx
  | ok p =>
    rw [h] at hx
    exact hf p.1 p.2 hx

/-- What is read off the definition leaves the build as it is. -/
theorem bind_lift {r : Except GrammarFault α} {f : α → Compiling β} (hr : OnlyBlames d r)
    (hf : ∀ a, r = .ok a → Yields d (f a) b post') : Yields d (liftM r >>= f) b post' := by
  cases r with
  | error e => exact hr e rfl
  | ok a => exact hf a rfl

theorem bind_mapM_lift {γ : Type} {r : γ → Except GrammarFault α} {f : Option α → Compiling β}
    (hr : ∀ c, OnlyBlames d (r c)) (p : Option γ) (hf : ∀ o, Yields d (f o) b post') :
    Yields d ((p.mapM fun c => (r c : Compiling α)) >>= f) b post' := by
  cases p with
  | none => exact hf none
  | some c =>
    have hrun : (((some c).mapM fun c => (r c : Compiling α)) >>= f) =
        liftM (r c) >>= fun a => f (some a) := by
      simp
    rw [hrun]
    exact bind_lift (hr c) fun a _ => hf (some a)

theorem fill {m : Mode} {post : Unit → Build → Prop}
    (h : post () ⟨b.slots.setIfInBounds m.id (some m), b.named⟩) :
    Yields d (Build.fill m) b post := h

/-- A place is taken behind the others. -/
theorem bind_reserve {f : Nat → Compiling β}
    (hf : Yields d (f b.slots.size) ⟨b.slots.push none, b.named⟩ post') :
    Yields d (Build.reserve >>= f) b post' := hf

theorem error {x : Compiling α} (h : Yields d x b post) {e : GrammarFault}
    (he : x.run b = .error e) : d.Blames e := by
  unfold Yields at h
  rwa [he] at h

theorem ok {x : Compiling α} (h : Yields d x b post) {a : α} {b' : Build}
    (ha : x.run b = .ok (a, b')) : post a b' := by
  unfold Yields at h
  rwa [ha] at h

end Yields
end Tinct
