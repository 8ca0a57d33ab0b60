import Tinct.Proofs.Grammar.Arena

/-!
# Where modes come from

Every mode of a compiled grammar is made of a definition that the grammar gives, but for the one of
the text outside:

* `GrammarDef.Defines`: the definitions of modes that a grammar gives;
* `Mode.Realizes`: a mode is what a definition of a mode is compiled to;
* `Preserves`, `Build.Invariant`: steps of a compilation that keep what holds of a build;
* `GrammarDef.placeOf_preserves`: what taking places and filling them keeps, compiling modes keeps;
* `Grammar.declared_of_compile`: so the modes of a compiled grammar are declared;
* `GrammarDef.forms_of_variants`: where the begin and the end of a variant come from.
-/

namespace Tinct
variable {d : GrammarDef}

/-- The definitions of modes that a grammar gives: those under a key, and those that a list has in
place of a name. -/
inductive GrammarDef.Defines (d : GrammarDef) : ModeDef → Prop
  | keyed {key : String} {md : ModeDef} (h : d.modes.get? key = some md) : Defines d md
  | listed {md : ModeDef} (h : .inline md ∈ d.contains) : Defines d md
  | inner {md md' : ModeDef} (h : Defines d md) (hinner : .inline md' ∈ md.contains) :
    Defines d md'

/-- The mode has the begins, the ends and the keywords that a definition stands for. -/
structure Mode.Realizes (d : GrammarDef) (md : ModeDef) (m : Mode) : Prop where
  variants : d.variants md (m.name.getD "inline mode") = .ok m.variants
  keywords : d.ownKeywords md = .ok m.keywords

/-- The mode is made of a definition that the grammar gives, or it never begins. -/
def Mode.Declared (d : GrammarDef) (m : Mode) : Prop :=
  m.variants = [] ∨ ∃ md, d.Defines md ∧ m.Realizes d md

/-- All modes that are in their places are declared. -/
def Build.Declared (d : GrammarDef) (b : Build) : Prop :=
  ∀ (i : Nat) (m : Mode), b.slots[i]? = some (some m) → m.Declared d

/-! ## Steps that keep what holds -/

/-- What holds of a build holds after the step, if that succeeds. -/
def Preserves {α : Type} (I : Build → Prop) (x : Compiling α) : Prop :=
  ∀ b a b', I b → x.run b = .ok (a, b') → I b'

namespace Preserves
variable {α β : Type} {I : Build → Prop}

theorem pure (a : α) : Preserves I (pure a) := fun _ _ _ hb h => by cases h; exact hb

theorem throw (e : GrammarFault) : Preserves I (throw e : Compiling α) := nofun

theorem bind {x : Compiling α} {f : α → Compiling β} (hx : Preserves I x)
    (hf : ∀ a, Preserves I (f a)) : Preserves I (x >>= f) := by
  intro b a b' hb h
  rw [StateT.run_bind] at h
  obtain ⟨⟨a₁, b₁⟩, hrun, hrest⟩ := bind_eq_ok.mp h
  exact hf a₁ b₁ a b' (hx b a₁ b₁ hb hrun) hrest

theorem bind_lift {r : Except GrammarFault α} {f : α → Compiling β}
    (hf : ∀ a, r = .ok a → Preserves I (f a)) : Preserves I (liftM r >>= f) := by
  cases r with
  | error e => exact fun _ _ _ _ h => by cases h
  | ok a => exact hf a rfl

theorem mapM_lift {f : β → Except GrammarFault α} (o : Option β) :
    Preserves I (o.mapM fun x => (f x : Compiling α)) := by
  cases o with
  | none => exact pure none
  | some x =>
    rw [Option.mapM_some]
    exact bind_lift fun a _ => pure (some a)

theorem forM {f : α → Compiling Unit} (hf : ∀ a, Preserves I (f a)) (as : List α) :
    Preserves I (as.forM f) := by
  induction as with
  | nil => exact pure ()
  | cons a as ih => exact bind (hf a) fun _ => ih

end Preserves

/-- What holds of a build with `n` places or more, and goes on to hold when a place is taken or when
a mode that the grammar gives is put into one of the places behind those. -/
structure Build.Invariant (d : GrammarDef) (n : Nat) (I : Build → Prop) : Prop where
  size {b : Build} : I b → n ≤ b.slots.size
  push {b : Build} : I b → ∀ named, I ⟨b.slots.push none, named⟩
  fill {md : ModeDef} {m : Mode} : d.Defines md → m.Realizes d md → n ≤ m.id →
    Preserves I (Build.fill m)

namespace GrammarDef
variable {n : Nat} {I : Build → Prop} {resolve : String → Compiling Nat}

mutual

/-- A mode takes places and fills them, and does nothing else to a build. -/
theorem compileMode_preserves (hI : Build.Invariant d n I)
    (hresolve : ∀ name, Preserves I (resolve name)) {id : Nat} (hid : n ≤ id)
    (name : Option String) : ∀ md : ModeDef, d.Defines md →
    Preserves I (d.compileMode resolve id name md)
  | ⟨_, _, _, _, _, _, _, _, contains, _, _, _, _, _, _, _, _, _⟩, hmd => by
    unfold compileMode
    refine .bind_lift fun variants hvariants => .bind_lift fun keywords hkeywords => ?_
    have hinner : ∀ md', .inline md' ∈ contains → d.Defines md' := fun _ h => hmd.inner h
    refine .bind (compileEntries_preserves hI hresolve _ contains hinner) fun ids => ?_
    exact .bind (.mapM_lift _) fun illegal => hI.fill hmd ⟨hvariants, hkeywords⟩ hid

theorem compileEntries_preserves (hI : Build.Invariant d n I)
    (hresolve : ∀ name, Preserves I (resolve name)) (parent : Option Nat) :
    ∀ es : List (ModeEntry ModeDef), (∀ md, .inline md ∈ es → d.Defines md) →
    Preserves I (d.compileEntries resolve parent es)
  | [], _ => by
    unfold compileEntries
    exact .pure []
  | e :: es, hes => by
    unfold compileEntries
    have he : ∀ md, .inline md = e → d.Defines md := fun md h => hes md (h ▸ .head _)
    refine .bind (compileEntry_preserves hI hresolve parent e he) fun id => ?_
    exact .bind (compileEntries_preserves hI hresolve parent es fun md h => hes md (.tail _ h))
      fun ids => .pure _

theorem compileEntry_preserves (hI : Build.Invariant d n I)
    (hresolve : ∀ name, Preserves I (resolve name)) (parent : Option Nat) :
    ∀ e : ModeEntry ModeDef, (∀ md, .inline md = e → d.Defines md) →
    Preserves I (d.compileEntry resolve parent e)
  | .ref name, _ => by
    unfold compileEntry
    split
    · split
      · exact .pure _
      · exact .throw _
    · exact hresolve name
  | .inline md, he => by
    unfold compileEntry
    intro b id b' hb h
    exact Preserves.bind (compileMode_preserves hI hresolve (hI.size hb) none md (he md rfl))
      (fun _ => .pure b.slots.size) _ _ _ (hI.push hb _) h

end

theorem placeOf_preserves (hI : Build.Invariant d n I) (depth : Nat) (name : String) :
    Preserves I (d.placeOf depth name) := by
  induction depth generalizing name with
  | zero =>
    intro b id b' hb h
    rw [placeOf_zero_run] at h
    split at h <;> cases h
    exact hb
  | succ depth ih =>
    intro b id b' hb h
    rw [placeOf_succ, placeStep_run] at h
    split at h
    · cases h
      exact hb
    · cases h
    · rename_i md _ hmd
      exact Preserves.bind (compileMode_preserves hI ih (hI.size hb) _ md (.keyed hmd))
        (fun _ => .pure b.slots.size) _ _ _ (hI.push hb _) h

end GrammarDef

/-! ## Modes that are declared -/

theorem Build.Declared.push {b : Build} (h : b.Declared d) (named : Entries Nat) :
    Build.Declared d ⟨b.slots.push none, named⟩ := by
  intro i m hm
  rw [Array.getElem?_push] at hm
  split at hm
  · cases hm
  · exact h i m hm

theorem fill_preserves {m : Mode} (hm : m.Declared d) :
    Preserves (·.Declared d) (Build.fill m) := by
  intro b a b' hb h
  cases h
  intro i m' hm'
  rw [Array.getElem?_setIfInBounds] at hm'
  split at hm'
  · split at hm'
    · cases hm'
      exact hm
    · cases hm'
  · exact hb i m' hm'

theorem declared_invariant (d : GrammarDef) : Build.Invariant d 0 (·.Declared d) :=
  ⟨fun _ => Nat.zero_le _, fun hb => hb.push,
    fun hmd hrealizes _ => fill_preserves (.inr ⟨_, hmd, hrealizes⟩)⟩

theorem GrammarDef.compileModes_preserves (d : GrammarDef) :
    Preserves (·.Declared d) d.compileModes := by
  have hI := declared_invariant d
  have hplace := placeOf_preserves hI d.modes.length
  have hreserve : Preserves (·.Declared d) Build.reserve :=
    fun b _ _ hb h => by cases h; exact hI.push hb b.named
  unfold compileModes
  refine .bind hreserve fun root => .bind (.mapM_lift _) fun illegal => ?_
  have hlisted : ∀ md, .inline md ∈ d.contains → d.Defines md := fun _ h => .listed h
  refine .bind (compileEntries_preserves hI hplace none d.contains hlisted) fun ids => ?_
  refine .bind (fill_preserves (.inl rfl)) fun _ => .forM (fun e => ?_) d.modes
  exact .bind (hplace e.1) fun _ => .pure ()

/-- The modes of a compiled grammar are made of definitions that it gives; only the one of the text
outside is not, which never begins. -/
theorem Grammar.declared_of_compile {g : Grammar} (h : compile d = .ok g) {i : Nat} {m : Mode}
    (hm : g.modes[i]? = some m) : m.Declared d := by
  obtain ⟨u, b, hrun, hmodes, -⟩ := exists_build_of_compile h
  have hstart : Build.Declared d {} := fun i m hm =>
    absurd (Array.getElem?_eq_some_iff.mp hm).1 (Nat.not_lt_zero i)
  exact d.compileModes_preserves {} u b hstart hrun i m (GrammarDef.finishModes_getElem? hmodes hm)

/-! ## Variants -/

namespace GrammarDef
variable {md : ModeDef} {label : String} {vs : List Variant}

/-- Where a variant of a mode comes from: its begin is of a pattern of its own or the one that the
mode declares, and how its regions end depends on that begin. -/
structure Forms (d : GrammarDef) (md : ModeDef) (v : Variant) : Prop where
  begin : (∃ p, d.matcher p = .ok v.begin) ∨ d.ownBegin md = .ok (some v.begin)
  finish : ∃ p isMatch, d.finish p isMatch md.endsWithParent v.begin = .ok v.finish

theorem forms_of_variant {inherited : Option Matcher} {vd : VariantDef} {v : Variant}
    (hown : d.ownBegin md = .ok inherited) (h : d.variant md inherited label vd = .ok v) :
    d.Forms md v := by
  unfold variant at h
  dsimp only at h
  split at h
  · cases h
  split at h
  · obtain ⟨begin, hbegin, h⟩ := bind_eq_ok.mp h
    obtain ⟨⟨_, isMatch⟩, heq, h⟩ := bind_eq_ok.mp h
    cases heq
    dsimp only at h
    split at h
    · cases h
    obtain ⟨finish, hfinish, h⟩ := bind_eq_ok.mp h
    cases h
    exact ⟨.inl ⟨_, hbegin⟩, _, _, hfinish⟩
  · obtain ⟨⟨_, isMatch⟩, heq, h⟩ := bind_eq_ok.mp h
    cases heq
    dsimp only at h
    split at h
    · cases h
    obtain ⟨finish, hfinish, h⟩ := bind_eq_ok.mp h
    cases h
    exact ⟨.inr hown, _, _, hfinish⟩
  · cases h

theorem forms_of_variants (h : d.variants md label = .ok vs) {v : Variant} (hv : v ∈ vs) :
    d.Forms md v := by
  unfold variants at h
  dsimp only at h
  split at h
  · cases h
  split at h
  · cases h
  obtain ⟨own, hown, h⟩ := bind_eq_ok.mp h
  split at h
  · split at h
    · obtain ⟨begin, heq, h⟩ := bind_eq_ok.mp h
      cases heq
      obtain ⟨finish, hfinish, h⟩ := bind_eq_ok.mp h
      cases h
      cases List.mem_singleton.mp hv
      exact ⟨.inr hown, _, _, hfinish⟩
    · split at h
      · obtain ⟨begin, hbegin, h⟩ := bind_eq_ok.mp h
        obtain ⟨finish, hfinish, h⟩ := bind_eq_ok.mp h
        cases h
        cases List.mem_singleton.mp hv
        exact ⟨.inl ⟨_, hbegin⟩, _, _, hfinish⟩
      · cases h
  · obtain ⟨i, hi⟩ := List.getElem?_of_mem hv
    obtain ⟨vd, -, hvd⟩ := mapM_getElem? h hi
    exact forms_of_variant hown hvd

end GrammarDef

end Tinct
