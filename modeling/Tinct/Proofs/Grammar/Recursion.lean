import Mathlib.Data.List.Count
import Tinct.Grammar.Compile
import Tinct.Proofs.Except

/-!
# Modes that refer to each other

A mode under a key is compiled when it is first asked for, and it may ask for others, or for itself,
while it is compiled. Each time, one more key has a place, so the recursion is never deeper than
there are keys:

* `GrammarDef.unplaced`: how many keys have no place yet;
* `Stepwise`: comparisons of two ways to compile that go step by step;
* `GrammarDef.compileMode_compares`: under such a comparison, what is compiled to a mode depends on
  the modes that its list mentions (`Mentions`), and on no other modes;
* `GrammarDef.Agree`: two ways to compile that come to the same as long as few keys have no place;
* `GrammarDef.placeOf_eq`: any bound on the depth of the recursion that is not below the number of
  keys gives the same places;
-/

namespace Tinct
variable {d : GrammarDef} {b b' : Build}

/-! ## Keys without a place -/

namespace GrammarDef

/-- How many keys have no place yet. -/
def unplaced (d : GrammarDef) (b : Build) : Nat :=
  d.modes.countP fun e => (b.named.get? e.1).isNone

theorem unplaced_le_length (d : GrammarDef) (b : Build) : d.unplaced b ≤ d.modes.length :=
  List.countP_le_length

theorem mem_of_get? {α : Type} {es : Entries α} {key : String} {a : α}
    (h : es.get? key = some a) : (key, a) ∈ es := by
  induction es with
  | nil => cases h
  | cons e es ih =>
    obtain ⟨k, v⟩ := e
    rw [Entries.get?_cons] at h
    split at h
    · rename_i hk
      cases h
      exact hk ▸ List.mem_cons_self
    · exact List.mem_cons_of_mem _ (ih h)

/-- Keys that get places do not lose them. -/
theorem unplaced_mono (h : ∀ key, (b.named.get? key).isSome → (b'.named.get? key).isSome) :
    d.unplaced b' ≤ d.unplaced b := by
  refine List.countP_mono_left fun e _ he => ?_
  cases hb : b.named.get? e.1 with
  | none => rfl
  | some id =>
    have := h e.1 (by rw [hb]; rfl)
    rw [Option.isNone_iff_eq_none] at he
    rw [he] at this
    cases this

/-- As long as some key has no place, there is one more that may be asked for. -/
theorem unplaced_pos {name : String} {m : ModeDef} (hm : d.modes.get? name = some m)
    (hb : b.named.get? name = none) : 0 < d.unplaced b :=
  List.countP_pos_iff.mpr ⟨_, mem_of_get? hm, by rw [hb]; rfl⟩

theorem unplaced_put_lt {name : String} {m : ModeDef} (hm : d.modes.get? name = some m)
    (hb : b.named.get? name = none) (slots : Array (Option Mode)) (id : Nat) :
    d.unplaced ⟨slots, b.named.put name id⟩ < d.unplaced b := by
  obtain ⟨front, back, hmodes⟩ := List.append_of_mem (mem_of_get? hm)
  have hle (es : Entries ModeDef) : es.countP (fun e => ((b.named.put name id).get? e.1).isNone) ≤
      es.countP fun e => (b.named.get? e.1).isNone := by
    refine List.countP_mono_left fun e _ he => ?_
    rw [Entries.get?_put] at he
    split at he
    · cases he
    · exact he
  have hfront := hle front
  have hback := hle back
  rw [unplaced, unplaced, hmodes, List.countP_append, List.countP_append,
    List.countP_cons_of_neg (by simp [Entries.get?_put]), List.countP_cons_of_pos (by simp [hb])]
  dsimp only
  omega

end GrammarDef

/-! ## Comparing two ways to compile -/

/-- The list has a mode by the key, or a list inside it has. What is called `self` is no mode by a
key. -/
inductive Mentions (key : String) : List (ModeEntry ModeDef) → Prop
  | ref {es : List (ModeEntry ModeDef)} (h : .ref key ∈ es) (hself : key ≠ "self") : Mentions key es
  | inner {es : List (ModeEntry ModeDef)} {m : ModeDef} (h : .inline m ∈ es)
    (hm : Mentions key m.contains) : Mentions key es

theorem Mentions.mono {key : String} {es es' : List (ModeEntry ModeDef)} (h : Mentions key es)
    (hes : es ⊆ es') : Mentions key es' := by
  cases h with
  | ref h hself => exact .ref (hes h) hself
  | inner h hm => exact .inner (hes h) hm

/-- The same definition with other modes under its keys. -/
def GrammarDef.withModes (d : GrammarDef) (modes : Entries ModeDef) : GrammarDef := { d with modes }

/-- A comparison of two ways to compile that goes step by step, what leaves the keys alone being
the same in both. -/
structure Stepwise (R : ∀ α : Type, Compiling α → Compiling α → Prop) : Prop where
  same {α : Type} {x : Compiling α} : (∀ b a b', x.run b = .ok (a, b') → b'.named = b.named) →
    R α x x
  bind {α β : Type} {x y : Compiling α} {f g : α → Compiling β} : R α x y →
    (∀ a, R β (f a) (g a)) → R β (x >>= f) (y >>= g)

namespace Stepwise
variable {R : ∀ α : Type, Compiling α → Compiling α → Prop} {α β : Type}

theorem pure (hR : Stepwise R) (a : α) : R α (pure a) (pure a) :=
  hR.same fun _ _ _ h => by cases h; rfl

theorem throw (hR : Stepwise R) (e : GrammarFault) : R α (throw e) (throw e) := hR.same nofun

theorem lift (hR : Stepwise R) (r : Except GrammarFault α) : R α (liftM r) (liftM r) := by
  cases r with
  | error e => exact hR.throw e
  | ok a => exact hR.pure a

theorem mapM_lift (hR : Stepwise R) (f : β → Except GrammarFault α) (p : Option β) :
    R _ (p.mapM fun x => (f x : Compiling α)) (p.mapM fun x => (f x : Compiling α)) := by
  cases p with
  | none => exact hR.pure none
  | some x => exact hR.bind (hR.lift (f x)) fun a => hR.pure (some a)

theorem reserve (hR : Stepwise R) : R Nat Build.reserve Build.reserve :=
  hR.same fun _ _ _ h => by cases h; rfl

theorem fill (hR : Stepwise R) (m : Mode) : R Unit (Build.fill m) (Build.fill m) :=
  hR.same fun _ _ _ h => by cases h; rfl

end Stepwise

namespace GrammarDef

section
variable {R : ∀ α : Type, Compiling α → Compiling α → Prop} {modes : Entries ModeDef}
  {resolve resolve' : String → Compiling Nat}

mutual

/-- Modes compare if the places of the modes that they mention do, whatever other modes there
are. -/
theorem compileMode_compares (hR : Stepwise R) (id : Nat) (name : Option String) : ∀ m : ModeDef,
    (∀ key, Mentions key m.contains → R Nat (resolve key) (resolve' key)) →
    R Unit (d.compileMode resolve id name m) ((d.withModes modes).compileMode resolve' id name m)
  | ⟨_, _, _, _, _, _, _, _, contains, _, _, _, _, _, _, _, _, _⟩, h => by
    unfold compileMode
    refine hR.bind (hR.lift (d.variants _ _)) fun variants => ?_
    refine hR.bind (hR.lift (d.ownKeywords _)) fun keywords => ?_
    refine hR.bind (compileEntries_compares hR (some id) contains h) fun contains => ?_
    exact hR.bind (hR.mapM_lift _ _) fun illegal => hR.fill _

theorem compileEntries_compares (hR : Stepwise R) (parent : Option Nat) :
    ∀ es : List (ModeEntry ModeDef),
    (∀ key, Mentions key es → R Nat (resolve key) (resolve' key)) →
    R _ (d.compileEntries resolve parent es)
      ((d.withModes modes).compileEntries resolve' parent es)
  | [], _ => by
    unfold compileEntries
    exact hR.pure []
  | e :: es, h => by
    unfold compileEntries
    have hfirst : ∀ key, Mentions key [e] → R Nat (resolve key) (resolve' key) :=
      fun key hkey => h key (hkey.mono (by simp))
    refine hR.bind (compileEntry_compares hR parent e hfirst) fun id => ?_
    have hrest : ∀ key, Mentions key es → R Nat (resolve key) (resolve' key) :=
      fun key hkey => h key (hkey.mono (List.subset_cons_self e es))
    exact hR.bind (compileEntries_compares hR parent es hrest) fun ids => hR.pure _

theorem compileEntry_compares (hR : Stepwise R) (parent : Option Nat) : ∀ e : ModeEntry ModeDef,
    (∀ key, Mentions key [e] → R Nat (resolve key) (resolve' key)) →
    R Nat (d.compileEntry resolve parent e)
      ((d.withModes modes).compileEntry resolve' parent e)
  | .ref key, h => by
    unfold compileEntry
    split
    · split
      · exact hR.pure _
      · exact hR.throw _
    · rename_i hself
      exact h key (.ref List.mem_cons_self hself)
  | .inline m, h => by
    unfold compileEntry
    have hinner : ∀ key, Mentions key m.contains → R Nat (resolve key) (resolve' key) :=
      fun key hkey => h key (.inner List.mem_cons_self hkey)
    refine hR.bind hR.reserve fun id => ?_
    exact hR.bind (compileMode_compares hR id none m hinner) fun _ => hR.pure id

end

end

/-! ## Compiling to the same end -/

/-- The two ways to compile come to the same where no more than `n` keys are without a place, and no
key loses its place. -/
def Agree (d : GrammarDef) (n : Nat) (α : Type) (x y : Compiling α) : Prop :=
  ∀ b, d.unplaced b ≤ n →
    x.run b = y.run b ∧ ∀ a b', x.run b = .ok (a, b') → d.unplaced b' ≤ n

theorem agree_stepwise (d : GrammarDef) (n : Nat) : Stepwise (d.Agree n) where
  same {_ x} hx := by
    intro b hb
    refine ⟨rfl, fun a b' h => ?_⟩
    rwa [unplaced, hx b a b' h]
  bind {_ _ x y f g} hx hf := by
    intro b hb
    obtain ⟨hrun, hkeeps⟩ := hx b hb
    rw [StateT.run_bind, StateT.run_bind, ← hrun]
    cases h : x.run b with
    | error e => exact ⟨rfl, nofun⟩
    | ok p => exact hf p.1 p.2 (hkeeps p.1 p.2 h)

/-- One step of the recursion, `resolve` giving the places that are asked for meanwhile. -/
def placeStep (d : GrammarDef) (resolve : String → Compiling Nat) (name : String) :
    Compiling Nat := do
  match (← get).named.get? name, d.modes.get? name with
  | some id, _ => return id
  | none, none => throw (.unknownMode name)
  | none, some m =>
    let id ← Build.reserve
    modify fun b => { b with named := b.named.put name id }
    compileMode d resolve id (some name) m
    return id

theorem placeOf_succ (d : GrammarDef) (n : Nat) :
    d.placeOf (n + 1) = d.placeStep (d.placeOf n) := by
  rfl

theorem placeStep_run (d : GrammarDef) (resolve : String → Compiling Nat) (name : String)
    (b : Build) : (d.placeStep resolve name).run b =
      match b.named.get? name, d.modes.get? name with
      | some id, _ => .ok (id, b)
      | none, none => .error (.unknownMode name)
      | none, some m =>
        (do compileMode d resolve b.slots.size (some name) m
            return b.slots.size : Compiling Nat).run
          ⟨b.slots.push none, b.named.put name b.slots.size⟩ := by
  unfold placeStep
  rw [StateT.run_bind]
  show (StateT.run (match b.named.get? name, d.modes.get? name with
    | some id, _ => _
    | none, none => _
    | none, some m => _) b) = _
  split
  · rfl
  · rfl
  · rfl

theorem placeOf_zero_run (d : GrammarDef) (name : String) (b : Build) :
    (d.placeOf 0 name).run b =
      match b.named.get? name with
      | some id => .ok (id, b)
      | none => .error (.unknownMode name) := by
  unfold placeOf
  rw [StateT.run_bind]
  show (StateT.run (match b.named.get? name with
    | some id => _
    | none => _) b) = _
  split
  · rfl
  · rfl

/-- A recursion one step deeper comes to the same. -/
theorem placeOf_agree (d : GrammarDef) (n : Nat) (name : String) :
    d.Agree n Nat (d.placeOf n name) (d.placeOf (n + 1) name) := by
  induction n generalizing name with
  | zero =>
    intro b hb
    rw [placeOf_succ, placeStep_run, placeOf_zero_run]
    cases hname : b.named.get? name with
    | some id =>
      refine ⟨rfl, fun a b' h => ?_⟩
      cases h
      exact hb
    | none =>
      cases hm : d.modes.get? name with
      | none => exact ⟨rfl, nofun⟩
      | some m =>
        have := unplaced_pos hm hname
        omega
  | succ n ih =>
    intro b hb
    rw [placeOf_succ d (n + 1), placeOf_succ d n, placeStep_run, placeStep_run]
    cases hname : b.named.get? name with
    | some id =>
      refine ⟨rfl, fun a b' h => ?_⟩
      cases h
      exact hb
    | none =>
      cases hm : d.modes.get? name with
      | none => exact ⟨rfl, nofun⟩
      | some m =>
        have hlt := unplaced_put_lt hm hname (b.slots.push none) b.slots.size
        have hmode : d.Agree n Unit (d.compileMode (d.placeOf n) b.slots.size (some name) m)
            (d.compileMode (d.placeOf (n + 1)) b.slots.size (some name) m) :=
          compileMode_compares (d.agree_stepwise n) _ _ m fun key _ => ih key
        obtain ⟨hrun, hkeeps⟩ := (d.agree_stepwise n).bind hmode
          (fun _ => (d.agree_stepwise n).pure b.slots.size) _
          (Nat.le_of_lt_succ (Nat.lt_of_lt_of_le hlt hb))
        rw [← placeOf_succ]
        exact ⟨hrun, fun a b' h => Nat.le_succ_of_le (hkeeps a b' h)⟩

/-- No recursion is deeper than there are keys. -/
theorem placeOf_eq (d : GrammarDef) {n : Nat} (hn : d.modes.length ≤ n) :
    d.placeOf n = d.placeOf d.modes.length := by
  obtain ⟨k, rfl⟩ := Nat.exists_eq_add_of_le hn
  induction k with
  | zero => rfl
  | succ k ih =>
    rw [← ih (Nat.le_add_right _ _)]
    funext name b
    have hb := Nat.le_trans (d.unplaced_le_length b) (Nat.le_add_right d.modes.length k)
    exact (d.placeOf_agree _ name b hb).1.symm

end GrammarDef
end Tinct
