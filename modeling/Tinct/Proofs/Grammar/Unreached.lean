import Tinct.Proofs.Grammar.Declared
import Tinct.Proofs.Scan.Classification
import Tinct.Proofs.Scan.Renaming

/-!
# Modes that nothing reaches

Modes get their places in the order in which the root comes upon them, and those that it does not
come upon get theirs behind all of these. So it does not matter to a scan what they are, or whether
there are any:

* `GrammarDef.Reaches`: the keys that the root comes upon;
* `Coincide`: two ways to compile that come to the same where both succeed;
* `placeOf_coincide`, `compileRoot_coincide`: with other modes under keys that are not reached, what
  the root comes upon is compiled in the same way;
* `Build.StartOf`, `startOf_invariant`: what is compiled later leaves the places before it alone;
* `Grammar.exists_root_of_compile`: so a grammar begins with what the root has been compiled to;
* `Grammar.renames_of_root`: no scan comes upon anything else;
* `unreached_modes_inert`: modes that are not reached change nothing of what a scan gives.
-/

namespace Tinct

/-- The keys that the list of the root mentions, and those that modes under such keys do. -/
inductive GrammarDef.Reaches (d : GrammarDef) : String → Prop
  | root {key : String} (h : Mentions key d.contains) : Reaches d key
  | mode {outer key : String} {m : ModeDef} (houter : Reaches d outer)
    (hm : d.modes.get? outer = some m) (h : Mentions key m.contains) : Reaches d key

/-! ## Compiling to the same end -/

/-- Where both ways to compile succeed, they come to the same. -/
def Coincide (α : Type) (x y : Compiling α) : Prop :=
  ∀ b p q, x.run b = .ok p → y.run b = .ok q → p = q

theorem coincide_stepwise : Stepwise Coincide where
  same _ _ _ _ hp hq := Except.ok.inj (hp.symm.trans hq)
  bind {_ _ x y f g} hx hf := by
    intro b p q hp hq
    rw [StateT.run_bind] at hp hq
    obtain ⟨⟨a, b'⟩, hxrun, hp⟩ := bind_eq_ok.mp hp
    obtain ⟨p', hyrun, hq⟩ := bind_eq_ok.mp hq
    obtain rfl := hx b _ _ hxrun hyrun
    exact hf a b' p q hp hq

namespace GrammarDef
variable {d : GrammarDef} {modes : Entries ModeDef}

/-- A key that has a place keeps it, however deep the recursion may be. -/
theorem placeOf_run_of_get? {b : Build} {key : String} {id : Nat}
    (h : b.named.get? key = some id) (n : Nat) : (d.placeOf n key).run b = .ok (id, b) := by
  cases n with
  | zero => rw [placeOf_zero_run, h]
  | succ n => rw [placeOf_succ, placeStep_run, h]

/-- So only keys without a place are of interest. -/
theorem coincide_of_unplaced {d' : GrammarDef} {n n' : Nat} {key : String}
    (h : ∀ b p q, b.named.get? key = none → (d.placeOf n key).run b = .ok p →
      (d'.placeOf n' key).run b = .ok q → p = q) :
    Coincide Nat (d.placeOf n key) (d'.placeOf n' key) := by
  intro b p q hp hq
  cases hname : b.named.get? key with
  | some id =>
    rw [placeOf_run_of_get? hname] at hp hq
    exact Except.ok.inj (hp.symm.trans hq)
  | none => exact h b p q hname hp hq

theorem placeOf_coincide (hmodes : ∀ key, d.Reaches key → modes.get? key = d.modes.get? key)
    (n n' : Nat) {key : String} (hkey : d.Reaches key) :
    Coincide Nat (d.placeOf n key) ((d.withModes modes).placeOf n' key) := by
  -- The bounds are apart, as the definitions may list more modes or fewer. Where one is too low for
  -- a key, there is no success to compare.
  induction n generalizing n' key with
  | zero =>
    refine coincide_of_unplaced fun b p q hname hp _ => ?_
    rw [placeOf_zero_run, hname] at hp
    cases hp
  | succ n ih =>
    refine coincide_of_unplaced fun b p q hname hp hq => ?_
    cases n' with
    | zero =>
      rw [placeOf_zero_run, hname] at hq
      cases hq
    | succ n' =>
      have hsame : (d.withModes modes).modes.get? key = d.modes.get? key := hmodes key hkey
      rw [placeOf_succ, placeStep_run, hname] at hp hq
      rw [hsame] at hq
      cases hm : d.modes.get? key with
      | none =>
        rw [hm] at hp
        cases hp
      | some m =>
        rw [hm] at hp hq
        have hinner (inner : String) (h : Mentions inner m.contains) :
            Coincide Nat (d.placeOf n inner) ((d.withModes modes).placeOf n' inner) :=
          ih n' (hkey.mode hm h)
        exact coincide_stepwise.bind (compileMode_compares coincide_stepwise _ _ m hinner)
          (fun _ => coincide_stepwise.pure b.slots.size) _ p q hp hq

/-- With other modes under keys that it does not reach, the root is compiled in the same way. -/
theorem compileRoot_coincide (hmodes : ∀ key, d.Reaches key → modes.get? key = d.modes.get? key)
    (n n' : Nat) :
    Coincide Unit (d.compileRoot (d.placeOf n))
      ((d.withModes modes).compileRoot ((d.withModes modes).placeOf n')) := by
  have hR := coincide_stepwise
  unfold compileRoot
  refine hR.bind hR.reserve fun root => hR.bind (hR.mapM_lift _ _) fun illegal => ?_
  have hkeys (key : String) (h : Mentions key d.contains) :
      Coincide Nat (d.placeOf n key) ((d.withModes modes).placeOf n' key) :=
    placeOf_coincide hmodes n n' (.root h)
  exact hR.bind (compileEntries_compares hR none d.contains hkeys) fun ids => hR.fill _

end GrammarDef

/-! ## Places that are left alone -/

/-- The places of a build come first in another one, as they are. -/
def Build.StartOf (b₀ b : Build) : Prop := b₀.slots.toList <+: b.slots.toList

namespace Build.StartOf
variable {b₀ b : Build}

theorem size_le (h : b₀.StartOf b) : b₀.slots.size ≤ b.slots.size := List.IsPrefix.length_le h

theorem slot (h : b₀.StartOf b) {i : Nat} {slot : Option Mode} (hi : b₀.slots[i]? = some slot) :
    b.slots[i]? = some slot := by
  rw [← Array.getElem?_toList] at hi ⊢
  exact getElem?_of_prefix h hi

theorem push (h : b₀.StartOf b) (named : Entries Nat) : b₀.StartOf ⟨b.slots.push none, named⟩ := by
  rw [StartOf, Array.toList_push]
  exact List.IsPrefix.trans h (List.prefix_append _ _)

end Build.StartOf

/-- Modes that are put into places behind those of `b₀` leave those alone. -/
theorem startOf_invariant (d : GrammarDef) (b₀ : Build) :
    Build.Invariant d b₀.slots.size b₀.StartOf where
  size h := h.size_le
  push h := h.push
  fill {_ m} _ _ hm := by
    intro b _ _ hb h
    cases h
    obtain ⟨later, hlater⟩ := hb
    show _ <+: (b.slots.setIfInBounds m.id (some m)).toList
    rw [Array.toList_setIfInBounds, ← hlater, List.set_append_right _ _ hm]
    exact List.prefix_append _ _

/-- What the root has been compiled to stays at its places. -/
theorem GrammarDef.exists_root_of_compileModes {d : GrammarDef} {u : Unit} {b : Build}
    (h : d.compileModes.run {} = .ok (u, b)) :
    ∃ b₀, (d.compileRoot (d.placeOf d.modes.length)).run {} = .ok ((), b₀) ∧ b₀.StartOf b := by
  rw [compileModes_eq, StateT.run_bind] at h
  obtain ⟨⟨_, b₀⟩, hroot, hrest⟩ := bind_eq_ok.mp h
  refine ⟨b₀, hroot, Preserves.forM (fun e => ?_) d.modes b₀ u b (List.prefix_refl _) hrest⟩
  exact .bind (placeOf_preserves (startOf_invariant d b₀) _ e.1) fun _ => .pure ()

/-! ## Compiled grammars -/

section
variable {d : GrammarDef} {g g' : Grammar} {b : Build}

/-- A grammar begins with the modes that the root has been compiled to. -/
theorem Grammar.exists_root_of_compile (h : compile d = .ok g) :
    ∃ b, (d.compileRoot (d.placeOf d.modes.length)).run {} = .ok ((), b) ∧
      ∀ i < b.slots.size, b.slots[i]? = some (some (g.mode i)) := by
  obtain ⟨u, b, hrun, hfinish, -⟩ := exists_build_of_compile h
  obtain ⟨b₀, hroot, hstart⟩ := GrammarDef.exists_root_of_compileModes hrun
  refine ⟨b₀, hroot, fun i hi => ?_⟩
  have hsize : i < g.modes.size := GrammarDef.finishModes_size hfinish ▸ hi.trans_le hstart.size_le
  have hlast := GrammarDef.finishModes_getElem? hfinish (modes_getElem? hsize)
  have hslot := Array.getElem?_eq_getElem hi
  rw [← hlast, hslot, hstart.slot hslot]

/-- Two grammars that begin with the same modes are the same, as far as a scan can come. -/
theorem Grammar.renames_of_root {modes : Entries ModeDef} (hg : compile d = .ok g)
    (hg' : compile (d.withModes modes) = .ok g')
    (hroot : (d.compileRoot (d.placeOf d.modes.length)).run {} = .ok ((), b))
    (hmodes : ∀ i < b.slots.size, b.slots[i]? = some (some (g.mode i)))
    (hmodes' : ∀ i < b.slots.size, b.slots[i]? = some (some (g'.mode i))) :
    g.Renames (fun s => s) (· < b.slots.size) g' := by
  obtain ⟨-, -, -, -, hname, hkeywords⟩ := exists_build_of_compile hg
  obtain ⟨-, -, -, -, hname', hkeywords'⟩ := exists_build_of_compile hg'
  obtain ⟨sites, hgrows, -⟩ := (compileRoot_yields (placeOf_resolves d _)).ok hroot
  refine ⟨hname'.trans hname.symm, ?_, fun i hi => ?_, fun i hi id hid => ?_, ?_⟩
  · exact hgrows.layout.length ▸ (List.getElem?_eq_some_iff.mp hgrows.layout.root).1
  · rw [Mode.rename_self]
    exact Option.some.inj (Option.some.inj ((hmodes' i hi).symm.trans (hmodes i hi)))
  · exact hgrows.layout.contains_lt (hmodes i hi) hid
  · rw [KeywordTable.rename_self]
    exact Except.ok.inj (hkeywords'.symm.trans hkeywords)

/-- Modes that are not reached from the root change nothing. Where two definitions compile and have
the same modes under the keys that are reached, whatever they have under other keys and in which
order, their grammars give the same result for each text, to the numbers of the modes. -/
theorem unreached_modes_inert (d : GrammarDef) (modes : Entries ModeDef)
    (hmodes : ∀ key, d.Reaches key → modes.get? key = d.modes.get? key)
    (hg : Grammar.compile d = .ok g) (hg' : Grammar.compile (d.withModes modes) = .ok g')
    (policy : IllegalPolicy) (source : String) :
    g'.tokenize policy source = g.tokenize policy source := by
  obtain ⟨b, hroot, hplaces⟩ := Grammar.exists_root_of_compile hg
  obtain ⟨b', hroot', hplaces'⟩ := Grammar.exists_root_of_compile hg'
  have hb : ((), b) = ((), b') := GrammarDef.compileRoot_coincide hmodes _ _ _ _ _ hroot hroot'
  cases hb
  have hrenames := Grammar.renames_of_root hg hg' hroot hplaces hplaces'
  rw [hrenames.tokenize (Grammar.compile_numbered hg) (Grammar.compile_numbered hg')]
  simp only [Tokenization.rename_self]
  cases g.tokenize policy source <;> rfl

end

/-- Modes for remarks between modes that nothing reaches, of which one begins what remarks are and
one goes by the name that is no key. -/
def crowdedModes : Entries ModeDef :=
  [("lost", { scope := some "lost", begin := some (.source "<"), finish := some (.source "e")
              contains := [.ref "remark", .inline { matched := some (.source "x") }] })] ++
    remarksDef.modes ++ [("self", { matched := some (.source "let") })]

theorem reaches_remarksDef {key : String} (h : remarksDef.Reaches key) : key = "remark" := by
  induction h with
  | root h =>
    cases h with
    | ref h => cases List.mem_singleton.mp h; rfl
    | inner h => cases List.mem_singleton.mp h
  | mode _ hm h houter =>
    subst houter
    cases hm
    cases h with
    | ref h => cases h
    | inner h => cases h

theorem unreached_modes_inert_remarks :
    (∀ key, remarksDef.Reaches key → crowdedModes.get? key = remarksDef.modes.get? key) ∧
    ∃ g, Grammar.compile (remarksDef.withModes crowdedModes) = .ok g ∧
      g.tokenize .abort "let <be x>" = .ok keywordAndRemark := by
  have hmodes : ∀ key, remarksDef.Reaches key →
      crowdedModes.get? key = remarksDef.modes.get? key := by
    intro key hkey
    rw [reaches_remarksDef hkey]
    rfl
  have hcrowded : (Grammar.compile (remarksDef.withModes crowdedModes)).toOption.isSome = true := by
    decide +kernel
  obtain ⟨g, hg⟩ := Option.isSome_iff_exists.mp hcrowded
  refine ⟨hmodes, g, eq_ok_of_toOption_eq_some hg, ?_⟩
  rw [unreached_modes_inert remarksDef crowdedModes hmodes compile_eq_remarks
    (eq_ok_of_toOption_eq_some hg)]
  exact tokenize_remarks

end Tinct
