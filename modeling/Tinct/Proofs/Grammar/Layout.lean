import Mathlib.Data.List.Forall2
import Mathlib.Data.List.Infix
import Tinct.Proofs.Grammar.Recursion
import Tinct.Proofs.Grammar.Sites

/-!
# The places of a build

While a grammar is being compiled, each place belongs to a site of the definition, and places that
are taken but not yet filled belong to the sites that are under way:

* `Mode.FitsAt`: a mode that is what its site says, with the places of what is in its list;
* `Layout`: the sites to which the places of a build belong, the places of keys being where the
  build says;
* `Layout.push`, `Layout.fill`: taking a place and filling it;
* `Grows`: what a step of a compilation adds to a layout, which is the sites of what it compiles
  and, whole, those under the keys that it comes upon first; it leaves no place open but those that
  were open before.
-/

namespace Tinct
variable {d : GrammarDef} {b b' : Build} {sites sites' : List Site}

/-! ## Modes at their places -/

/-- The place `id` is what entry `k` of the list at `site` names, if the mode with this list is at
the place `i`. -/
def Names (sites : List Site) (i : Nat) (site : Site) (k : Nat) : ModeEntry ModeDef → Nat → Prop
  | .ref name, id =>
    if name = "self" then site ≠ .root ∧ id = i else sites[id]? = some (.named name)
  | .inline _, id => sites[id]? = some (site.inner k)

/-- The places in `ids` are what the entries of a list name, from entry `k` on. -/
def NamesFrom (sites : List Site) (i : Nat) (site : Site) (k : Nat)
    (es : List (ModeEntry ModeDef)) (ids : List Nat) : Prop :=
  List.Forall₂ (fun e id => Names sites i site e.2 e.1 id) (es.zipIdx k) ids

/-- The mode of the place `i`, compiled from what is written at `site`. -/
structure Mode.FitsAt (d : GrammarDef) (sites : List Site) (i : Nat) (site : Site) (m : Mode) :
    Prop where
  /-- It knows its place. -/
  id : m.id = i
  name : m.name = site.key?
  /-- Only what is in the root has no begin. -/
  variants : m.variants = [] ↔ site = .root
  /-- What it contains is what the list at its site names. -/
  contains : ∃ es, d.listAt? site = some es ∧ NamesFrom sites i site 0 es m.contains

theorem getElem?_of_prefix {α : Type} {as bs : List α} (h : as <+: bs) {i : Nat} {a : α}
    (ha : as[i]? = some a) : bs[i]? = some a := by
  obtain ⟨cs, rfl⟩ := h
  rwa [List.getElem?_append_left (List.getElem?_eq_some_iff.mp ha).1]

theorem Names.mono (h : sites <+: sites') {i k id : Nat} {site : Site} {e : ModeEntry ModeDef}
    (hid : Names sites i site k e id) : Names sites' i site k e id := by
  cases e with
  | ref name =>
    by_cases hself : name = "self"
    · rwa [Names, if_pos hself] at hid ⊢
    · rw [Names, if_neg hself] at hid ⊢
      exact getElem?_of_prefix h hid
  | inline m => exact getElem?_of_prefix h hid

theorem NamesFrom.mono (h : sites <+: sites') {i k : Nat} {site : Site}
    {es : List (ModeEntry ModeDef)} {ids : List Nat} (hids : NamesFrom sites i site k es ids) :
    NamesFrom sites' i site k es ids :=
  List.Forall₂.imp (fun _ _ hid => hid.mono h) hids

/-- What a list names are places of other sites than the root. -/
theorem Names.exists_site {i k id : Nat} {site : Site} {e : ModeEntry ModeDef}
    (hid : Names sites i site k e id) (hsite : sites[i]? = some site) :
    ∃ s, sites[id]? = some s ∧ s ≠ .root := by
  cases e with
  | ref name =>
    by_cases hself : name = "self"
    · rw [Names, if_pos hself] at hid
      exact ⟨site, hid.2 ▸ hsite, hid.1⟩
    · rw [Names, if_neg hself] at hid
      exact ⟨_, hid, nofun⟩
  | inline m => exact ⟨_, hid, nofun⟩

theorem NamesFrom.exists_site {i k id : Nat} {site : Site} {es : List (ModeEntry ModeDef)}
    {ids : List Nat} (hids : NamesFrom sites i site k es ids) (hsite : sites[i]? = some site)
    (hid : id ∈ ids) : ∃ s, sites[id]? = some s ∧ s ≠ .root := by
  unfold NamesFrom at hids
  generalize es.zipIdx k = entries at hids
  induction hids with
  | nil => cases hid
  | cons hname _ ih =>
    rcases List.mem_cons.mp hid with rfl | hid
    · exact hname.exists_site hsite
    · exact ih hid

theorem Mode.FitsAt.mono (h : sites <+: sites') {i : Nat} {site : Site} {m : Mode}
    (hm : m.FitsAt d sites i site) : m.FitsAt d sites' i site := by
  obtain ⟨es, hes, hids⟩ := hm.contains
  exact ⟨hm.id, hm.name, hm.variants, es, hes, hids.mono h⟩

/-! ## Layouts -/

/-- The sites to which the places of a build belong: first the root, and the places of keys are
where the build says. What has been filled in fits its site. -/
structure Layout (d : GrammarDef) (b : Build) (sites : List Site) : Prop where
  length : sites.length = b.slots.size
  root : sites[0]? = some .root
  named : ∀ key id, b.named.get? key = some id ↔ sites[id]? = some (.named key)
  fits : ∀ i (m : Mode), b.slots[i]? = some (some m) → ∃ site, sites[i]? = some site ∧
    m.FitsAt d sites i site

namespace Layout

theorem getElem?_length_append (sites : List Site) (s : Site) :
    (sites ++ [s])[sites.length]? = some s := by
  simp

/-- A place that is taken, for a mode without a key or for one whose key had no place. -/
theorem push (h : Layout d b sites) {s : Site} {named : Entries Nat}
    (hnamed : ∀ key id, named.get? key = some id ↔
      b.named.get? key = some id ∨ id = sites.length ∧ s = .named key) :
    Layout d ⟨b.slots.push none, named⟩ (sites ++ [s]) where
  length := by rw [List.length_append, Array.size_push, h.length]; rfl
  root := getElem?_of_prefix (List.prefix_append _ _) h.root
  named key id := by
    rw [hnamed, h.named, List.getElem?_append]
    split
    · rename_i hlt
      exact ⟨fun hid => hid.resolve_right fun heq => by omega, .inl⟩
    · rename_i hge
      rw [List.getElem?_eq_none (by omega), List.getElem?_singleton]
      split
      · rename_i heq
        simp only [reduceCtorEq, false_or, Option.some.injEq]
        exact ⟨fun hid => hid.2, fun hs => ⟨by omega, hs⟩⟩
      · rename_i hne
        simp only [reduceCtorEq, false_or, iff_false, not_and]
        exact fun heq => absurd heq (by omega)
  fits i m hm := by
    dsimp only at hm
    rw [Array.getElem?_push] at hm
    split at hm
    · cases hm
    · obtain ⟨site, hsite, hfits⟩ := h.fits i m hm
      have hprefix : sites <+: sites ++ [s] := List.prefix_append _ _
      exact ⟨site, getElem?_of_prefix hprefix hsite, hfits.mono hprefix⟩

/-- A place that is filled. -/
theorem fill (h : Layout d b sites) {i : Nat} {site : Site} {m : Mode}
    (hsite : sites[i]? = some site) (hm : m.FitsAt d sites i site) :
    Layout d ⟨b.slots.setIfInBounds m.id (some m), b.named⟩ sites where
  length := by rw [Array.size_setIfInBounds, h.length]
  root := h.root
  named := h.named
  fits j m' hj := by
    dsimp only at hj
    rw [Array.getElem?_setIfInBounds] at hj
    split at hj
    · rename_i heq
      split at hj
      · cases hj
        rw [hm.id] at heq
        exact ⟨site, heq ▸ hsite, heq ▸ hm⟩
      · cases hj
    · exact h.fits j m' hj

/-- What is in its place contains places that have been taken. -/
theorem contains_lt (h : Layout d b sites) {i id : Nat} {m : Mode}
    (hm : b.slots[i]? = some (some m)) (hid : id ∈ m.contains) : id < b.slots.size := by
  obtain ⟨site, hsite, hfits⟩ := h.fits i m hm
  obtain ⟨es, -, hnames⟩ := hfits.contains
  obtain ⟨s, hs, -⟩ := hnames.exists_site hsite hid
  exact h.length ▸ (List.getElem?_eq_some_iff.mp hs).1

end Layout

/-! ## What a step adds -/

/-- The place `i` has been taken and not been filled. -/
def Build.IsOpen (b : Build) (i : Nat) : Prop := b.slots[i]? = some none

/-- From one layout to another: the sites in `own` have got places, and with every key that has got
one, all that is under it. No place is open but those that were. -/
structure Grows (d : GrammarDef) (own : List Site) (b b' : Build) (sites sites' : List Site) :
    Prop where
  layout : Layout d b' sites'
  grown : ∃ new, sites' = sites ++ new ∧
    new.Perm (own ++ (new.filterMap Site.key?).flatMap d.sitesUnder)
  filled : ∀ i, b'.IsOpen i → b.IsOpen i

namespace Grows
variable {own own' : List Site} {b'' : Build} {sites'' : List Site}

theorem refl (h : Layout d b sites) : Grows d [] b b sites sites :=
  ⟨h, ⟨[], by simp, .nil⟩, fun _ hi => hi⟩

theorem prefix_sites (h : Grows d own b b' sites sites') : sites <+: sites' := by
  obtain ⟨new, rfl, -⟩ := h.grown
  exact List.prefix_append _ _

theorem trans (h : Grows d own b b' sites sites') (h' : Grows d own' b' b'' sites' sites'') :
    Grows d (own ++ own') b b'' sites sites'' := by
  refine ⟨h'.layout, ?_, fun i hi => h.filled i (h'.filled i hi)⟩
  obtain ⟨new, rfl, hnew⟩ := h.grown
  obtain ⟨new', rfl, hnew'⟩ := h'.grown
  refine ⟨new ++ new', List.append_assoc _ _ _, (hnew.append hnew').trans ?_⟩
  rw [List.filterMap_append, List.flatMap_append, List.append_assoc, List.append_assoc]
  exact (List.perm_append_comm_assoc _ _ _).append_left own

/-- No key loses its place. -/
theorem unplaced_le (h : Grows d own b b' sites sites') (hb : Layout d b sites) :
    d.unplaced b' ≤ d.unplaced b := by
  refine GrammarDef.unplaced_mono fun key hkey => ?_
  obtain ⟨id, hid⟩ := Option.isSome_iff_exists.mp hkey
  have hplace := getElem?_of_prefix h.prefix_sites ((hb.named key id).mp hid)
  rw [(h.layout.named key id).mpr hplace]
  rfl

/-- A place is taken, and the mode for it is compiled. -/
theorem of_push (h : Layout d b sites) {s : Site} {named : Entries Nat}
    (h' : Grows d own' ⟨b.slots.push none, named⟩ b' (sites ++ [s]) sites')
    (hclosed : ¬ b'.IsOpen sites.length)
    (hown : ∀ new : List Site, new.Perm (own' ++ (new.filterMap Site.key?).flatMap d.sitesUnder) →
      (s :: new).Perm (own ++ ((s :: new).filterMap Site.key?).flatMap d.sitesUnder)) :
    Grows d own b b' sites sites' := by
  obtain ⟨new, rfl, hnew⟩ := h'.grown
  refine ⟨h'.layout, ⟨s :: new, by simp, hown new hnew⟩, fun i hi => ?_⟩
  have hopen := h'.filled i hi
  rw [Build.IsOpen, Array.getElem?_push] at hopen
  split at hopen
  · rename_i heq
    rw [heq, ← h.length] at hi
    exact absurd hi hclosed
  · exact hopen

/-- A mode in place is one of those that are compiled, with the modes inside it. -/
theorem of_inline (h : Layout d b sites) {s : Site} (hkey : s.key? = none)
    (h' : Grows d own ⟨b.slots.push none, b.named⟩ b' (sites ++ [s]) sites')
    (hclosed : ¬ b'.IsOpen sites.length) : Grows d (s :: own) b b' sites sites' := by
  refine of_push h h' hclosed fun new hnew => ?_
  rw [List.filterMap_cons_none hkey]
  exact hnew.cons s

/-- A mode under a key comes with all that is under the key. -/
theorem of_named (h : Layout d b sites) {key : String} {named : Entries Nat}
    (h' : Grows d (sitesFrom (.named key) 0 (d.listOf key)) ⟨b.slots.push none, named⟩ b'
      (sites ++ [.named key]) sites')
    (hclosed : ¬ b'.IsOpen sites.length) : Grows d [] b b' sites sites' := by
  refine of_push h h' hclosed fun new hnew => ?_
  rw [List.filterMap_cons_some (show Site.key? (.named key) = some key from rfl),
    List.flatMap_cons, GrammarDef.sitesUnder]
  exact hnew.cons _

/-- A mode is put into its place, which is open no more. -/
theorem fill (h : Grows d own b b' sites sites') {i : Nat} {site : Site} {m : Mode}
    (hsite : sites'[i]? = some site) (hm : m.FitsAt d sites' i site) :
    Grows d own b ⟨b'.slots.setIfInBounds m.id (some m), b'.named⟩ sites sites' ∧
      ¬ Build.IsOpen ⟨b'.slots.setIfInBounds m.id (some m), b'.named⟩ i := by
  have hopen (j : Nat) : Build.IsOpen ⟨b'.slots.setIfInBounds m.id (some m), b'.named⟩ j →
      j ≠ i ∧ b'.IsOpen j := by
    intro hj
    rw [Build.IsOpen, Array.getElem?_setIfInBounds, hm.id] at hj
    split at hj
    · split at hj <;> cases hj
    · rename_i hne
      exact ⟨Ne.symm hne, hj⟩
  exact ⟨⟨h.layout.fill hsite hm, h.grown, fun j hj => h.filled j (hopen j hj).2⟩,
    fun hi => (hopen i hi).1 rfl⟩

end Grows

end Tinct
