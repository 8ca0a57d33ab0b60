import Mathlib.Algebra.GroupWithZero.Nat
import Mathlib.Data.List.Dedup
import Mathlib.Data.List.Nodup
import Tinct.Grammar.Definition

/-!
# Where modes stand in a definition

A definition writes a mode under a key, or in place in the list of another mode:

* `Site`: where a list of modes stands, which is that of the root, that of the mode under a key, or
  that of a mode that stands in a list itself;
* `GrammarDef.listAt?`: the list at a site;
* `GrammarDef.sites`: all sites of a definition;
* `GrammarDef.sites_nodup`: no site comes twice;
* `GrammarDef.length_sites`: there is one for the root, one for each key, and one for each mode that
  stands in a list.

The keys of a definition are those of its ordered entries, so that one that comes twice counts once
(`GrammarDef.modeKeys`).
-/

namespace Tinct

/-- Where a mode and its list are written. -/
inductive Site where
  | root
  | named (key : String)
  /-- In place, as the entry `index` of the list at `outer`. -/
  | inner (outer : Site) (index : Nat)
deriving DecidableEq, Repr

namespace Site

/-- The key of the mode itself. -/
def key? : Site → Option String
  | named key => some key
  | _ => none

end Site

/-! ## Sites of a list -/

mutual

/-- The sites inside a mode that is written at `site`. -/
def sitesIn (site : Site) : ModeDef → List Site
  | ⟨_, _, _, _, _, _, _, _, contains, _, _, _, _, _, _, _, _, _⟩ => sitesFrom site 0 contains

/-- The sites of a list at `site` from its entry `k` on. -/
def sitesFrom (site : Site) (k : Nat) : List (ModeEntry ModeDef) → List Site
  | [] => []
  | e :: es => sitesOf (site.inner k) e ++ sitesFrom site (k + 1) es

/-- The sites of an entry that is written at `site`. -/
def sitesOf (site : Site) : ModeEntry ModeDef → List Site
  | .ref _ => []
  | .inline m => site :: sitesIn site m

end

mutual

/-- How many modes are written in place inside a mode. -/
def inlinesIn : ModeDef → Nat
  | ⟨_, _, _, _, _, _, _, _, contains, _, _, _, _, _, _, _, _, _⟩ => inlinesFrom contains

def inlinesFrom : List (ModeEntry ModeDef) → Nat
  | [] => 0
  | e :: es => inlinesOf e + inlinesFrom es

def inlinesOf : ModeEntry ModeDef → Nat
  | .ref _ => 0
  | .inline m => 1 + inlinesIn m

end

theorem sitesIn_eq (site : Site) (m : ModeDef) :
    sitesIn site m = sitesFrom site 0 m.contains := by
  cases m
  rw [sitesIn]

mutual

theorem length_sitesIn (site : Site) : ∀ m : ModeDef,
    (sitesIn site m).length = inlinesIn m
  | ⟨_, _, _, _, _, _, _, _, contains, _, _, _, _, _, _, _, _, _⟩ => by
    rw [sitesIn, inlinesIn]
    exact length_sitesFrom site 0 contains

theorem length_sitesFrom (site : Site) (k : Nat) : ∀ es : List (ModeEntry ModeDef),
    (sitesFrom site k es).length = inlinesFrom es
  | [] => by rw [sitesFrom, inlinesFrom]; rfl
  | e :: es => by
    rw [sitesFrom, inlinesFrom, List.length_append]
    rw [length_sitesOf (site.inner k) e, length_sitesFrom site (k + 1) es]

theorem length_sitesOf (site : Site) : ∀ e : ModeEntry ModeDef,
    (sitesOf site e).length = inlinesOf e
  | .ref _ => by rw [sitesOf, inlinesOf]; rfl
  | .inline m => by
    rw [sitesOf, inlinesOf, List.length_cons, length_sitesIn site m]
    omega

end

/-! ## Sites inside each other -/

namespace Site

/-- The site itself and those inside it. -/
inductive Holds (site : Site) : Site → Prop where
  | self : Holds site site
  | inner {s : Site} (h : Holds site s) (k : Nat) : Holds site (s.inner k)

/-- How many lists a site stands in. -/
def depth : Site → Nat
  | inner outer _ => outer.depth + 1
  | _ => 0

variable {r s t : Site}

theorem Holds.depth_le (h : s.Holds t) : s.depth ≤ t.depth := by
  induction h with
  | self => exact Nat.le_refl _
  | inner _ _ ih => exact Nat.le_succ_of_le ih

theorem Holds.trans (h : r.Holds s) (h' : s.Holds t) : r.Holds t := by
  induction h' with
  | self => exact h
  | inner _ k ih => exact ih.inner k

/-- Two sites that hold the same one and are equally deep are the same. -/
theorem Holds.eq_of_depth_eq (h : r.Holds t) (h' : s.Holds t) (hdepth : r.depth = s.depth) :
    r = s := by
  induction h with
  | self =>
    cases h' with
    | self => rfl
    | inner h' k =>
      have := h'.depth_le
      rw [depth] at hdepth
      omega
  | @inner t h k ih =>
    cases h' with
    | self =>
      have := h.depth_le
      rw [hdepth, depth] at this
      omega
    | inner h' => exact ih h'

end Site

mutual

theorem holds_of_mem_sitesIn {site s : Site} : ∀ m : ModeDef, s ∈ sitesIn site m →
    ∃ k, (site.inner k).Holds s
  | ⟨_, _, _, _, _, _, _, _, contains, _, _, _, _, _, _, _, _, _⟩, h => by
    rw [sitesIn] at h
    obtain ⟨k, -, hk⟩ := holds_of_mem_sitesFrom 0 contains h
    exact ⟨k, hk⟩

theorem holds_of_mem_sitesFrom {site s : Site} (k : Nat) : ∀ es : List (ModeEntry ModeDef),
    s ∈ sitesFrom site k es → ∃ j, k ≤ j ∧ (site.inner j).Holds s
  | [], h => by
    rw [sitesFrom] at h
    cases h
  | e :: es, h => by
    rw [sitesFrom, List.mem_append] at h
    rcases h with h | h
    · exact ⟨k, Nat.le_refl k, holds_of_mem_sitesOf e h⟩
    · obtain ⟨j, hj, hs⟩ := holds_of_mem_sitesFrom (k + 1) es h
      exact ⟨j, by omega, hs⟩

theorem holds_of_mem_sitesOf {site s : Site} : ∀ e : ModeEntry ModeDef,
    s ∈ sitesOf site e → site.Holds s
  | .ref _, h => by
    rw [sitesOf] at h
    cases h
  | .inline m, h => by
    rw [sitesOf, List.mem_cons] at h
    rcases h with rfl | h
    · exact .self
    · obtain ⟨k, hk⟩ := holds_of_mem_sitesIn m h
      exact (Site.Holds.self.inner k).trans hk

end

mutual

theorem sitesIn_nodup (site : Site) : ∀ m : ModeDef, (sitesIn site m).Nodup
  | ⟨_, _, _, _, _, _, _, _, contains, _, _, _, _, _, _, _, _, _⟩ => by
    rw [sitesIn]
    exact sitesFrom_nodup site 0 contains

theorem sitesFrom_nodup (site : Site) (k : Nat) : ∀ es : List (ModeEntry ModeDef),
    (sitesFrom site k es).Nodup
  | [] => by
    rw [sitesFrom]
    exact List.nodup_nil
  | e :: es => by
    rw [sitesFrom]
    refine (sitesOf_nodup (site.inner k) e).append (sitesFrom_nodup site (k + 1) es) ?_
    intro s hs hs'
    obtain ⟨j, hj, hheld⟩ := holds_of_mem_sitesFrom (k + 1) es hs'
    have heq := (holds_of_mem_sitesOf e hs).eq_of_depth_eq hheld rfl
    cases heq
    omega

theorem sitesOf_nodup (site : Site) : ∀ e : ModeEntry ModeDef,
    (sitesOf site e).Nodup
  | .ref _ => by
    rw [sitesOf]
    exact List.nodup_nil
  | .inline m => by
    rw [sitesOf]
    refine List.nodup_cons.mpr ⟨fun h => ?_, sitesIn_nodup site m⟩
    obtain ⟨k, hk⟩ := holds_of_mem_sitesIn m h
    have := hk.depth_le
    rw [Site.depth] at this
    omega

end

/-! ## Sites of a definition -/

namespace GrammarDef
variable (d : GrammarDef)

/-- The keys under which modes are written. -/
def modeKeys : List String := (d.modes.map (·.1)).dedup

/-- The list of modes at a site. -/
def listAt? : Site → Option (List (ModeEntry ModeDef))
  | .root => some d.contains
  | .named key => (d.modes.get? key).map (·.contains)
  | .inner outer index =>
    match (listAt? outer).bind (·[index]?) with
    | some (.inline m) => some m.contains
    | _ => none

/-- The list of the mode under a key. -/
def listOf (key : String) : List (ModeEntry ModeDef) :=
  ((d.modes.get? key).map (·.contains)).getD []

/-- The mode under a key and the modes inside it. -/
def sitesUnder (key : String) : List Site :=
  .named key :: sitesFrom (.named key) 0 (d.listOf key)

/-- All sites: the root and what is in it, and what is under each key. -/
def sites : List Site :=
  .root :: (sitesFrom .root 0 d.contains ++ d.modeKeys.flatMap d.sitesUnder)

/-- How many modes are written in place in all lists of a definition. -/
def inlineCount : Nat :=
  inlinesFrom d.contains + (d.modeKeys.map fun key => inlinesFrom (d.listOf key)).sum

theorem length_sites : d.sites.length = 1 + d.modeKeys.length + d.inlineCount := by
  have hkeys : ∀ keys : List String, (keys.flatMap d.sitesUnder).length =
      keys.length + (keys.map fun key => inlinesFrom (d.listOf key)).sum := by
    intro keys
    induction keys with
    | nil => rfl
    | cons key keys ih =>
      rw [List.flatMap_cons, List.length_append, ih, sitesUnder, List.length_cons,
        length_sitesFrom, List.length_cons, List.map_cons, List.sum_cons]
      omega
  rw [sites, List.length_cons, List.length_append, length_sitesFrom, hkeys, inlineCount]
  omega

theorem holds_of_mem_sitesUnder {key : String} {s : Site} (h : s ∈ d.sitesUnder key) :
    (Site.named key).Holds s := by
  rcases List.mem_cons.mp h with rfl | h
  · exact .self
  · obtain ⟨k, -, hk⟩ := holds_of_mem_sitesFrom 0 _ h
    exact (Site.Holds.self.inner k).trans hk

/-- No site comes twice. -/
theorem sites_nodup : d.sites.Nodup := by
  have hunder (key : String) : (d.sitesUnder key).Nodup := by
    refine List.nodup_cons.mpr ⟨fun h => ?_, sitesFrom_nodup _ _ _⟩
    obtain ⟨k, -, hk⟩ := holds_of_mem_sitesFrom 0 _ h
    exact absurd hk.depth_le (Nat.not_succ_le_zero _)
  have hkeys : (d.modeKeys.flatMap d.sitesUnder).Nodup := by
    refine List.nodup_flatMap.mpr ⟨fun key _ => hunder key, ?_⟩
    refine (List.nodup_dedup _).imp fun hne s hs hs' => hne ?_
    have heq := (d.holds_of_mem_sitesUnder hs).eq_of_depth_eq (d.holds_of_mem_sitesUnder hs') rfl
    cases heq
    rfl
  have hroot : ∀ s ∈ sitesFrom .root 0 d.contains, Site.root.Holds s := by
    intro s hs
    obtain ⟨k, -, hk⟩ := holds_of_mem_sitesFrom 0 _ hs
    exact (Site.Holds.self.inner k).trans hk
  have hapart : ∀ s ∈ d.modeKeys.flatMap d.sitesUnder, ¬ Site.root.Holds s := by
    intro s hs hheld
    obtain ⟨key, -, hkey⟩ := List.mem_flatMap.mp hs
    cases hheld.eq_of_depth_eq (d.holds_of_mem_sitesUnder hkey) rfl
  refine List.nodup_cons.mpr ⟨fun h => ?_, ?_⟩
  · rcases List.mem_append.mp h with h | h
    · obtain ⟨k, -, hk⟩ := holds_of_mem_sitesFrom 0 _ h
      exact absurd hk.depth_le (Nat.not_succ_le_zero _)
    · exact hapart _ h .self
  · exact (sitesFrom_nodup _ _ _).append hkeys fun s hs hs' => hapart s hs' (hroot s hs)

end GrammarDef
end Tinct
