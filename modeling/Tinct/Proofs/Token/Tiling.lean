import Mathlib.Data.List.Basic
import Tinct.Proofs.Text.Offsets
import Tinct.Token

/-!
# Events that cover a text

What it means that leaf tokens leave nothing of a text out, and that regions stand where their
events do:

* `Tiles`: tokens that lie one behind the other, none of them empty;
* `Covers`: events that open and close regions in pairs, each region covered by what stands between
  its two events;
* `Written`: events with some regions still open, as a scan writes them, last first;
* `Written.covers`: once no region is open any more, what has been written covers the text;
* `Covers.tiles`, `Covers.regions_pairwise`, `Covers.exists_enter`: what follows for the tokens, for
  the order of the regions, and for a single region.
-/

namespace Tinct

/-- Tokens that cover a text from `i` to `j`. -/
def Tiles : Nat → Nat → List Token → Prop
  | i, j, [] => i = j
  | i, j, t :: ts => t.span.start = i ∧ i < t.span.stop ∧ Tiles t.span.stop j ts

theorem Tiles.append {i j k : Nat} {ts us : List Token} (h : Tiles i j ts) (h' : Tiles j k us) :
    Tiles i k (ts ++ us) := by
  induction ts generalizing i with
  | nil => cases h; exact h'
  | cons t ts ih => exact ⟨h.1, h.2.1, ih h.2.2⟩

theorem Tiles.le {i j : Nat} {ts : List Token} (h : Tiles i j ts) : i ≤ j := by
  induction ts generalizing i with
  | nil => exact Nat.le_of_eq h
  | cons t ts ih => exact Nat.le_trans (Nat.le_of_lt h.2.1) (ih h.2.2)

/-- Only an empty text is covered by no token. -/
theorem Tiles.eq_nil_iff {i j : Nat} {ts : List Token} (h : Tiles i j ts) : ts = [] ↔ i = j := by
  cases ts with
  | nil => exact ⟨fun _ => h, fun _ => rfl⟩
  | cons t ts =>
    have := h.2.2.le
    exact ⟨nofun, fun hij => absurd h.2.1 (by omega)⟩

theorem Tiles.within {i j : Nat} {ts : List Token} (h : Tiles i j ts) :
    ∀ t ∈ ts, i ≤ t.span.start ∧ t.span.start < t.span.stop ∧ t.span.stop ≤ j := by
  induction ts generalizing i with
  | nil => exact nofun
  | cons t ts ih =>
    obtain ⟨hstart, hlt, hts⟩ := h
    refine List.forall_mem_cons.mpr ⟨⟨Nat.le_of_eq hstart.symm, hstart ▸ hlt, hts.le⟩, ?_⟩
    intro t' ht'
    obtain ⟨h1, h2⟩ := ih hts t' ht'
    exact ⟨Nat.le_trans (Nat.le_of_lt hlt) h1, h2⟩

/-- The texts of tokens that cover a text make up the text. -/
theorem Tiles.join_extract {i j : Nat} {ts : List Token} (h : Tiles i j ts) (text : Text) :
    String.join (ts.map fun t => text.extract t.span) = text.extract ⟨i, j⟩ := by
  induction ts generalizing i with
  | nil =>
    cases h
    simp [Text.extract]
  | cons t ts ih =>
    obtain ⟨rfl, hlt, hts⟩ := h
    rw [List.map_cons, String.join_cons, ih hts]
    exact text.extract_append_extract (Nat.le_of_lt hlt) hts.le

/-- The leaf tokens among events. -/
def leaves (es : List Event) : List Token :=
  es.filterMap fun
    | .token t => some t
    | _ => none

/-- The regions that close among events. -/
def closings (es : List Event) : List Region :=
  es.filterMap fun
    | .exit mode scope span closure => some ⟨mode, scope, span, closure⟩
    | _ => none

theorem Tokenization.tokens_eq (r : Tokenization) : r.tokens = leaves r.events := rfl

@[simp] theorem leaves_append (es fs : List Event) : leaves (es ++ fs) = leaves es ++ leaves fs :=
  List.filterMap_append

@[simp] theorem closings_append (es fs : List Event) :
    closings (es ++ fs) = closings es ++ closings fs :=
  List.filterMap_append

theorem leaves_map (f : Nat → Nat) (es : List Event) :
    leaves (es.map (·.mapOffsets f)) =
      (leaves es).map fun t => { t with span := t.span.map f } := by
  induction es with
  | nil => rfl
  | cons e es ih => cases e <;> simpa [leaves, Event.mapOffsets] using ih

@[simp] theorem closings_reverse (es : List Event) :
    closings es.reverse = (closings es).reverse :=
  List.filterMap_reverse

theorem closings_map (f : Nat → Nat) (es : List Event) :
    closings (es.map (·.mapOffsets f)) =
      (closings es).map fun r => { r with span := r.span.map f } := by
  induction es with
  | nil => rfl
  | cons e es ih => cases e <;> simpa [closings, Event.mapOffsets] using ih

/-- Events that cover a text from `i` to `j`: tokens one behind the other, and between them regions
that are covered themselves. A region exits with the mode, the scope and the offset with which it
was entered. -/
inductive Covers : Nat → Nat → List Event → Prop where
  | nil (i : Nat) : Covers i i []
  | token {t : Token} {j : Nat} {es : List Event} (ht : t.span.start < t.span.stop)
      (hes : Covers t.span.stop j es) : Covers t.span.start j (.token t :: es)
  | region {i k j mode : Nat} {scope : Option Scope} {closure : Closure} {inner es : List Event}
      (hinner : Covers i k inner) (hes : Covers k j es) :
      Covers i j (.enter mode scope i :: (inner ++ .exit mode scope ⟨i, k⟩ closure :: es))

namespace Covers

theorem append {i j k : Nat} {es fs : List Event} (h : Covers i j es) (h' : Covers j k fs) :
    Covers i k (es ++ fs) := by
  induction h with
  | nil => exact h'
  | token ht _ ih => exact .token ht (ih h')
  | region hinner _ _ ih =>
    rw [List.cons_append, List.append_assoc]
    exact .region hinner (ih h')

theorem le {i j : Nat} {es : List Event} (h : Covers i j es) : i ≤ j := by
  induction h with
  | nil => exact Nat.le_refl _
  | token ht _ ih => omega
  | region _ _ ih₁ ih₂ => omega

/-- The tokens of covering events cover the same text. -/
theorem tiles {i j : Nat} {es : List Event} (h : Covers i j es) : Tiles i j (leaves es) := by
  induction h with
  | nil => exact rfl
  | token ht _ ih => exact ⟨rfl, ht, ih⟩
  | region _ _ ih₁ ih₂ =>
    rw [← List.singleton_append, leaves_append, leaves_append]
    exact ih₁.append ih₂

theorem within {i j : Nat} {es : List Event} (h : Covers i j es) :
    ∀ r ∈ closings es, i ≤ r.span.start ∧ r.span.start ≤ r.span.stop ∧ r.span.stop ≤ j := by
  induction h with
  | nil => exact nofun
  | token ht _ ih =>
    intro r hr
    have := ih r hr
    exact ⟨by omega, this.2⟩
  | @region i k j mode scope closure inner es hinner hes ih₁ ih₂ =>
    intro r hr
    rw [← List.singleton_append, closings_append, closings_append] at hr
    have hik := hinner.le
    have hkj := hes.le
    rcases List.mem_append.mp hr with hr | hr
    · cases hr
    rcases List.mem_append.mp hr with hr | hr
    · obtain ⟨h1, h2, h3⟩ := ih₁ r hr
      exact ⟨h1, h2, by omega⟩
    rcases List.mem_cons.mp hr with rfl | hr
    · exact ⟨Nat.le_refl _, hik, hkj⟩
    · obtain ⟨h1, h2⟩ := ih₂ r hr
      exact ⟨by omega, h2⟩

/-- Of two regions the one that closes first lies in front of the other or inside it. -/
theorem regions_pairwise {i j : Nat} {es : List Event} (h : Covers i j es) :
    (closings es).Pairwise fun r s =>
      r.span.stop ≤ s.span.start ∨ s.span.start ≤ r.span.start ∧ r.span.stop ≤ s.span.stop := by
  induction h with
  | nil => exact .nil
  | token _ _ ih => exact ih
  | @region i k j mode scope closure inner es hinner hes ih₁ ih₂ =>
    rw [← List.singleton_append, closings_append, closings_append]
    refine List.pairwise_append.mpr ⟨.nil, List.pairwise_append.mpr ⟨ih₁, ?_, ?_⟩, nofun⟩
    · refine List.pairwise_cons.mpr ⟨fun s hs => ?_, ih₂⟩
      exact .inl (hes.within s hs).1
    · intro r hr s hs
      obtain ⟨h1, h2, h3⟩ := hinner.within r hr
      rcases List.mem_cons.mp hs with rfl | hs
      · exact .inr ⟨h1, h3⟩
      · have := (hes.within s hs).1
        exact .inl (by omega)

/-- In front of the exit of a region stand its enter and, behind that, events that cover the
region. What closed before the enter lies in front of the region. -/
theorem exists_enter {i j : Nat} {es : List Event} (h : Covers i j es) {front back : List Event}
    {mode : Nat} {scope : Option Scope} {span : Span} {closure : Closure}
    (hes : es = front ++ .exit mode scope span closure :: back) :
    ∃ outer inner, front = outer ++ .enter mode scope span.start :: inner ∧
      Covers span.start span.stop inner ∧ ∀ r ∈ closings outer, r.span.stop ≤ span.start := by
  induction h generalizing front back with
  | nil => cases front <;> cases hes
  | token _ _ ih =>
    cases front with
    | nil => cases hes
    | cons e front =>
      obtain ⟨rfl, htail⟩ := List.cons.inj hes
      obtain ⟨outer, inner, rfl, hinner, houter⟩ := ih htail
      exact ⟨_ :: outer, inner, rfl, hinner, houter⟩
  | @region i k j mode' scope' closure' inner' es hinner' hes' ih₁ ih₂ =>
    cases front with
    | nil => cases hes
    | cons e front =>
      obtain ⟨rfl, htail⟩ := List.cons.inj hes
      -- the exit stands inside this region, or it is this region's, or it stands behind
      rcases List.append_eq_append_iff.mp htail with ⟨mid, rfl, hmid⟩ | ⟨mid, rfl, hmid⟩
      · cases mid with
        | nil =>
          obtain ⟨hexit, -⟩ := List.cons.inj hmid
          cases hexit
          exact ⟨[], inner', by simp, hinner', nofun⟩
        | cons e mid =>
          obtain ⟨rfl, hback⟩ := List.cons.inj hmid
          obtain ⟨outer, inner, rfl, hinner, houter⟩ := ih₂ hback
          have hspan := (hes'.within ⟨mode, scope, span, closure⟩ (by simp [hback, closings])).1
          refine ⟨.enter mode' scope' i :: (inner' ++ .exit mode' scope' ⟨i, k⟩ closure' :: outer),
            inner, by simp, hinner, fun r hr => ?_⟩
          rw [← List.singleton_append, closings_append, closings_append] at hr
          rcases List.mem_append.mp hr with hr | hr
          · cases hr
          rcases List.mem_append.mp hr with hr | hr
          · exact Nat.le_trans (hinner'.within r hr).2.2 hspan
          rcases List.mem_cons.mp hr with rfl | hr
          · exact hspan
          · exact houter r hr
      · cases mid with
        | nil =>
          obtain ⟨hexit, -⟩ := List.cons.inj hmid
          cases hexit
          exact ⟨[], front, by simp, by simpa using hinner', nofun⟩
        | cons e mid =>
          obtain ⟨rfl, -⟩ := List.cons.inj hmid
          obtain ⟨outer, inner, rfl, hinner, houter⟩ := ih₁ rfl
          exact ⟨_ :: outer, inner, rfl, hinner, houter⟩

end Covers

/-! ## Events as they are written -/

/-- A region that has been entered and not left. -/
structure OpenRegion where
  mode : Nat
  scope : Option Scope
  start : Nat
deriving DecidableEq, Repr

/-- Events that a scan has written up to the position `i`, last first, with the regions that are
open, innermost first. -/
inductive Written : List OpenRegion → Nat → List Event → Prop where
  | nil : Written [] 0 []
  | token {os : List OpenRegion} {i : Nat} {es : List Event} {t : Token} (h : Written os i es)
      (hi : t.span.start = i) (ht : i < t.span.stop) : Written os t.span.stop (.token t :: es)
  | enter {os : List OpenRegion} {i : Nat} {es : List Event} (h : Written os i es) (mode : Nat)
      (scope : Option Scope) : Written (⟨mode, scope, i⟩ :: os) i (.enter mode scope i :: es)
  | exit {o : OpenRegion} {os : List OpenRegion} {i : Nat} {es : List Event}
      (h : Written (o :: os) i es) (closure : Closure) :
      Written os i (.exit o.mode o.scope ⟨o.start, i⟩ closure :: es)

/-- Events that cover a text up to `i` but for the exits of the open regions. -/
def CoversOpen : List OpenRegion → Nat → List Event → Prop
  | [], i, es => Covers 0 i es
  | o :: os, i, es => ∃ outer inner, es = outer ++ .enter o.mode o.scope o.start :: inner ∧
      CoversOpen os o.start outer ∧ Covers o.start i inner

theorem CoversOpen.append {os : List OpenRegion} {i j : Nat} {es fs : List Event}
    (h : CoversOpen os i es) (hfs : Covers i j fs) : CoversOpen os j (es ++ fs) := by
  cases os with
  | nil => exact Covers.append h hfs
  | cons o os =>
    obtain ⟨outer, inner, rfl, houter, hinner⟩ := h
    exact ⟨outer, inner ++ fs, by simp, houter, hinner.append hfs⟩

theorem Written.coversOpen {os : List OpenRegion} {i : Nat} {es : List Event}
    (h : Written os i es) : CoversOpen os i es.reverse := by
  induction h with
  | nil => exact .nil 0
  | token _ hi ht ih =>
    subst hi
    rw [List.reverse_cons]
    exact ih.append (.token ht (.nil _))
  | enter _ mode scope ih =>
    rw [List.reverse_cons]
    exact ⟨_, [], rfl, ih, .nil _⟩
  | @exit o os i es _ closure ih =>
    obtain ⟨outer, inner, hes, houter, hinner⟩ := ih
    have hregion : Covers o.start i
        (.enter o.mode o.scope o.start ::
          (inner ++ [.exit o.mode o.scope ⟨o.start, i⟩ closure])) :=
      .region hinner (.nil i)
    rw [List.reverse_cons, hes, List.append_assoc, List.cons_append]
    exact houter.append hregion

/-- What has been written covers the text once every region is left. -/
theorem Written.covers {i : Nat} {es : List Event} (h : Written [] i es) :
    Covers 0 i es.reverse :=
  h.coversOpen

/-- Offsets that grow with the position carry what is written over to them. -/
theorem Written.map {f : Nat → Nat} {n : Nat} (h0 : f 0 = 0)
    (hf : ∀ i j, i < j → j ≤ n → f i < f j) {os : List OpenRegion} {i : Nat} {es : List Event}
    (h : Written os i es) (hi : i ≤ n) :
    Written (os.map fun o => { o with start := f o.start }) (f i)
      (es.map (·.mapOffsets f)) := by
  induction h with
  | nil => rw [h0]; exact .nil
  | @token os i es t _ hstart ht ih =>
    exact .token (t := ⟨t.span.map f, t.scope, t.kind⟩) (ih (by omega)) (congrArg f hstart)
      (hf _ _ ht hi)
  | enter _ mode scope ih => exact .enter (ih hi) mode scope
  | exit _ closure ih => exact .exit (ih hi) closure

end Tinct
