import Tinct.Grammar.Mode
import Tinct.Proofs.Token.Tiling

/-!
# Where an event stands

Reading events from the first to the last, one knows at each of them which regions are open:

* `openBehind`: the regions that are open behind some events;
* `textScope`, `Grammar.innermost`: the scope of plain text and the mode that the open regions give;
* `enteredModes`: the modes that have begun;
* `keywordWeight`: what the keywords among events weigh, each in the table of the mode in which it
  stands.

None of this depends on the offsets of the events (`openBehind_map`, `keywordWeight_map`), and what
has been written up to a position has no other offsets than those up to it (`Written.map_congr`).
-/

namespace Tinct

/-- The regions that are open behind an event, where `os` are open in front of it. -/
def Event.reopen (os : List OpenRegion) : Event → List OpenRegion
  | enter mode scope offset => ⟨mode, scope, offset⟩ :: os
  | token _ => os
  | exit _ _ _ _ => os.tail

/-- The regions that are open behind events, innermost first. -/
def openBehind (es : List Event) : List OpenRegion := es.foldl Event.reopen []

@[simp] theorem openBehind_nil : openBehind [] = [] := rfl

@[simp] theorem openBehind_concat (es : List Event) (e : Event) :
    openBehind (es ++ [e]) = e.reopen (openBehind es) := by
  simp [openBehind]

/-- The scope of plain text: that of the innermost region that has one. -/
def textScope (os : List OpenRegion) : Option Scope := os.findSome? (·.scope)

theorem textScope_cons (o : OpenRegion) (os : List OpenRegion) :
    textScope (o :: os) = o.scope.or (textScope os) := by
  rw [textScope, List.findSome?_cons]
  cases o.scope <;> rfl

/-- The mode of the innermost open region, or of the text outside every region. -/
def Grammar.innermost (g : Grammar) : List OpenRegion → Mode
  | [] => g.root
  | o :: _ => g.mode o.mode

/-- The modes that begin among events. -/
def enteredModes (es : List Event) : List Nat :=
  es.filterMap fun
    | .enter mode _ _ => some mode
    | _ => none

@[simp] theorem enteredModes_append (es fs : List Event) :
    enteredModes (es ++ fs) = enteredModes es ++ enteredModes fs :=
  List.filterMap_append

/-- What a word weighs as a keyword in a mode. -/
def Grammar.wordWeight (g : Grammar) (m : Mode) (word : String) : Nat :=
  ((g.effectiveKeywords m).1.lookup word).elim 0 (·.weight)

section weight
variable (g : Grammar) (read : Span → String)

/-- What an event weighs where `os` are open. Of all events only keywords weigh something; `read`
gives their words. -/
def Event.weight (os : List OpenRegion) : Event → Nat
  | token t => if t.kind = .keyword then g.wordWeight (g.innermost os) (read t.span) else 0
  | enter _ _ _ | exit _ _ _ _ => 0

/-- What the keywords among events weigh, where `os` are open in front of the first event. -/
def keywordWeight : List OpenRegion → List Event → Nat
  | _, [] => 0
  | os, e :: es => e.weight g read os + keywordWeight (e.reopen os) es

theorem keywordWeight_concat (os : List OpenRegion) (es : List Event) (e : Event) :
    keywordWeight g read os (es ++ [e]) =
      keywordWeight g read os es + e.weight g read (es.foldl Event.reopen os) := by
  induction es generalizing os with
  | nil => simp [keywordWeight]
  | cons e' es ih => rw [List.cons_append, keywordWeight, ih, keywordWeight, Nat.add_assoc]; rfl

end weight

/-! ## Other offsets -/

section offsets
variable (f : Nat → Nat)

/-- The region where it starts at another offset. -/
def OpenRegion.mapOffset (o : OpenRegion) : OpenRegion := { o with start := f o.start }

theorem reopen_map (os : List OpenRegion) (e : Event) :
    (e.mapOffsets f).reopen (os.map (·.mapOffset f)) = (e.reopen os).map (·.mapOffset f) := by
  cases e with
  | enter mode scope offset => rfl
  | token t => rfl
  | exit mode scope span closure => exact List.map_tail.symm

theorem foldl_reopen_map (os : List OpenRegion) (es : List Event) :
    (es.map (·.mapOffsets f)).foldl Event.reopen (os.map (·.mapOffset f)) =
      (es.foldl Event.reopen os).map (·.mapOffset f) := by
  induction es generalizing os with
  | nil => rfl
  | cons e es ih => rw [List.map_cons, List.foldl_cons, reopen_map, ih, List.foldl_cons]

theorem openBehind_map (es : List Event) :
    openBehind (es.map (·.mapOffsets f)) = (openBehind es).map (·.mapOffset f) :=
  foldl_reopen_map f [] es

@[simp] theorem textScope_map (os : List OpenRegion) :
    textScope (os.map (·.mapOffset f)) = textScope os := by
  rw [textScope, List.findSome?_map]
  rfl

@[simp] theorem innermost_map (g : Grammar) (os : List OpenRegion) :
    g.innermost (os.map (·.mapOffset f)) = g.innermost os := by
  cases os <;> rfl

@[simp] theorem enteredModes_map (es : List Event) :
    enteredModes (es.map (·.mapOffsets f)) = enteredModes es := by
  induction es with
  | nil => rfl
  | cons e es ih => cases e <;> simpa [enteredModes, Event.mapOffsets] using ih

/-- Keywords weigh the same where their words are the same. -/
theorem keywordWeight_map (g : Grammar) {read read' : Span → String} (os : List OpenRegion)
    {es : List Event} (hread : ∀ t ∈ leaves es, read' (t.span.map f) = read t.span) :
    keywordWeight g read' (os.map (·.mapOffset f)) (es.map (·.mapOffsets f)) =
      keywordWeight g read os es := by
  induction es generalizing os with
  | nil => rfl
  | cons e es ih =>
    rw [← List.singleton_append, leaves_append] at hread
    have hrest := ih (e.reopen os) fun t ht => hread t (List.mem_append_right _ ht)
    rw [List.map_cons, keywordWeight, reopen_map, hrest, keywordWeight]
    congr 1
    cases e with
    | enter mode scope offset => rfl
    | token t =>
      have ht : read' (t.span.map f) = read t.span := hread t (by simp [leaves])
      simp only [Event.mapOffsets, Event.weight, innermost_map, ht]
    | exit mode scope span closure => rfl

end offsets

/-! ## Offsets of what has been written -/

theorem Written.start_le {os : List OpenRegion} {i : Nat} {es : List Event}
    (h : Written os i es) : ∀ o ∈ os, o.start ≤ i := by
  induction h with
  | nil => exact nofun
  | token _ hi ht ih => exact fun o ho => Nat.le_trans (ih o ho) (Nat.le_of_lt ht)
  | enter _ mode scope ih => exact List.forall_mem_cons.mpr ⟨Nat.le_refl _, ih⟩
  | exit _ closure ih => exact (List.forall_mem_cons.mp ih).2

/-- What has been written lies at positions up to the last one. -/
theorem Written.map_congr {f f' : Nat → Nat} {n : Nat} (hf : ∀ i ≤ n, f i = f' i)
    {os : List OpenRegion} {i : Nat} {es : List Event} (h : Written os i es) (hi : i ≤ n) :
    es.map (·.mapOffsets f) = es.map (·.mapOffsets f') := by
  induction h with
  | nil => rfl
  | @token os i es t h hstart ht ih =>
    have hspan : t.span.map f = t.span.map f' := by
      rw [Span.map, Span.map, hf t.span.start (by omega), hf t.span.stop hi]
    rw [List.map_cons, List.map_cons, ih (by omega), Event.mapOffsets, hspan, Event.mapOffsets]
  | enter _ mode scope ih =>
    rw [List.map_cons, List.map_cons, ih hi, Event.mapOffsets, hf _ hi, Event.mapOffsets]
  | @exit o os i es h closure ih =>
    have hstart := h.start_le o List.mem_cons_self
    have hspan : Span.map f ⟨o.start, i⟩ = Span.map f' ⟨o.start, i⟩ := by
      rw [Span.map, Span.map, hf o.start (Nat.le_trans hstart hi), hf i hi]
    rw [List.map_cons, List.map_cons, ih hi, Event.mapOffsets, hspan, Event.mapOffsets]

end Tinct
