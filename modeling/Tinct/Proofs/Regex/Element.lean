import Tinct.Proofs.Regex.SimpleForm
import Tinct.Regex.Parser

/-!
# The elements of a regular expression

Reading one element of a source takes two steps: what it is, which only the source and the flags in
force decide, and what it does to what has been read:

* `Flags.element?`: the element at the front of a source;
* `Reading.take?`: an element is added to what has been read;
* `Reading.step?_eq`: both together are a step of the reader;
* `Flags.Yields`, `Flags.element?_yields`: what the element at the front of a source may be;
* `Reading.Simple`: what has been read is in simple form, which each element keeps.
-/

namespace Tinct.Regex

/-- An element of a source. -/
inductive Element where
  /-- A literal, a class or an assertion. -/
  | item (i : Item)
  /-- A group that records opens. -/
  | numbered (name : Option String)
  /-- Flags up to the end of the group. -/
  | flags (f : Flags)
  /-- A group with flags of its own opens. -/
  | flagged (f : Flags)
  | close
  | alternate
  /-- The last element is repeated. -/
  | repeated (min : Nat) (max : Option Nat) (lazyMark : Bool)

/-- What an opening parenthesis opens. -/
def Flags.opening? (f : Flags) (cs : List Char) : Option (Element × List Char) :=
  match f.skip cs with
  | '?' :: '=' :: _ | '?' :: '!' :: _ | '?' :: '<' :: '=' :: _ | '?' :: '<' :: '!' :: _ => none
  | '?' :: 'P' :: '<' :: cs | '?' :: '<' :: cs =>
    (readName? cs).map fun (name, rest) => (.numbered (some name), rest)
  | '?' :: cs => do
    let (flags, rest) ← readFlags? f true [] cs
    match rest with
    | ')' :: rest => if cs.head? = some ')' then none else some (.flags flags, rest)
    | _ => some (.flagged flags, rest.drop 1)
  | cs => some (.numbered none, cs)

/-- Whether a source goes on with the repetition of what stands in front of it. -/
def repeats (cs : List Char) : Bool := cs.head?.any "?*+\x7b".toList.contains

/-- A repetition, which may have a question mark behind it. -/
def repetition (min : Nat) (max : Option Nat) (rest : List Char) : Element × List Char :=
  if rest.head? = some '?' then (.repeated min max true, rest.drop 1)
  else (.repeated min max false, rest)

/-- The element at the front of a source, and the source behind it. -/
def Flags.element? (f : Flags) (cs : List Char) : Option (Element × List Char) :=
  let literal (expr? : Option Expr) (rest : List Char) : Option (Element × List Char) :=
    expr?.map fun e => (.item ⟨e, 0, true⟩, rest)
  match cs with
  | [] => none
  | '(' :: rest => f.opening? rest
  | ')' :: rest => some (.close, rest)
  | '|' :: rest => some (.alternate, rest)
  | '[' :: rest => do
    let (o, cs) ← f.openClass? rest
    let (s, height, rest) ← f.readClass? rest.length o [] cs
    return (.item ⟨.ofSet s, height, true⟩, rest)
  | '?' :: rest => some (repetition 0 (some 1) rest)
  | '*' :: rest => some (repetition 0 none rest)
  | '+' :: rest => some (repetition 1 none rest)
  | '\x7b' :: _ => do
    let (min, max, rest) ← f.readCount? cs
    return repetition min max (f.next rest)
  | '\\' :: rest => do
    let (atom, rest) ← f.readEscape? rest
    literal (f.atomExpr? atom) rest
  | '.' :: rest => literal f.dot? rest
  | '^' :: rest =>
    literal (some (.look (if !f.multiLine then .textStart
      else if f.anyLineEnd then .anyLineStart else .lineStart))) rest
  | '$' :: rest =>
    literal (some (.look (if !f.multiLine then .textEnd
      else if f.anyLineEnd then .anyLineEnd else .lineEnd))) rest
  | c :: rest => literal (f.charExpr? c false) rest

namespace Reading

/-- The last element is repeated. -/
def again? (r : Reading) (min : Nat) (max : Option Nat) (lazyMark : Bool) (rest : List Char) :
    Option Reading :=
  match r.group.items with
  | [] => none
  | i :: items =>
    if !i.repeatable then none
    else
      let i : Item :=
        ⟨i.expr.repeated min max (lazyMark == r.flags.swapGreed), i.height + 1, true⟩
      some { r with rest, group := { r.group with items := i :: items } }

/-- An element is added to what has been read. -/
def take? (r : Reading) (rest : List Char) : Element → Option Reading
  | .item i => some (r.add i rest)
  | .numbered name =>
    if name.any r.names.contains then none else some (r.openNumbered name rest)
  | .flags flags => some { r with flags, rest, group := r.group.add ⟨.empty, 0, false⟩ }
  | .flagged flags =>
    some { r with flags, rest, group := ⟨r.flags, none, [], []⟩, outer := r.group :: r.outer }
  | .close => r.closeGroup? rest
  | .alternate =>
    some { r with
      rest
      group := { r.group with
        alternatives := .sequence r.group.items.reverse :: r.group.alternatives, items := [] } }
  | .repeated min max lazyMark => r.again? min max lazyMark rest

theorem openGroup?_eq (r : Reading) (cs : List Char) :
    r.openGroup? cs = (r.flags.opening? cs).bind fun (e, rest) => r.take? rest e := by
  have hnamed (cs : List Char) : ((readName? cs).bind fun p =>
        if r.names.contains p.1 then none else some (r.openNumbered (some p.1) p.2)) =
      ((readName? cs).map fun p => (Element.numbered (some p.1), p.2)).bind
        fun p => r.take? p.2 p.1 := by
    rw [Option.bind_map]
    rfl
  unfold openGroup? Flags.opening?
  dsimp only
  generalize r.flags.skip cs = cs
  split
  · rfl
  · rfl
  · rfl
  · rfl
  · exact hnamed _
  · refine (hnamed _).trans (congrArg (Option.bind · _) ?_)
    grind
  · rename_i cs _ _ _ _ _ _
    trans ((readFlags? r.flags true [] cs).bind fun p =>
      match p.2 with
      | ')' :: rest => if cs.head? = some ')' then none else some (Element.flags p.1, rest)
      | _ => some (.flagged p.1, p.2.drop 1)).bind fun p => r.take? p.2 p.1
    · rw [Option.bind_assoc]
      refine congrArg _ (funext fun p => ?_)
      obtain ⟨flags, rest⟩ := p
      cases rest with
      | nil => rfl
      | cons c rest =>
        by_cases hc : c = ')'
        · subst hc
          by_cases hbare : cs.head? = some ')' <;> simp [hbare, take?]
        · simp [hc, take?]
    · refine congrArg (Option.bind · _) ?_
      split <;> simp_all
  · trans (some (Element.numbered none, cs)).bind fun p => r.take? p.2 p.1
    · rfl
    · refine congrArg (Option.bind · _) ?_
      grind

theorem repeat?_eq (r : Reading) (min : Nat) (max : Option Nat) (rest : List Char) :
    r.repeat? min max rest = r.take? (repetition min max rest).2 (repetition min max rest).1 := by
  unfold repeat? repetition
  by_cases h : rest.head? = some '?'
  · rw [if_pos h]
    dsimp only [take?]
    unfold again?
    cases r.group.items with
    | nil => rfl
    | cons i items => simp [h]
  · rw [if_neg h]
    dsimp only [take?]
    unfold again?
    cases r.group.items with
    | nil => rfl
    | cons i items => simp [h]

/-- A step of the reader reads an element and adds it. -/
theorem step?_eq {r : Reading} (h : r.rest ≠ []) :
    r.step? = (r.flags.element? r.rest).bind fun (e, rest) => r.take? rest e := by
  have hliteral (expr? : Option Expr) (rest : List Char) :
      (expr?.map fun e => r.add ⟨e, 0, true⟩ rest) =
        (expr?.map fun e => (Element.item ⟨e, 0, true⟩, rest)).bind
          fun p => r.take? p.2 p.1 := by
    rw [Option.bind_map, Option.map_eq_bind]
    rfl
  unfold step? Flags.element?
  dsimp only
  generalize r.rest = cs at h ⊢
  split
  · exact absurd rfl h
  · exact r.openGroup?_eq _
  · rfl
  · rfl
  · simp only [Option.bind_eq_bind, Option.bind_assoc]
    rfl
  · exact r.repeat?_eq 0 (some 1) _
  · exact r.repeat?_eq 0 none _
  · exact r.repeat?_eq 1 none _
  · simp only [Option.bind_eq_bind, Option.bind_assoc, repeat?_eq]
    rfl
  · simp only [Option.bind_eq_bind, Option.bind_assoc, hliteral]
  · exact hliteral _ _
  · exact hliteral _ _
  · exact hliteral _ _
  · refine (hliteral _ _).trans (congrArg (Option.bind · _) ?_)
    grind

end Reading

/-! ## What is read -/

/-- Whether the element opens or closes a group, sets flags or separates branches. -/
def Element.isMark : Element → Bool
  | .item _ | .repeated .. => false
  | _ => true

/-- An expression that is read for one character, for one of a set, or for an assertion. -/
inductive Flags.Literal (f : Flags) : Expr → Prop
  | char {c : Char} {byte : Bool} {e : Expr} (h : f.charExpr? c byte = some e) : Literal f e
  | escape {cs rest : List Char} {a : Atom} {e : Expr} (hread : f.readEscape? cs = some (a, rest))
    (h : f.atomExpr? a = some e) : Literal f e
  | dot {e : Expr} (h : f.dot? = some e) : Literal f e
  | look (l : Look) : Literal f (.look l)

/-- What the element at the front of a source may be. -/
inductive Flags.Yields (f : Flags) (cs : List Char) : Element → Prop
  | literal {e : Expr} (h : f.Literal e) : Yields f cs (.item ⟨e, 0, true⟩)
  | bracketed {o : OpenClass} {s : CharSet} {fuel height : Nat} {as bs rest : List Char}
    (hopen : f.openClass? as = some (o, bs))
    (hread : f.readClass? fuel o [] bs = some (s, height, rest)) :
    Yields f cs (.item ⟨.ofSet s, height, true⟩)
  | repeated {min : Nat} {max : Option Nat} {lazyMark : Bool} (hrepeats : repeats cs = true)
    (hle : ∀ m ∈ max, min ≤ m) : Yields f cs (.repeated min max lazyMark)
  | mark {e : Element} (h : e.isMark = true) : Yields f cs e

namespace Flags
variable {f : Flags} {cs rest : List Char} {e : Element}

theorem readCount?_le {min : Nat} {max : Option Nat} (h : f.readCount? cs = some (min, max, rest)) :
    ∀ m ∈ max, min ≤ m := by
  obtain ⟨⟨n, rest'⟩, -, h⟩ := Option.bind_eq_some_iff.mp h
  dsimp only at h
  split at h
  · split at h
    · cases h
      exact fun _ hm => nomatch hm
    · obtain ⟨⟨m, rest''⟩, -, h⟩ := Option.bind_eq_some_iff.mp h
      split at h
      · rename_i hle
        cases h
        exact fun _ hm => Option.mem_some.mp hm ▸ hle.2
      · cases h
  · cases h
    exact fun _ hm => Nat.le_of_eq (Option.mem_some.mp hm)
  · cases h

theorem opening?_isMark (h : f.opening? cs = some (e, rest)) : e.isMark = true := by
  unfold opening? at h
  split at h
  · cases h
  · cases h
  · cases h
  · cases h
  · obtain ⟨p, -, heq⟩ := Option.map_eq_some_iff.mp h
    cases heq
    rfl
  · obtain ⟨p, -, heq⟩ := Option.map_eq_some_iff.mp h
    cases heq
    rfl
  · obtain ⟨p, -, heq⟩ := Option.bind_eq_some_iff.mp h
    dsimp only at heq
    split at heq
    · split at heq
      · cases heq
      · cases heq
        rfl
    · cases heq
      rfl
  · cases h
    rfl

theorem element?_yields (h : f.element? cs = some (e, rest)) : f.Yields cs e := by
  have hliteral {expr? : Option Expr} {rest' : List Char}
      (hexpr : ∀ e, expr? = some e → f.Literal e)
      (h : (expr?.map fun e => (Element.item ⟨e, 0, true⟩, rest')) = some (e, rest)) :
      f.Yields cs e := by
    obtain ⟨expr, hsome, heq⟩ := Option.map_eq_some_iff.mp h
    cases heq
    exact .literal (hexpr expr hsome)
  have hrepetition {min : Nat} {max : Option Nat} {rest' : List Char} (hcs : repeats cs = true)
      (hle : ∀ m ∈ max, min ≤ m) (h : some (repetition min max rest') = some (e, rest)) :
      f.Yields cs e := by
    unfold repetition at h
    split at h <;> cases h <;> exact .repeated hcs hle
  unfold element? at h
  dsimp only at h
  split at h
  · cases h
  · exact .mark (opening?_isMark h)
  · cases h
    exact .mark rfl
  · cases h
    exact .mark rfl
  · obtain ⟨⟨o, cs'⟩, hopen, h⟩ := Option.bind_eq_some_iff.mp h
    obtain ⟨⟨s, height, rest'⟩, hread, h⟩ := Option.bind_eq_some_iff.mp h
    cases h
    exact .bracketed hopen hread
  · exact hrepetition rfl (by simp) h
  · exact hrepetition rfl (by simp) h
  · exact hrepetition rfl (by simp) h
  · obtain ⟨⟨min, max, rest'⟩, hcount, h⟩ := Option.bind_eq_some_iff.mp h
    exact hrepetition rfl (readCount?_le hcount) h
  · obtain ⟨⟨atom, rest'⟩, hread, h⟩ := Option.bind_eq_some_iff.mp h
    exact hliteral (fun e he => .escape hread he) h
  · exact hliteral (fun e he => .dot he) h
  · exact hliteral (fun e he => by cases he; exact .look _) h
  · exact hliteral (fun e he => by cases he; exact .look _) h
  · exact hliteral (fun e he => .char he) h

/-! ## Simple form -/

theorem charExpr?_cases {c : Char} {byte : Bool} {e : Expr} (h : f.charExpr? c byte = some e) :
    (∃ c, e = .literal [c]) ∨ ∃ s, e = .ofSet s := by
  unfold charExpr? at h
  split at h
  · cases h
  · split at h
    · cases h
      exact .inl ⟨c, rfl⟩
    · cases h
      exact .inr ⟨_, rfl⟩

theorem Literal.cases {e : Expr} (h : f.Literal e) :
    (∃ c, e = .literal [c]) ∨ (∃ s, e = .ofSet s) ∨ (∃ s, e = .set s) ∨ ∃ l, e = .look l := by
  have hchar {c : Char} {byte : Bool} (h : f.charExpr? c byte = some e) :
      (∃ c, e = .literal [c]) ∨ (∃ s, e = .ofSet s) ∨ (∃ s, e = .set s) ∨ ∃ l, e = .look l :=
    (charExpr?_cases h).imp_right .inl
  cases h with
  | char h => exact hchar h
  | @escape _ _ a _ _ h =>
    cases a with
    | char c byte => exact hchar h
    | set s => exact .inr (.inl ⟨s, (Option.some.inj h).symm⟩)
    | look l => exact .inr (.inr (.inr ⟨l, (Option.some.inj h).symm⟩))
  | dot h =>
    refine .inr (.inr (.inl ?_))
    unfold dot? at h
    split at h
    · cases h
    · split at h
      · exact ⟨_, (Option.some.inj h).symm⟩
      · split at h <;> exact ⟨_, (Option.some.inj h).symm⟩
  | look l => exact .inr (.inr (.inr ⟨l, rfl⟩))

theorem Literal.simple {e : Expr} (h : f.Literal e) : e.Simple := by
  obtain ⟨c, rfl⟩ | ⟨s, rfl⟩ | ⟨s, rfl⟩ | ⟨l, rfl⟩ := h.cases
  · exact trivial
  · exact Expr.ofSet_simple s
  · exact trivial
  · exact trivial

/-- An item is in simple form. -/
theorem Yields.simple {i : Item} (h : f.Yields cs (.item i)) : i.expr.Simple := by
  cases h with
  | literal h => exact h.simple
  | bracketed => exact Expr.ofSet_simple _
  | mark h => cases h

/-- Only the mark of a repetition makes one. -/
theorem Yields.repeats {min : Nat} {max : Option Nat} {lazyMark : Bool}
    (h : f.Yields cs (.repeated min max lazyMark)) : repeats cs = true := by
  cases h with
  | repeated hrepeats => exact hrepeats
  | mark h => cases h

end Flags

theorem Item.sequence_expr {is : List Item} (h : ∀ i ∈ is, i.expr.Simple) :
    (sequence is).expr = Expr.concat (is.map (·.expr)) := by
  unfold sequence
  split
  · rfl
  · exact (Expr.concat_singleton (h _ (List.mem_singleton_self _))).symm
  · rfl

theorem Item.sequence_simple {is : List Item} (h : ∀ i ∈ is, i.expr.Simple) :
    (sequence is).expr.Simple := by
  rw [sequence_expr h]
  exact Expr.concat_simple (List.forall_mem_map.mpr h)

theorem Item.choice_simple {is : List Item} (h : ∀ i ∈ is, i.expr.Simple) :
    (choice is).expr.Simple := by
  unfold choice
  split
  · exact trivial
  · exact h _ (List.mem_singleton_self _)
  · exact Expr.choice_simple (List.forall_mem_map.mpr h)

/-- Everything in an open group is in simple form. -/
structure OpenGroup.Simple (g : OpenGroup) : Prop where
  items : ∀ i ∈ g.items, i.expr.Simple
  alternatives : ∀ i ∈ g.alternatives, i.expr.Simple

namespace OpenGroup.Simple
variable {g : OpenGroup}

theorem empty (outside : Flags) (number? : Option (Nat × Option String)) :
    OpenGroup.Simple ⟨outside, number?, [], []⟩ := ⟨nofun, nofun⟩

theorem add (h : g.Simple) {i : Item} (hi : i.expr.Simple) : (g.add i).Simple :=
  ⟨List.forall_mem_cons.mpr ⟨hi, h.items⟩, h.alternatives⟩

theorem sequence (h : g.Simple) : (Item.sequence g.items.reverse).expr.Simple :=
  Item.sequence_simple fun i hi => h.items i (List.mem_reverse.mp hi)

theorem contents (h : g.Simple) : g.contents.expr.Simple := by
  refine Item.choice_simple fun i hi => ?_
  obtain rfl | hi := List.mem_cons.mp (List.mem_reverse.mp hi)
  · exact h.sequence
  · exact h.alternatives i hi

end OpenGroup.Simple

/-- Everything that has been read is in simple form. -/
def Reading.Simple (r : Reading) : Prop := ∀ g ∈ r.group :: r.outer, g.Simple

theorem Reading.take?_simple {r r' : Reading} {e : Element} {rest : List Char} (h : r.Simple)
    (he : ∀ i, e = .item i → i.expr.Simple) (htake : r.take? rest e = some r') : r'.Simple := by
  obtain ⟨hgroup, houter⟩ := List.forall_mem_cons.mp h
  cases e with
  | item i =>
    cases htake
    exact List.forall_mem_cons.mpr ⟨hgroup.add (he i rfl), houter⟩
  | numbered name =>
    rw [take?] at htake
    split at htake
    · cases htake
    · cases htake
      exact List.forall_mem_cons.mpr ⟨.empty _ _, h⟩
  | flags flags =>
    cases htake
    exact List.forall_mem_cons.mpr ⟨hgroup.add trivial, houter⟩
  | flagged flags =>
    cases htake
    exact List.forall_mem_cons.mpr ⟨.empty _ _, h⟩
  | close =>
    rw [take?, closeGroup?.eq_def] at htake
    split at htake
    · cases htake
    · rename_i p outer hp
      cases htake
      obtain ⟨hinner, hrest⟩ := List.forall_mem_cons.mp (hp ▸ houter)
      refine List.forall_mem_cons.mpr ⟨hinner.add ?_, hrest⟩
      dsimp only
      split
      · exact trivial
      · exact hgroup.contents
  | alternate =>
    cases htake
    refine List.forall_mem_cons.mpr ⟨⟨nofun, ?_⟩, houter⟩
    exact List.forall_mem_cons.mpr ⟨hgroup.sequence, hgroup.alternatives⟩
  | repeated min max lazyMark =>
    rw [take?, again?.eq_def] at htake
    split at htake
    · cases htake
    · rename_i i items hitems
      split at htake
      · cases htake
      · cases htake
        obtain ⟨hi, hrest⟩ := List.forall_mem_cons.mp (hitems ▸ hgroup.items)
        refine List.forall_mem_cons.mpr ⟨⟨?_, hgroup.alternatives⟩, houter⟩
        exact List.forall_mem_cons.mpr ⟨Expr.repeated_simple hi, hrest⟩

end Tinct.Regex
