import Mathlib.Data.List.Basic
import Tinct.Pattern.Compile
import Tinct.Proofs.Except

/-!
# Sources cut into elements

The elements of a source are known once it is cut somehow into elements, with literals cut into
their characters:

* `Cuts`: a source is cut into elements;
* `lexFrom_of_cuts`: the reader of elements finds the same ones, but that characters in a row are
  one literal;
* `closes?`, `recorded`: how many groups are open behind some elements, and how many have been
  opened that record;
* `LexemeKind.isOrdinary`, `splice_eq`, `lowerLookaheads_eq`: elements that a regular expression is
  made of are left as they are.
-/

namespace Tinct

namespace LexemeKind

/-- The kinds of elements that a regular expression is made of. -/
def isOrdinary : LexemeKind → Bool
  | .backref | .namedBackref | .lookaheadOpen | .negativeLookaheadOpen | .lookbehindOpen
  | .reference => false
  | _ => true

theorem isBackreference_of_isOrdinary {k : LexemeKind} (h : k.isOrdinary = true) :
    k.isBackreference = false := by
  cases k <;> first | rfl | cases h

theorem isPlain_ne {c d : Char} (h : isPlain c = true) (hd : isPlain d = false) : c ≠ d := by
  rintro rfl
  rw [h] at hd
  cases hd

theorem next?_plain {c : Char} (h : isPlain c = true) (cs : List Char) :
    next? (c :: cs) = some (.literal, 1 + (cs.takeWhile isPlain).length) := by
  -- The last equation applies: a plain character begins none of the others.
  rw [next?]
  all_goals
    intros
    exact isPlain_ne h rfl ‹c = _›

end LexemeKind

open LexemeKind (isPlain next?)

/-- A source is cut into elements, and its literals into characters. -/
inductive Cuts : List Char → List Lexeme → Prop
  | nil : Cuts [] []
  | plain {c : Char} {cs : List Char} {ls : List Lexeme} (hplain : isPlain c = true) :
    Cuts cs ls → Cuts (c :: cs) (⟨.literal, [c]⟩ :: ls)
  | lexeme {kind : LexemeKind} {text cs : List Char} {ls : List Lexeme}
    (hnext : next? (text ++ cs) = some (kind, text.length)) (hne : text ≠ [])
    (hkind : kind ≠ .literal) : Cuts cs ls → Cuts (text ++ cs) (⟨kind, text⟩ :: ls)

/-- An element, a literal cut into its characters. -/
def Lexeme.pieces (l : Lexeme) : List Lexeme :=
  if l.kind = .literal then l.text.map (⟨.literal, [·]⟩) else [l]

/-- Elements, literals cut into their characters. -/
def pieces (ls : List Lexeme) : List Lexeme := ls.flatMap (·.pieces)

namespace Cuts
variable {cs : List Char} {ls : List Lexeme}

theorem flatMap_text (h : Cuts cs ls) : ls.flatMap (·.text) = cs := by
  induction h with
  | nil => rfl
  | plain _ _ ih => rw [List.flatMap_cons, ih]; rfl
  | lexeme _ _ _ _ ih => rw [List.flatMap_cons, ih]

theorem takeWhile_lexeme {kind : LexemeKind} {text : List Char}
    (hnext : next? (text ++ cs) = some (kind, text.length)) (hne : text ≠ [])
    (hkind : kind ≠ .literal) : (text ++ cs).takeWhile isPlain = [] := by
  obtain ⟨c, text, rfl⟩ := List.exists_cons_of_ne_nil hne
  refine List.takeWhile_cons_of_neg fun hplain => hkind ?_
  rw [List.cons_append, LexemeKind.next?_plain hplain] at hnext
  exact ((Prod.mk.inj (Option.some.inj hnext)).1).symm

/-- The characters in front of a source up to one that means something. -/
theorem plains (h : Cuts cs ls) :
    ∃ ls', ls = (cs.takeWhile isPlain).map (⟨.literal, [·]⟩) ++ ls' ∧
      Cuts (cs.dropWhile isPlain) ls' := by
  induction h with
  | nil => exact ⟨[], rfl, .nil⟩
  | plain hplain _ ih =>
    obtain ⟨ls', rfl, h'⟩ := ih
    rw [List.takeWhile_cons_of_pos hplain, List.dropWhile_cons_of_pos hplain]
    exact ⟨ls', rfl, h'⟩
  | @lexeme kind text cs ls hnext hne hkind hcuts ih =>
    have htake := takeWhile_lexeme hnext hne hkind
    have hdrop := List.takeWhile_append_dropWhile (p := isPlain) (l := text ++ cs)
    rw [htake, List.nil_append] at hdrop
    rw [htake, hdrop]
    exact ⟨⟨kind, text⟩ :: ls, rfl, .lexeme hnext hne hkind hcuts⟩

end Cuts

theorem lexFrom_succ {kind : LexemeKind} {text cs : List Char}
    (hnext : next? (text ++ cs) = some (kind, text.length)) (hne : text ≠ []) {fuel before : Nat}
    {ls : List Lexeme} (h : lexFrom fuel (before + text.length) cs = .ok ls) :
    lexFrom (fuel + 1) before (text ++ cs) = .ok (⟨kind, text⟩ :: ls) := by
  rw [lexFrom, hnext]
  · dsimp only
    rw [List.drop_left, List.take_left, h]
    rfl
  · exact fun hnil => hne (List.append_eq_nil_iff.mp hnil).1

/-- The reader of elements finds the elements into which a source is cut. -/
theorem lexFrom_of_cuts {cs : List Char} {ls : List Lexeme} (h : Cuts cs ls) {fuel : Nat}
    (hfuel : cs.length ≤ fuel) (before : Nat) :
    ∃ ls', lexFrom fuel before cs = .ok ls' ∧ pieces ls' = ls := by
  induction fuel generalizing cs ls before with
  | zero =>
    cases h with
    | nil => exact ⟨[], rfl, rfl⟩
    | plain => cases hfuel
    | @lexeme _ text _ _ _ hne =>
      rw [List.length_append] at hfuel
      have hlength := List.length_pos_iff.mpr hne
      omega
  | succ fuel ih =>
    cases h with
    | nil => exact ⟨[], by rw [lexFrom], rfl⟩
    | @plain c cs ls hplain hcuts =>
      obtain ⟨behind, rfl, hbehind⟩ := hcuts.plains
      have hcs := List.takeWhile_append_dropWhile (p := isPlain) (l := cs)
      have hlength : (cs.dropWhile isPlain).length ≤ fuel := by
        have hsplit := congrArg List.length hcs
        rw [List.length_append] at hsplit
        rw [List.length_cons] at hfuel
        omega
      obtain ⟨ls', hlex, hpieces⟩ :=
        ih hbehind hlength (before + (c :: cs.takeWhile isPlain).length)
      refine ⟨⟨.literal, c :: cs.takeWhile isPlain⟩ :: ls', ?_, ?_⟩
      · have hnext := LexemeKind.next?_plain hplain cs
        rw [Nat.add_comm] at hnext
        have hread := lexFrom_succ (by rwa [List.cons_append, hcs]) (List.cons_ne_nil _ _) hlex
        rwa [List.cons_append, hcs] at hread
      · rw [pieces, List.flatMap_cons, ← pieces, hpieces]
        rfl
    | @lexeme kind text cs ls hnext hne hkind hcuts =>
      have hlength : cs.length ≤ fuel := by
        have hpos := List.length_pos_iff.mpr hne
        rw [List.length_append] at hfuel
        omega
      obtain ⟨ls', hlex, hpieces⟩ := ih hcuts hlength (before + text.length)
      refine ⟨⟨kind, text⟩ :: ls', lexFrom_succ hnext hne hlex, ?_⟩
      rw [pieces, List.flatMap_cons, ← pieces, hpieces, Lexeme.pieces, if_neg hkind]
      rfl

/-- The elements into which a source is cut are its elements. -/
theorem lex_of_cuts {source : String} {ls : List Lexeme} (h : Cuts source.toList ls) :
    ∃ ls', lex source = .ok ls' ∧ pieces ls' = ls := by
  obtain ⟨ls', hlex, hpieces⟩ := lexFrom_of_cuts h (Nat.le_refl _) 0
  exact ⟨ls', by rw [lex, hlex], hpieces⟩

/-! ## What does not depend on how literals are cut -/

/-- What holds of the pieces of some elements holds of the elements, if it does of literals. -/
theorem forall_of_pieces {p : LexemeKind → Prop} (hp : p .literal) {ls : List Lexeme}
    (h : ∀ l ∈ pieces ls, p l.kind) : ∀ l ∈ ls, p l.kind := by
  intro l hl
  by_cases hkind : l.kind = .literal
  · rwa [hkind]
  · refine h l (List.mem_flatMap.mpr ⟨l, hl, ?_⟩)
    rw [Lexeme.pieces, if_neg hkind]
    exact List.mem_singleton_self l

/-- A text for each element that is that of a literal for literals. -/
theorem flatMap_pieces {α : Type} {f : Lexeme → List α} {g : Char → List α}
    (hf : ∀ l, l.kind = .literal → f l = l.text.flatMap g) (ls : List Lexeme) :
    (pieces ls).flatMap f = ls.flatMap f := by
  rw [pieces, List.flatMap_assoc]
  refine List.flatMap_congr fun l _ => ?_
  rw [Lexeme.pieces]
  split
  · rename_i hkind
    rw [hf l hkind, List.flatMap_map]
    refine List.flatMap_congr fun c _ => ?_
    rw [hf _ rfl, List.flatMap_singleton]
  · exact List.flatMap_singleton _ _

theorem pieces_append (ls ks : List Lexeme) : pieces (ls ++ ks) = pieces ls ++ pieces ks :=
  List.flatMap_append

theorem pieces_cons_of_ne {l : Lexeme} (h : l.kind ≠ .literal) (ls : List Lexeme) :
    pieces (l :: ls) = l :: pieces ls := by
  rw [pieces, List.flatMap_cons, Lexeme.pieces, if_neg h]
  rfl

theorem pieces_cons_of_eq {l : Lexeme} (h : l.kind = .literal) (ls : List Lexeme) :
    pieces (l :: ls) = l.text.map (⟨.literal, [·]⟩) ++ pieces ls := by
  rw [pieces, List.flatMap_cons, Lexeme.pieces, if_pos h]
  rfl

theorem flatMap_text_pieces (ls : List Lexeme) :
    (pieces ls).flatMap (·.text) = ls.flatMap (·.text) :=
  flatMap_pieces (g := ([·])) (fun _ _ => (List.flatMap_singleton' _).symm) ls

/-- How many groups are open behind some elements in front of which `depth` are; none if a group
is closed that is not open. -/
def closes? : Nat → List Lexeme → Option Nat
  | depth, [] => some depth
  | depth, l :: ls =>
    if l.kind.opensGroup then closes? (depth + 1) ls
    else if l.kind = .close then
      match depth with
      | 0 => none
      | depth + 1 => closes? depth ls
    else closes? depth ls

theorem LexemeKind.opensGroup_close : LexemeKind.close.opensGroup = false := rfl

theorem closes?_cons_of_opens {l : Lexeme} (h : l.kind.opensGroup = true) (depth : Nat)
    (ls : List Lexeme) : closes? depth (l :: ls) = closes? (depth + 1) ls := by
  rw [closes?.eq_def]
  exact if_pos h

theorem closes?_cons_of_close {l : Lexeme} (h : l.kind = .close) (depth : Nat)
    (ls : List Lexeme) : closes? (depth + 1) (l :: ls) = closes? depth ls := by
  simp [closes?, h, LexemeKind.opensGroup_close]

theorem closes?_cons_of_other {l : Lexeme} (hopens : l.kind.opensGroup = false)
    (hclose : l.kind ≠ .close) (depth : Nat) (ls : List Lexeme) :
    closes? depth (l :: ls) = closes? depth ls := by
  simp [closes?, hopens, hclose]

/-- Each element opens a group, closes one that is open, or does neither. -/
theorem closes?_cons_cases {l : Lexeme} {ls : List Lexeme} {depth d : Nat}
    (h : closes? depth (l :: ls) = some d) :
    l.kind.opensGroup = true ∧ closes? (depth + 1) ls = some d ∨
      l.kind = .close ∧ (∃ e, depth = e + 1 ∧ closes? e ls = some d) ∨
      l.kind.opensGroup = false ∧ l.kind ≠ .close ∧ closes? depth ls = some d := by
  rw [closes?.eq_def] at h
  dsimp only at h
  split at h
  · exact .inl ⟨‹_›, h⟩
  · rename_i hopens
    split at h
    · cases depth with
      | zero => cases h
      | succ e => exact .inr (.inl ⟨‹_›, e, rfl, h⟩)
    · exact .inr (.inr ⟨Bool.eq_false_iff.mpr hopens, ‹_›, h⟩)

theorem closes?_literals (depth : Nat) (cs : List Char) (ls : List Lexeme) :
    closes? depth (cs.map (⟨.literal, [·]⟩) ++ ls) = closes? depth ls := by
  induction cs with
  | nil => rfl
  | cons c cs ih => simpa [closes?, LexemeKind.opensGroup] using ih

theorem closes?_pieces (depth : Nat) (ls : List Lexeme) :
    closes? depth (pieces ls) = closes? depth ls := by
  induction ls generalizing depth with
  | nil => rfl
  | cons l ls ih =>
    rw [pieces, List.flatMap_cons, ← pieces, Lexeme.pieces]
    split
    · rename_i hl
      rw [closes?_literals, ih]
      simp [closes?, hl, LexemeKind.opensGroup]
    · cases depth <;> simp only [List.singleton_append, closes?, ih]

theorem closes?_append (depth : Nat) (ls ks : List Lexeme) :
    closes? depth (ls ++ ks) = (closes? depth ls).bind (closes? · ks) := by
  induction ls generalizing depth with
  | nil => rfl
  | cons l ls ih =>
    rw [List.cons_append]
    cases depth <;> simp only [closes?, ih] <;> split <;> first | rfl | split <;> rfl

/-- What some elements leave open, they do wherever more groups are open. -/
theorem closes?_add {depth d : Nat} {ls : List Lexeme} (h : closes? depth ls = some d) (n : Nat) :
    closes? (depth + n) ls = some (d + n) := by
  induction ls generalizing depth with
  | nil =>
    cases h
    rfl
  | cons l ls ih =>
    obtain ⟨hl, hrest⟩ | ⟨hl, e, rfl, hrest⟩ | ⟨hl, hl', hrest⟩ := closes?_cons_cases h
    · rw [closes?_cons_of_opens hl, Nat.add_right_comm]
      exact ih hrest
    · rw [Nat.add_right_comm, closes?_cons_of_close hl]
      exact ih hrest
    · rw [closes?_cons_of_other hl hl']
      exact ih hrest

/-- Whether a group of a kind records. -/
def LexemeKind.records : LexemeKind → Bool
  | .open | .namedOpen => true
  | _ => false

/-- The number of groups among elements that record. -/
def recorded (ls : List Lexeme) : Nat := ls.countP (·.kind.records)

theorem recorded_append (ls ks : List Lexeme) :
    recorded (ls ++ ks) = recorded ls + recorded ks :=
  List.countP_append

theorem recorded_nil : recorded [] = 0 := rfl

theorem recorded_cons_of_not {l : Lexeme} (h : l.kind.records = false) (ls : List Lexeme) :
    recorded (l :: ls) = recorded ls :=
  List.countP_cons_of_neg (Bool.eq_false_iff.mp h)

theorem recorded_cons (l : Lexeme) (ls : List Lexeme) :
    recorded (l :: ls) = recorded ls + if l.kind.records then 1 else 0 :=
  List.countP_cons

theorem recorded_eq_zero {ls : List Lexeme} (h : ∀ l ∈ ls, l.kind.records = false) :
    recorded ls = 0 :=
  List.countP_eq_zero.mpr fun l hl => Bool.eq_false_iff.mp (h l hl)

theorem pairsFrom_cons (i : Nat) (waiting : List Nat) (l : Lexeme) (ls : List Lexeme) :
    pairsFrom i waiting (l :: ls) =
      if l.kind.opensGroup then pairsFrom (i + 1) (i :: waiting) ls
      else if l.kind = .close then
        match waiting with
        | [] => .error .unbalancedClose
        | o :: waiting => do return (o, i) :: (← pairsFrom (i + 1) waiting ls)
      else pairsFrom (i + 1) waiting ls := by
  cases waiting <;> rfl

/-- Where each group closes, parentheses stand in pairs. -/
theorem exists_pairsFrom {ls : List Lexeme} {waiting : List Nat}
    (h : closes? waiting.length ls = some 0) (i : Nat) :
    ∃ pairs, pairsFrom i waiting ls = .ok pairs := by
  induction ls generalizing waiting i with
  | nil =>
    cases waiting with
    | nil => exact ⟨[], rfl⟩
    | cons o waiting => cases h
  | cons l ls ih =>
    rw [pairsFrom_cons]
    obtain ⟨hl, hrest⟩ | ⟨hl, e, hwaiting, hrest⟩ | ⟨hl, hl', hrest⟩ := closes?_cons_cases h
    · rw [if_pos hl]
      exact @ih (i :: waiting) hrest (i + 1)
    · rw [if_neg (by simp [hl, LexemeKind.opensGroup_close]), if_pos hl]
      cases waiting with
      | nil => cases hwaiting
      | cons o waiting =>
        obtain rfl : waiting.length = e := Nat.succ.inj hwaiting
        obtain ⟨pairs, hpairs⟩ := ih hrest (i + 1)
        exact ⟨(o, i) :: pairs, bind_eq_ok.mpr ⟨pairs, hpairs, rfl⟩⟩
    · rw [if_neg (by simp [hl]), if_neg hl']
      exact ih hrest (i + 1)

/-! ## Ordinary elements -/

section ordinary
variable {ls : List Lexeme}

theorem splice_eq (h : ∀ l ∈ ls, l.kind.isOrdinary = true)
    (resolve : String → Except PatternError String) :
    splice resolve ls = .ok (Lexeme.join ls) := by
  induction ls with
  | nil => rfl
  | cons l ls ih =>
    obtain ⟨hl, hls⟩ := List.forall_mem_cons.mp h
    have hreference : l.kind ≠ .reference := by
      intro hkind
      rw [hkind] at hl
      cases hl
    rw [splice, if_neg hreference, ih hls]
    refine congrArg Except.ok (String.toList_inj.mp ?_)
    simp [Lexeme.join]

theorem any_isBackreference_eq_false (h : ∀ l ∈ ls, l.kind.isOrdinary = true) :
    ls.any (·.kind.isBackreference) = false := by
  refine List.any_eq_false.mpr fun l hl => ?_
  rw [LexemeKind.isBackreference_of_isOrdinary (h l hl)]
  exact Bool.false_ne_true

theorem checkLookaround_eq (h : ∀ l ∈ ls, l.kind.isOrdinary = true) (opens : List Nat) (i : Nat) :
    checkLookaround opens i ls = .ok () := by
  induction ls generalizing i with
  | nil => rfl
  | cons l ls ih =>
    obtain ⟨hl, hls⟩ := List.forall_mem_cons.mp h
    rw [checkLookaround]
    split
    · rename_i hkind
      rw [hkind] at hl
      cases hl
    · rename_i hkind
      rw [hkind] at hl
      cases hl
    · rename_i hkind
      rw [hkind] at hl
      cases hl
    · exact ih hls (i + 1)

/-- Ordinary elements end in no lookahead. -/
theorem trailingFollows_eq (h : ∀ l ∈ ls, l.kind.isOrdinary = true) (pairs : List (Nat × Nat))
    (fuel stop : Nat) : trailingFollows ls pairs fuel stop = .ok ([], [], stop) := by
  cases fuel with
  | zero => rfl
  | succ fuel =>
    rw [trailingFollows]
    split
    · rfl
    · rename_i o c hpair
      dsimp only
      split
      · rfl
      · rename_i negated hopener
        cases hl : ls[o]? with
        | none =>
          rw [hl] at hopener
          cases hopener
        | some l =>
          have hordinary := h l (List.mem_of_getElem? hl)
          rw [hl, Option.map_some] at hopener
          cases hkind : l.kind <;> rw [hkind] at hordinary hopener <;> cases hordinary <;>
            cases hopener

end ordinary

/-! ## Sources cut into ordinary elements -/

/-- A source cut into ordinary elements, in which each group closes. -/
structure Cuts.Ordinary (cs : List Char) (ls : List Lexeme) : Prop where
  cuts : Cuts cs ls
  ordinary : ∀ l ∈ ls, l.kind.isOrdinary = true
  closes : closes? 0 ls = some 0

namespace Cuts.Ordinary
variable {source : String} {ls : List Lexeme}

/-- The elements of the source. -/
theorem exists_lex (h : Ordinary source.toList ls) :
    ∃ ls', lex source = .ok ls' ∧ pieces ls' = ls ∧ (∀ l ∈ ls', l.kind.isOrdinary = true) ∧
      Lexeme.join ls' = source := by
  obtain ⟨ls', hlex, rfl⟩ := lex_of_cuts h.cuts
  refine ⟨ls', hlex, rfl, forall_of_pieces (p := (·.isOrdinary = true))
    rfl h.ordinary, String.toList_inj.mp ?_⟩
  have htext := flatMap_pieces (f := (·.text)) (g := ([·])) (fun l _ => by simp) ls'
  rw [Lexeme.join, String.toList_ofList, ← htext, h.cuts.flatMap_text]

theorem lowerLookaheads_eq (h : Ordinary source.toList ls) :
    lowerLookaheads source = .ok ⟨source, []⟩ := by
  obtain ⟨ls', hlex, hpieces, hordinary, hjoin⟩ := h.exists_lex
  obtain ⟨pairs, hpairs⟩ := @exists_pairsFrom ls' []
    (by rw [← closes?_pieces, hpieces]; exact h.closes) 0
  refine bind_eq_ok.mpr ⟨ls', hlex, bind_eq_ok.mpr ⟨pairs, hpairs, ?_⟩⟩
  refine bind_eq_ok.mpr ⟨([], [], ls'.length), trailingFollows_eq hordinary _ _ _, ?_⟩
  refine bind_eq_ok.mpr ⟨(), checkLookaround_eq hordinary _ _, ?_⟩
  dsimp only
  rw [List.take_length, hjoin]
  rfl

theorem hasBackreference_eq (h : Ordinary source.toList ls) :
    hasBackreference source = .ok false := by
  obtain ⟨ls', hlex, -, hordinary, -⟩ := h.exists_lex
  refine bind_eq_ok.mpr ⟨ls', hlex, ?_⟩
  rw [any_isBackreference_eq_false hordinary]
  rfl

theorem assemble_source (h : Ordinary source.toList ls) (named : Entries Pattern) :
    assemble named (.source source) = .ok source := by
  obtain ⟨ls', hlex, -, hordinary, hjoin⟩ := h.exists_lex
  rw [assemble, assembleWith]
  refine bind_eq_ok.mpr ⟨ls', hlex, bind_eq_ok.mpr ⟨source, ?_, rfl⟩⟩
  rw [splice_eq hordinary, hjoin]

/-- A regular expression of ordinary elements is made a matcher as it is. -/
theorem finish_eq (h : Ordinary source.toList ls) (p : PatternScope) {r : Regex}
    (hcompile : Regex.compile source p.ignoreCase = .ok r) : p.finish source = .ok ⟨r, []⟩ := by
  refine bind_eq_ok.mpr ⟨⟨source, []⟩, h.lowerLookaheads_eq, bind_eq_ok.mpr ⟨r, ?_, rfl⟩⟩
  rw [compileRegex, hcompile]

end Cuts.Ordinary

end Tinct
