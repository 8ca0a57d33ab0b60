import Tinct.Proofs.Pattern.Locality
import Tinct.Proofs.Pattern.Opening

/-!
# Elements put together

A source that is put together from elements is read again from its first character, and its
elements are not always those it was put together from: some of them fuse with what stands behind
them.

* `Lexeme.Steady`: elements that may be put anywhere;
* `Stands`: elements that may be put together;
* `Joins`, `Fuses`: which elements fuse: a numbered backreference with digits, two braces with a
  name and two closing ones, and flags with a closing parenthesis;
* `Stands.fuses`: the elements of a source fuse from those it was put together from.
-/

namespace Tinct

open LexemeKind (HasText isPlain isFlag isWord isOpening nameLength next?)

/-- Characters, each of them a literal. -/
def literals (cs : List Char) : List Lexeme := cs.map (⟨.literal, [·]⟩)

@[simp] theorem flatMap_text_literals (cs : List Char) :
    (literals cs).flatMap (·.text) = cs := by
  rw [literals, List.flatMap_map, List.flatMap_singleton']

@[simp] theorem literals_nil : literals [] = [] := rfl

@[simp] theorem literals_cons (c : Char) (cs : List Char) :
    literals (c :: cs) = ⟨.literal, [c]⟩ :: literals cs := rfl

/-- What no literal changes, literals in a row do not change. -/
theorem literals_append_congr {α : Type} {f : List Lexeme → α}
    (hliteral : ∀ l ls, l.kind = .literal → f (l :: ls) = f ls) (cs : List Char)
    (ls : List Lexeme) : f (literals cs ++ ls) = f ls := by
  induction cs with
  | nil => rfl
  | cons c cs ih => exact (hliteral _ _ rfl).trans ih

/-- What no literal changes does not depend on how literals are cut. -/
theorem pieces_congr {α : Type} {f : List Lexeme → α}
    (hliteral : ∀ l ls, l.kind = .literal → f (l :: ls) = f ls)
    (hcons : ∀ l ls ks, l.kind ≠ .literal → ls.flatMap (·.text) = ks.flatMap (·.text) →
      f ls = f ks → f (l :: ls) = f (l :: ks)) (ls : List Lexeme) : f (pieces ls) = f ls := by
  induction ls with
  | nil => rfl
  | cons l ls ih =>
    by_cases hkind : l.kind = .literal
    · rw [pieces_cons_of_eq hkind, ← literals, literals_append_congr hliteral, ih,
        hliteral l ls hkind]
    · rw [pieces_cons_of_ne hkind]
      exact hcons l _ _ hkind (flatMap_text_pieces ls) ih

namespace Cuts
variable {cs : List Char} {ls ls' : List Lexeme}

theorem eq_nil (h : Cuts [] ls) : ls = [] := by
  generalize hcs : [] = cs at h
  cases h with
  | nil => rfl
  | plain => cases hcs
  | lexeme _ hne => exact absurd (List.append_eq_nil_iff.mp hcs.symm).1 hne

/-- The element at the front of a source is the first into which it is cut. -/
theorem exists_cons {ds : List Char} {kind : LexemeKind} {n : Nat} (h : Cuts ds ls)
    (hnext : next? ds = some (kind, n)) :
    ∃ text cs ls', ds = text ++ cs ∧ ls = ⟨kind, text⟩ :: ls' ∧ Cuts cs ls' ∧
      text.length = if kind = .literal then 1 else n := by
  cases h with
  | nil => cases hnext
  | @plain c cs ls hplain hcuts =>
    rw [LexemeKind.next?_plain hplain] at hnext
    obtain ⟨rfl, -⟩ := Prod.mk.inj (Option.some.inj hnext)
    exact ⟨[c], cs, ls, rfl, rfl, hcuts, rfl⟩
  | @lexeme kind' text cs ls hnext' _ hkind hcuts =>
    rw [hnext'] at hnext
    obtain ⟨rfl, rfl⟩ := Prod.mk.inj (Option.some.inj hnext)
    exact ⟨text, cs, ls, rfl, rfl, hcuts, (if_neg hkind).symm⟩

theorem cons_plain {c : Char} (h : Cuts (c :: cs) ls) (hc : isPlain c = true) :
    ∃ ls', ls = ⟨.literal, [c]⟩ :: ls' ∧ Cuts cs ls' := by
  obtain ⟨text, rest, ls', hsource, rfl, hcuts, hlength⟩ :=
    h.exists_cons (LexemeKind.next?_plain hc cs)
  obtain ⟨rfl, rfl⟩ := List.append_inj (show [c] ++ cs = text ++ rest from hsource) hlength.symm
  exact ⟨ls', rfl, hcuts⟩

theorem cons_lexeme {kind : LexemeKind} {text : List Char} (h : Cuts (text ++ cs) ls)
    (hnext : next? (text ++ cs) = some (kind, text.length)) (hkind : kind ≠ .literal) :
    ∃ ls', ls = ⟨kind, text⟩ :: ls' ∧ Cuts cs ls' := by
  obtain ⟨text', rest, ls', hsource, rfl, hcuts, hlength⟩ := h.exists_cons hnext
  rw [if_neg hkind] at hlength
  obtain ⟨rfl, rfl⟩ := List.append_inj hsource hlength.symm
  exact ⟨ls', rfl, hcuts⟩

theorem cuts_iff_of_next? {kind : LexemeKind} {text : List Char}
    (hnext : next? (text ++ cs) = some (kind, text.length)) (hkind : kind ≠ .literal) :
    Cuts (text ++ cs) ls ↔ ∃ ls', ls = ⟨kind, text⟩ :: ls' ∧ Cuts cs ls' := by
  constructor
  · exact fun h => h.cons_lexeme hnext hkind
  · rintro ⟨ls', rfl, h⟩
    exact .lexeme hnext (List.length_pos_iff.mp (LexemeKind.next?_length hnext).1) hkind h

theorem cuts_iff_of_plain {c : Char} (hc : isPlain c = true) :
    Cuts (c :: cs) ls ↔ ∃ ls', ls = ⟨.literal, [c]⟩ :: ls' ∧ Cuts cs ls' := by
  constructor
  · exact fun h => h.cons_plain hc
  · rintro ⟨ls', rfl, h⟩
    exact .plain hc h

theorem next?_ne_none {c : Char} (h : Cuts (c :: cs) ls) : next? (c :: cs) ≠ none := by
  generalize hds : c :: cs = ds at h
  cases h with
  | nil => cases hds
  | plain hplain =>
    rw [LexemeKind.next?_plain hplain]
    exact nofun
  | lexeme hnext =>
    rw [hnext]
    exact nofun

/-- A source is cut in one way only. -/
theorem unique (h : Cuts cs ls) (h' : Cuts cs ls') : ls = ls' := by
  induction h generalizing ls' with
  | nil => exact h'.eq_nil.symm
  | plain hplain _ ih =>
    obtain ⟨ls₁, rfl, hcuts⟩ := h'.cons_plain hplain
    rw [ih hcuts]
  | lexeme hnext _ hkind _ ih =>
    obtain ⟨ls₁, rfl, hcuts⟩ := h'.cons_lexeme hnext hkind
    rw [ih hcuts]

end Cuts

theorem Cuts.of_literals {cs as : List Char} {ls : List Lexeme} (h : Cuts cs (literals as ++ ls)) :
    ∃ rest, cs = as ++ rest ∧ Cuts rest ls ∧ ∀ c ∈ as, isPlain c = true := by
  induction as generalizing cs with
  | nil => exact ⟨cs, rfl, h, nofun⟩
  | cons c as ih =>
    rw [literals_cons, List.cons_append] at h
    cases h with
    | plain hplain h =>
      obtain ⟨rest, rfl, hrest, has⟩ := ih h
      exact ⟨rest, rfl, hrest, List.forall_mem_cons.mpr ⟨hplain, has⟩⟩
    | lexeme _ _ hkind => exact absurd rfl hkind

/-- The first element of a source that is cut into elements. -/
theorem Cuts.of_pieces_cons {cs : List Char} {l : Lexeme} {ls : List Lexeme}
    (h : Cuts cs (pieces (l :: ls))) : ∃ rest, cs = l.text ++ rest ∧ Cuts rest (pieces ls) ∧
      if l.kind = .literal then ∀ c ∈ l.text, isPlain c = true
      else next? (l.text ++ rest) = some (l.kind, l.text.length) := by
  by_cases hkind : l.kind = .literal
  · rw [pieces_cons_of_eq hkind] at h
    obtain ⟨rest, rfl, hrest, hplain⟩ := h.of_literals
    exact ⟨rest, rfl, hrest, by rwa [if_pos hkind]⟩
  · rw [pieces_cons_of_ne hkind] at h
    cases h with
    | plain => exact absurd rfl hkind
    | lexeme hnext _ _ hrest => exact ⟨_, rfl, hrest, by rwa [if_neg hkind]⟩

/-! ## Elements that are put together -/

/-- An element that may be put anywhere: what stands behind it may only make it longer. -/
inductive Lexeme.Steady : Lexeme → Prop
  | closed {kind : LexemeKind} {text : List Char} (htext : HasText kind text) : Steady ⟨kind, text⟩
  | plain {c : Char} (hplain : isPlain c = true) : Steady ⟨.literal, [c]⟩
  | backref {d : Char} {ds : List Char} (hd : d.isDigit = true) (hzero : d ≠ '0')
    (hds : ∀ c ∈ ds, c.isDigit = true) : Steady ⟨.backref, '\\' :: d :: ds⟩
  | brace : Steady ⟨.brace, ['\x7b']⟩

/-- Elements that are put together. A parenthesis that opens a group does so in front of the others;
only where it is `late` may a closing parenthesis make it one that sets flags. -/
inductive Stands (late : Bool) : List Lexeme → Prop
  | nil : Stands late []
  | steady {l : Lexeme} {ls : List Lexeme} (hl : l.Steady) : Stands late ls → Stands late (l :: ls)
  | opens {text : List Char} {ls : List Lexeme}
    (hnext : next? (text ++ ls.flatMap (·.text)) = some (.open, text.length)) :
    Stands late ls → Stands late (⟨.open, text⟩ :: ls)
  | flags {text behind letters : List Char} {ls : List Lexeme} (hlate : late = true)
    (htext : text ++ behind = '(' :: '?' :: letters) (hopen : text ≠ [])
    (hletters : ∀ c ∈ letters, isFlag c = true) (hne : letters ≠ []) :
    Stands late ls → Stands late (⟨.open, text⟩ :: (literals behind ++ ⟨.close, [')']⟩ :: ls))

/-- Elements that are one element of the source that they are put together to. -/
inductive Joins (late : Bool) : List Lexeme → Lexeme → Prop
  | same (l : Lexeme) : Joins late [l] l
  | digits {d : Char} {ds more : List Char} (hd : d.isDigit = true) (hzero : d ≠ '0')
    (hne : more ≠ []) (hmore : ∀ c ∈ more, c.isDigit = true) :
    Joins late (⟨.backref, '\\' :: d :: ds⟩ :: literals more) ⟨.backref, '\\' :: d :: (ds ++ more)⟩
  | name {name : List Char} (hname : isWord name = true) :
    Joins late (⟨.brace, ['\x7b']⟩ :: ⟨.brace, ['\x7b']⟩ :: literals (name ++ ['\x7d', '\x7d']))
      ⟨.reference, '\x7b' :: '\x7b' :: (name ++ ['\x7d', '\x7d'])⟩
  | flags {text behind : List Char} (hlate : late = true) :
    Joins late (⟨.open, text⟩ :: (literals behind ++ [⟨.close, [')']⟩]))
      ⟨.flags, text ++ behind ++ [')']⟩

/-- The elements of a source, each of them joined from some that it is put together from. -/
inductive Fuses (late : Bool) : List Lexeme → List Lexeme → Prop
  | nil : Fuses late [] []
  | cons {block ls ks : List Lexeme} {k : Lexeme} (hjoins : Joins late block k) :
    Fuses late ls ks → Fuses late (block ++ ls) (k :: ks)

theorem Joins.flatMap_text {late : Bool} {block : List Lexeme} {k : Lexeme}
    (h : Joins late block k) : block.flatMap (·.text) = k.text := by
  cases h <;> simp

theorem Fuses.flatMap_text {late : Bool} {ls ks : List Lexeme} (h : Fuses late ls ks) :
    ks.flatMap (·.text) = ls.flatMap (·.text) := by
  induction h with
  | nil => rfl
  | cons hjoins _ ih => rw [List.flatMap_cons, List.flatMap_append, hjoins.flatMap_text, ih]

/-- Whether behind a brace another one begins a name that no two braces end. -/
def leavesName : List Char → Bool
  | '\x7b' :: cs =>
    nameLength cs != 0 && (cs.drop (nameLength cs)).take 2 != ['\x7d', '\x7d']
  | _ => false

/-- Whether two braces among elements begin a name that no two braces end. -/
def opensName : List Lexeme → Bool
  | [] => false
  | l :: ls => (l.kind = .brace && leavesName (ls.flatMap (·.text))) || opensName ls

namespace Stands
variable {late : Bool} {l : Lexeme} {ls : List Lexeme}

/-- A character that has a property which none of those with a meaning has. -/
theorem isPlain_of {p : Char → Bool} (hp : "\\[()\x7b|".toList.any p = false) {c : Char}
    (h : p c = true) : isPlain c = true := by
  rw [isPlain, Bool.not_eq_true', List.contains_eq_mem, decide_eq_false_iff_not]
  exact fun hc => List.any_eq_false.mp hp c hc h

/-- Elements whose source begins with a plain character begin with that literal. -/
theorem cons_plain {c : Char} {cs : List Char} (h : Stands late ls)
    (hsource : ls.flatMap (·.text) = c :: cs) (hc : isPlain c = true) :
    ∃ ls', ls = ⟨.literal, [c]⟩ :: ls' ∧ ls'.flatMap (·.text) = cs ∧ Stands late ls' := by
  have hplain {kind : LexemeKind} {text rest : List Char}
      (hnext : next? (text ++ rest) = some (kind, text.length)) (hkind : kind ≠ .literal)
      (hne : text ≠ []) (hsource : text ++ rest = c :: cs) : False := by
    have htake := Cuts.takeWhile_lexeme hnext hne hkind
    rw [hsource, List.takeWhile_cons_of_pos hc] at htake
    cases htake
  cases h with
  | nil => cases hsource
  | @steady l ls hl h =>
    rw [List.flatMap_cons] at hsource
    cases hl with
    | closed htext =>
      refine (hplain (htext.next?_append _) ?_ htext.ne_nil hsource).elim
      rintro rfl
      cases htext.isClosed
    | plain =>
      obtain ⟨rfl, hrest⟩ := List.cons.inj hsource
      exact ⟨ls, rfl, hrest, h⟩
    | backref =>
      obtain ⟨rfl, -⟩ := List.cons.inj hsource
      cases hc
    | brace =>
      obtain ⟨rfl, -⟩ := List.cons.inj hsource
      cases hc
  | opens hnext =>
    have hpos := (LexemeKind.next?_length hnext).1
    exact (hplain hnext (by decide) (List.length_pos_iff.mp hpos) hsource).elim
  | @flags text behind letters ls _ htext hopen =>
    obtain ⟨d, text, rfl⟩ := List.exists_cons_of_ne_nil hopen
    obtain ⟨rfl, -⟩ := List.cons.inj htext
    obtain ⟨rfl, -⟩ := List.cons.inj hsource
    cases hc

theorem plains {as cs : List Char} (h : Stands late ls) (hsource : ls.flatMap (·.text) = as ++ cs)
    (has : ∀ c ∈ as, isPlain c = true) :
    ∃ ls', ls = literals as ++ ls' ∧ ls'.flatMap (·.text) = cs ∧ Stands late ls' := by
  induction as generalizing ls with
  | nil => exact ⟨ls, rfl, hsource, h⟩
  | cons c as ih =>
    obtain ⟨hc, has⟩ := List.forall_mem_cons.mp has
    obtain ⟨ls₁, rfl, hsource₁, h₁⟩ := h.cons_plain hsource hc
    obtain ⟨ls', rfl, hsource', h'⟩ := ih h₁ hsource₁ has
    exact ⟨ls', rfl, hsource', h'⟩

/-- The first element of a source that is put together from elements, and the elements that fuse
into it. -/
structure Step (late : Bool) (ls : List Lexeme) (k : Lexeme) (ls' : List Lexeme) : Prop where
  stands : Stands late ls'
  lt : ls'.length < ls.length
  name : opensName ls = opensName ls'
  joins : ∃ block, ls = block ++ ls' ∧ Joins late block k
  cuts_iff : ∀ ks, Cuts (ls.flatMap (·.text)) ks ↔
    ∃ ks', ks = k :: ks' ∧ Cuts (ls'.flatMap (·.text)) ks'

/-- The first element is found again. -/
theorem Step.of_next? {kind : LexemeKind} {text : List Char} (h : Stands late ls)
    (hnext : next? (text ++ ls.flatMap (·.text)) = some (kind, text.length))
    (hkind : kind ≠ .literal) (hname : opensName (⟨kind, text⟩ :: ls) = opensName ls) :
    Step late (⟨kind, text⟩ :: ls) ⟨kind, text⟩ ls where
  stands := h
  lt := Nat.lt_succ_self _
  name := hname
  joins := ⟨_, rfl, .same _⟩
  cuts_iff _ := by
    rw [List.flatMap_cons]
    exact Cuts.cuts_iff_of_next? hnext hkind

theorem opensName_of_ne (h : l.kind ≠ .brace) : opensName (l :: ls) = opensName ls := by
  rw [opensName, decide_eq_false h]
  rfl

theorem opensName_of_literal (l : Lexeme) (ls : List Lexeme) (h : l.kind = .literal) :
    opensName (l :: ls) = opensName ls :=
  opensName_of_ne (h ▸ LexemeKind.noConfusion)

theorem opensName_literals (cs : List Char) (ls : List Lexeme) :
    opensName (literals cs ++ ls) = opensName ls :=
  literals_append_congr opensName_of_literal cs ls

theorem opensName_pieces (ls : List Lexeme) : opensName (pieces ls) = opensName ls :=
  pieces_congr opensName_of_literal
    (fun l ls ks _ htext hls => by rw [opensName, opensName, htext, hls]) ls

theorem step_backref {d : Char} {ds : List Char} (h : Stands late ls) (hd : d.isDigit = true)
    (hzero : d ≠ '0') (hds : ∀ c ∈ ds, c.isDigit = true) :
    ∃ k ls', Step late (⟨.backref, '\\' :: d :: ds⟩ :: ls) k ls' := by
  obtain ⟨more, rest, hsource, hmore, hrest⟩ :=
    Regex.Flags.exists_span Char.isDigit (ls.flatMap (·.text))
  have hplain : ∀ c ∈ more, isPlain c = true := fun c hc => isPlain_of (by decide) (hmore c hc)
  obtain ⟨ls', rfl, rfl, h'⟩ := h.plains hsource hplain
  have hdigits : ∀ c ∈ ds ++ more, c.isDigit = true := List.forall_mem_append.mpr ⟨hds, hmore⟩
  have hnext : next? ('\\' :: d :: (ds ++ more) ++ ls'.flatMap (·.text)) =
      some (.backref, ('\\' :: d :: (ds ++ more)).length) := by
    rw [List.cons_append, List.cons_append, LexemeKind.next?_backref hd hzero,
      (Regex.Flags.takeWhile_append_of_head? hdigits hrest).1, Nat.add_comm]
    rfl
  refine ⟨⟨.backref, '\\' :: d :: (ds ++ more)⟩, ls', h', ?_, ?_, ?_, fun ks => ?_⟩
  · rw [List.length_cons, List.length_append]
    omega
  · rw [opensName_of_ne LexemeKind.noConfusion, opensName_literals]
  · by_cases hne : more = []
    · subst hne
      rw [List.append_nil]
      exact ⟨_, rfl, .same _⟩
    · exact ⟨_, rfl, .digits hd hzero hne hmore⟩
  · have hsplit : (⟨.backref, '\\' :: d :: ds⟩ :: (literals more ++ ls')).flatMap (·.text) =
        '\\' :: d :: (ds ++ more) ++ ls'.flatMap (·.text) := by simp
    rw [hsplit]
    exact Cuts.cuts_iff_of_next? hnext (by decide)

/-- Elements whose source begins with a brace that no other one follows begin with that brace. -/
theorem cons_brace {cs : List Char} (h : Stands late ls)
    (hsource : ls.flatMap (·.text) = '\x7b' :: cs) (hcs : cs.head? ≠ some '\x7b') :
    ∃ ls', ls = ⟨.brace, ['\x7b']⟩ :: ls' ∧ ls'.flatMap (·.text) = cs ∧ Stands late ls' := by
  cases h with
  | nil => cases hsource
  | @steady l ls hl h =>
    rw [List.flatMap_cons] at hsource
    cases hl with
    | @closed kind text htext =>
      cases htext with
      | reference =>
        obtain ⟨-, rfl⟩ := List.cons.inj hsource
        exact absurd rfl hcs
      | _ =>
        obtain ⟨heq, -⟩ := List.cons.inj hsource
        cases heq
    | plain hplain =>
      obtain ⟨rfl, -⟩ := List.cons.inj hsource
      cases hplain
    | backref =>
      obtain ⟨heq, -⟩ := List.cons.inj hsource
      cases heq
    | brace =>
      obtain ⟨-, rfl⟩ := List.cons.inj hsource
      exact ⟨ls, rfl, rfl, h⟩
  | opens hnext =>
    rw [List.flatMap_cons] at hsource
    rw [hsource] at hnext
    obtain ⟨rest, heq, -⟩ := LexemeKind.exists_open hnext
    cases heq
  | @flags text behind letters ls _ htext hopen =>
    obtain ⟨d, text, rfl⟩ := List.exists_cons_of_ne_nil hopen
    obtain ⟨rfl, -⟩ := List.cons.inj htext
    obtain ⟨heq, -⟩ := List.cons.inj hsource
    cases heq

/-- Two braces, a name and two closing braces are a reference. -/
theorem step_name {name rest : List Char} (h : Stands late ls) (hname : isWord name = true)
    (hsource : ls.flatMap (·.text) = '\x7b' :: (name ++ '\x7d' :: '\x7d' :: rest)) :
    ∃ k ls', Step late (⟨.brace, ['\x7b']⟩ :: ls) k ls' := by
  have hlength := LexemeKind.nameLength_append hname ('\x7d' :: '\x7d' :: rest) (by
    simp [LexemeKind.isNamePart])
  have hhead : (name ++ '\x7d' :: '\x7d' :: rest).head? ≠ some '\x7b' := by
    intro hhead
    rw [List.eq_cons_of_mem_head? hhead, LexemeKind.nameLength_eq_zero_iff.mpr rfl] at hlength
    exact hlength.2 hlength.1.symm
  have hplain : ∀ c ∈ name ++ ['\x7d', '\x7d'], isPlain c = true := by
    refine List.forall_mem_append.mpr ⟨fun c hc => ?_, List.all_eq_true.mp (by decide)⟩
    exact isPlain_of (by decide) (LexemeKind.isNamePart_of_mem hname hc)
  obtain ⟨ls₁, rfl, hsource₁, h₁⟩ := h.cons_brace hsource hhead
  have hsplit : name ++ '\x7d' :: '\x7d' :: rest = name ++ ['\x7d', '\x7d'] ++ rest := by simp
  rw [hsplit] at hsource₁
  obtain ⟨ls', rfl, rfl, h'⟩ := h₁.plains hsource₁ hplain
  refine ⟨_, ls', h', ?_, ?_, ⟨_, rfl, .name hname⟩, fun ks => ?_⟩
  · simp only [List.length_cons, List.length_append]
    omega
  · have hkeeps : leavesName ('\x7b' :: (name ++ '\x7d' :: '\x7d' :: ls'.flatMap (·.text))) =
        false := by
      simp [leavesName, hlength.1]
    have hkeeps' : leavesName (name ++ '\x7d' :: '\x7d' :: ls'.flatMap (·.text)) = false := by
      unfold leavesName
      split
      · rename_i heq
        rw [heq] at hhead
        exact absurd rfl hhead
      · rfl
    have htext : (literals (name ++ ['\x7d', '\x7d']) ++ ls').flatMap (·.text) =
        name ++ '\x7d' :: '\x7d' :: ls'.flatMap (·.text) := by simp
    rw [opensName, opensName, List.flatMap_cons, htext]
    dsimp only
    rw [List.singleton_append, hkeeps, hkeeps', opensName_literals]
    rfl
  · have htext : (⟨.brace, ['\x7b']⟩ :: ⟨.brace, ['\x7b']⟩ ::
          (literals (name ++ ['\x7d', '\x7d']) ++ ls')).flatMap (·.text) =
        '\x7b' :: '\x7b' :: (name ++ ['\x7d', '\x7d']) ++ ls'.flatMap (·.text) := by simp
    rw [htext]
    exact Cuts.cuts_iff_of_next? ((HasText.reference hname).next?_append _) (by decide)

/-- A name that no two braces end is no element. -/
theorem next?_of_leavesName {cs : List Char} (h : leavesName cs = true) :
    next? ('\x7b' :: cs) = none := by
  unfold leavesName at h
  split at h
  · rename_i cs
    obtain ⟨hname, hends⟩ := (Bool.and_eq_true _ _).mp h
    rw [next?]
    split
    · rename_i hzero
      rw [hzero] at hname
      cases hname
    · exact if_neg (bne_iff_ne.mp hends)
  · cases h

theorem step_brace (h : Stands late ls) :
    (∃ k ls', Step late (⟨.brace, ['\x7b']⟩ :: ls) k ls') ∨
      opensName (⟨.brace, ['\x7b']⟩ :: ls) = true ∧
        ∀ ks, ¬Cuts ('\x7b' :: ls.flatMap (·.text)) ks := by
  generalize hsource : ls.flatMap (·.text) = cs
  have hname : leavesName cs = false → opensName (⟨.brace, ['\x7b']⟩ :: ls) = opensName ls := by
    intro hleaves
    rw [opensName, hsource, hleaves, Bool.and_false, Bool.false_or]
  by_cases hpair : ∃ ds, cs = '\x7b' :: ds ∧ nameLength ds ≠ 0
  · obtain ⟨ds, rfl, hne⟩ := hpair
    obtain ⟨name, rest, rfl, hlength, hword, hrest⟩ := LexemeKind.exists_name hne
    by_cases hends : rest.take 2 = ['\x7d', '\x7d']
    · obtain ⟨rest, rfl⟩ : ∃ ds, rest = '\x7d' :: '\x7d' :: ds := ⟨rest.drop 2, by
        rw [← List.take_append_drop 2 rest, hends]
        rfl⟩
      exact .inl (step_name h hword hsource)
    · have hleaves : leavesName ('\x7b' :: (name ++ rest)) = true := by
        rw [leavesName, hlength, List.drop_left, Bool.and_eq_true, bne_iff_ne, bne_iff_ne]
        exact ⟨hlength ▸ hne, hends⟩
      refine .inr ⟨?_, fun ks hcuts => hcuts.next?_ne_none (next?_of_leavesName hleaves)⟩
      rw [opensName, hsource, hleaves]
      rfl
  · refine .inl ⟨⟨.brace, ['\x7b']⟩, ls, .of_next? h ?_ (by decide) (hname ?_)⟩
    · rw [hsource]
      by_cases hhead : cs.head? = some '\x7b'
      · obtain ⟨ds, rfl⟩ : ∃ ds, cs = '\x7b' :: ds := ⟨cs.tail, List.eq_cons_of_mem_head? hhead⟩
        exact LexemeKind.next?_braces (not_not.mp fun hne => hpair ⟨ds, rfl, hne⟩)
      · exact LexemeKind.next?_brace hhead
    · unfold leavesName
      split
      · rename_i ds
        have hzero : nameLength ds = 0 := not_not.mp fun hne => hpair ⟨ds, rfl, hne⟩
        rw [hzero]
        rfl
      · rfl

theorem step (h : Stands late (l :: ls)) :
    (∃ k ls', Step late (l :: ls) k ls') ∨
      opensName (l :: ls) = true ∧ ∀ ks, ¬Cuts ((l :: ls).flatMap (·.text)) ks := by
  generalize hks : l :: ls = ks at h
  cases h with
  | nil => cases hks
  | @steady l ls hl h =>
    cases hl with
    | closed htext =>
      have hkind := htext.isClosed
      refine .inl ⟨_, _, .of_next? h (htext.next?_append _) ?_ (opensName_of_ne ?_)⟩ <;>
        rintro rfl <;> cases hkind
    | @plain c hplain =>
      refine .inl ⟨⟨.literal, [c]⟩, ls, h, Nat.lt_succ_self _,
        opensName_of_ne LexemeKind.noConfusion, ⟨_, rfl, .same _⟩, fun ks => ?_⟩
      rw [List.flatMap_cons]
      exact Cuts.cuts_iff_of_plain hplain
    | backref hd hzero hds => exact .inl (step_backref h hd hzero hds)
    | brace => exact step_brace h
  | opens hnext h =>
    exact .inl ⟨_, _, .of_next? h hnext LexemeKind.noConfusion (opensName_of_ne nofun)⟩
  | @flags text behind letters ls hlate htext hopen hletters hne h =>
    refine .inl ⟨⟨.flags, text ++ behind ++ [')']⟩, ls, h, ?_, ?_, ⟨_, ?_, .flags hlate⟩,
      fun ks => ?_⟩
    · simp only [List.length_cons, List.length_append]
      omega
    · rw [opensName_of_ne LexemeKind.noConfusion, opensName_literals,
        opensName_of_ne LexemeKind.noConfusion]
    · rw [List.cons_append, List.append_assoc, List.singleton_append]
    · have hsource :
          (⟨.open, text⟩ :: (literals behind ++ ⟨.close, [')']⟩ :: ls)).flatMap (·.text) =
            text ++ behind ++ [')'] ++ ls.flatMap (·.text) := by simp
      have hnext := (LexemeKind.next?_flags hletters (ls.flatMap (·.text))).1 hne
      rw [hsource]
      refine Cuts.cuts_iff_of_next? ?_ (by decide)
      rw [htext]
      simpa using hnext

/-- The elements of a source that is put together. -/
theorem exists_fuses (h : Stands late ls) (hname : opensName ls = false) :
    ∃ ks, Cuts (ls.flatMap (·.text)) ks ∧ Fuses late ls ks := by
  induction hn : ls.length using Nat.strong_induction_on generalizing ls with
  | _ n ih =>
    cases ls with
    | nil => exact ⟨[], .nil, .nil⟩
    | cons l ls =>
      obtain ⟨k, ls', hstep⟩ | ⟨hopens, -⟩ := h.step
      · rw [hstep.name] at hname
        obtain ⟨ks, hcuts, hfuses⟩ := ih _ (hn ▸ hstep.lt) hstep.stands hname rfl
        obtain ⟨block, hblock, hjoins⟩ := hstep.joins
        exact ⟨k :: ks, (hstep.cuts_iff _).mpr ⟨ks, rfl, hcuts⟩, hblock ▸ .cons hjoins hfuses⟩
      · rw [hopens] at hname
        cases hname

/-- A source that is put together is cut into elements where no name is left open. -/
theorem opensName_eq_false {ks : List Lexeme} (h : Stands late ls)
    (hcuts : Cuts (ls.flatMap (·.text)) ks) : opensName ls = false := by
  induction hn : ls.length using Nat.strong_induction_on generalizing ls ks with
  | _ n ih =>
    cases ls with
    | nil => rfl
    | cons l ls =>
      obtain ⟨k, ls', hstep⟩ | ⟨-, hnone⟩ := h.step
      · obtain ⟨ks', rfl, hcuts'⟩ := (hstep.cuts_iff _).mp hcuts
        rw [hstep.name, ih _ (hn ▸ hstep.lt) hstep.stands hcuts' rfl]
      · exact absurd hcuts (hnone ks)

/-- The elements of a source fuse from those it was put together from. -/
theorem fuses {ks : List Lexeme} (h : Stands late ls) (hcuts : Cuts (ls.flatMap (·.text)) ks) :
    Fuses late ls ks := by
  obtain ⟨ks', hcuts', hfuses⟩ := h.exists_fuses (h.opensName_eq_false hcuts)
  rwa [hcuts.unique hcuts']

end Stands

namespace Lexeme.Steady

theorem literals {cs : List Char} (h : ∀ c ∈ cs, isPlain c = true) :
    ∀ l ∈ Tinct.literals cs, l.Steady := by
  intro l hl
  obtain ⟨c, hc, rfl⟩ := List.mem_map.mp hl
  exact .plain (h c hc)

theorem ne_nil {l : Lexeme} (h : l.Steady) : l.text ≠ [] := by
  cases h with
  | closed htext => exact htext.ne_nil
  | _ => exact List.cons_ne_nil _ _

theorem open_ne {l : Lexeme} (h : l.Steady) : l.kind ≠ .open := by
  cases h with
  | closed htext =>
    rintro rfl
    cases htext.isClosed
  | _ => exact nofun

/-- What is found at the front of a source may be put anywhere, unless it opens a group. -/
theorem of_next? {kind : LexemeKind} {text cs : List Char}
    (h : next? (text ++ cs) = some (kind, text.length)) (hliteral : kind ≠ .literal)
    (hopen : kind ≠ .open) : (⟨kind, text⟩ : Lexeme).Steady := by
  generalize hsource : text ++ cs = ds at h
  generalize hlength : text.length = n at h
  cases LexemeKind.heads_of_next? h with
  | closed htext =>
    obtain ⟨rfl, -⟩ := List.append_inj hsource hlength
    exact .closed htext
  | @backref d ds rest hd hzero hds =>
    have hsplit : '\\' :: d :: (ds ++ rest) = ('\\' :: d :: ds) ++ rest := rfl
    obtain ⟨rfl, -⟩ := List.append_inj (hsource.trans hsplit) (by rw [hlength]; rfl)
    exact .backref hd hzero hds
  | brace rest =>
    obtain ⟨rfl, -⟩ := List.append_inj (show _ = ['\x7b'] ++ rest from hsource) hlength
    exact .brace
  | opens => exact absurd rfl hopen
  | literal => exact absurd rfl hliteral

theorem close : (⟨.close, [')']⟩ : Lexeme).Steady := .closed .close

theorem alternate : (⟨.alternate, ['|']⟩ : Lexeme).Steady := .closed .alternate

end Lexeme.Steady

theorem Stands.of_steady {late : Bool} {ls : List Lexeme} (h : ∀ l ∈ ls, l.Steady) :
    Stands late ls := by
  induction ls with
  | nil => exact .nil
  | cons l ls ih =>
    obtain ⟨hl, hls⟩ := List.forall_mem_cons.mp h
    exact .steady hl (ih hls)

/-- What is put in front of elements that stand. -/
theorem Stands.append {late : Bool} {ls ks : List Lexeme} (h : ∀ l ∈ ls, l.Steady)
    (hks : Stands late ks) : Stands late (ls ++ ks) := by
  induction ls with
  | nil => exact hks
  | cons l ls ih =>
    obtain ⟨hl, hls⟩ := List.forall_mem_cons.mp h
    exact .steady hl (ih hls)

theorem Stands.late {late : Bool} {ls : List Lexeme} (h : Stands late ls) : Stands true ls := by
  induction h with
  | nil => exact .nil
  | steady hl _ ih => exact .steady hl ih
  | opens hnext _ ih => exact .opens hnext ih
  | flags _ htext hopen hletters hne _ ih => exact .flags rfl htext hopen hletters hne ih

theorem Stands.eq_nil {late : Bool} {ls : List Lexeme} (h : Stands late ls)
    (hsource : ls.flatMap (·.text) = []) : ls = [] := by
  cases h with
  | nil => rfl
  | steady hl => exact absurd (List.append_eq_nil_iff.mp hsource).1 hl.ne_nil
  | opens hnext =>
    have hpos := (LexemeKind.next?_length hnext).1
    exact absurd (List.append_eq_nil_iff.mp hsource).1 (List.length_pos_iff.mp hpos)
  | flags _ _ hopen => exact absurd (List.append_eq_nil_iff.mp hsource).1 hopen

/-- A closing parenthesis is put behind elements. If the last parenthesis among them has nothing but
flags behind it, the closing one makes it set them. -/
theorem Stands.append_close {late : Bool} {ls : List Lexeme} (h : Stands late ls) :
    Stands true (ls ++ [⟨.close, [')']⟩]) := by
  induction h with
  | nil => exact .steady .close .nil
  | steady hl _ ih => exact .steady hl ih
  | @opens text ls hnext h ih =>
    have hne : text ≠ [] := List.length_pos_iff.mp (LexemeKind.next?_length hnext).1
    obtain ⟨rest, hrest, hgroup⟩ := LexemeKind.exists_open hnext
    obtain hstays | ⟨letters, rfl, hletters, hletter⟩ := LexemeKind.group?_close hgroup []
    · have hsource : text ++ (ls ++ [(⟨.close, [')']⟩ : Lexeme)]).flatMap (·.text) =
          '(' :: (rest ++ [')']) := by
        rw [List.flatMap_append, ← List.append_assoc, hrest]
        rfl
      exact .opens (hsource ▸ hstays) ih
    · obtain ⟨c, text, rfl⟩ := List.exists_cons_of_ne_nil hne
      have htail : text ++ ls.flatMap (·.text) = '?' :: letters := (List.cons.inj hrest).2
      have hplain : ∀ c ∈ ls.flatMap (·.text), isPlain c = true := by
        intro c hc
        obtain rfl | hc := List.mem_cons.mp (htail ▸ List.mem_append_right text hc)
        · rfl
        · exact isPlain_of (by decide) (hletters c hc)
      obtain ⟨ls', hls, hnil, h'⟩ := h.plains (List.append_nil _).symm hplain
      obtain rfl := h'.eq_nil hnil
      have hflags := Stands.flags rfl hrest hne hletters hletter .nil
      rwa [hls, List.append_nil, List.cons_append]
  | @flags text behind letters ls _ htext hopen hletters hne _ ih =>
    have hsplit : (⟨.open, text⟩ : Lexeme) :: (literals behind ++ ⟨.close, [')']⟩ :: ls) ++
        [⟨.close, [')']⟩] = ⟨.open, text⟩ :: (literals behind ++ ⟨.close, [')']⟩ ::
          (ls ++ [⟨.close, [')']⟩])) := by simp
    rw [hsplit]
    exact .flags rfl htext hopen hletters hne ih

theorem takeWhile_append_congr {p : Char → Bool} {as bs : List Char}
    (h : as.takeWhile p = bs.takeWhile p) (cs : List Char) :
    (cs ++ as).takeWhile p = (cs ++ bs).takeWhile p := by
  induction cs with
  | nil => exact h
  | cons c cs ih =>
    rw [List.cons_append, List.cons_append, List.takeWhile_cons, List.takeWhile_cons, ih]

/-- What opens a group does so in front of any source that goes on like its own up to the next group
or brace. -/
theorem next?_open_congr {text as bs : List Char}
    (h : next? (text ++ as) = some (.open, text.length))
    (hlike : as.takeWhile isOpening = bs.takeWhile isOpening) :
    next? (text ++ bs) = some (.open, text.length) := by
  have hne : text ≠ [] := List.length_pos_iff.mp (LexemeKind.next?_length h).1
  obtain ⟨rest, hrest, hgroup⟩ := LexemeKind.exists_open h
  obtain ⟨c, text, rfl⟩ := List.exists_cons_of_ne_nil hne
  obtain ⟨rfl, htail⟩ := List.cons.inj hrest
  have hview := takeWhile_append_congr hlike text
  rw [List.cons_append, next?, ← hgroup, ← LexemeKind.group?_takeWhile (text ++ bs), ← hview,
    LexemeKind.group?_takeWhile]
  exact congrArg LexemeKind.group? htail

end Tinct
