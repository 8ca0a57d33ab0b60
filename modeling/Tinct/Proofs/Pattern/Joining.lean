import Tinct.Proofs.Pattern.Assembly
import Tinct.Proofs.Pattern.Lowering

/-!
# Backreferences of an assembled source

A numbered backreference takes in all digits behind it, also those of the next operand:

* `joinsDigit`: whether a digit stands behind one;
* `Fuses.mapM_eq_ok_iff`: the backreferences of a source are those that it was put together from,
  unless one does;
* `PatternScope.backreferences_eq_iff`: so it is for assembled sources, and for the groups that an
  end pattern refers to.
-/

namespace Tinct

open LexemeKind (next?)

/-- The backreferences among elements. -/
def backreferences (ls : List Lexeme) : List Lexeme := ls.filter (·.kind.isBackreference)

/-- Whether a digit stands behind a numbered backreference. -/
def joinsDigit : List Lexeme → Bool
  | [] => false
  | l :: ls =>
    (l.kind = .backref && (ls.flatMap (·.text)).head?.any (·.isDigit)) || joinsDigit ls

/-- What an element refers to, as a piece of an end pattern. -/
def Lexeme.reference? (l : Lexeme) : Except PatternError TemplatePiece :=
  if l.kind = .backref then (groupNumber? l).map .group else .ok (.named l.name)

def TemplatePiece.isReference : TemplatePiece → Bool
  | .text _ => false
  | .group _ | .named _ => true

/-! ## Elements that fuse -/

theorem backreferences_cons_of {l : Lexeme} (h : l.kind.isBackreference = true)
    (ls : List Lexeme) : backreferences (l :: ls) = l :: backreferences ls :=
  List.filter_cons_of_pos h

theorem backreferences_cons_of_not {l : Lexeme} (h : l.kind.isBackreference = false)
    (ls : List Lexeme) : backreferences (l :: ls) = backreferences ls :=
  List.filter_cons_of_neg (Bool.eq_false_iff.mp h)

theorem backreferences_append (ls ks : List Lexeme) :
    backreferences (ls ++ ks) = backreferences ls ++ backreferences ks :=
  List.filter_append _ _

theorem backreferences_of_literal (l : Lexeme) (ls : List Lexeme) (h : l.kind = .literal) :
    backreferences (l :: ls) = backreferences ls :=
  backreferences_cons_of_not (h ▸ rfl) ls

theorem backreferences_literals (cs : List Char) (ls : List Lexeme) :
    backreferences (literals cs ++ ls) = backreferences ls :=
  literals_append_congr backreferences_of_literal cs ls

theorem backreferences_pieces (ls : List Lexeme) :
    backreferences (pieces ls) = backreferences ls := by
  refine pieces_congr backreferences_of_literal (fun l ls ks _ _ hls => ?_) ls
  rw [← List.singleton_append, backreferences_append, hls, ← backreferences_append]
  rfl

theorem joinsDigit_cons_of {l : Lexeme} {ls : List Lexeme}
    (h : l.kind = .backref → ∀ c ∈ (ls.flatMap (·.text)).head?, c.isDigit = false) :
    joinsDigit (l :: ls) = joinsDigit ls := by
  rw [joinsDigit]
  cases hhead : (ls.flatMap (·.text)).head? with
  | none => simp
  | some c =>
    by_cases hkind : l.kind = .backref
    · simp [h hkind c hhead]
    · simp [hkind]

theorem joinsDigit_cons_of_ne {l : Lexeme} (h : l.kind ≠ .backref) (ls : List Lexeme) :
    joinsDigit (l :: ls) = joinsDigit ls :=
  joinsDigit_cons_of fun hkind => absurd hkind h

theorem joinsDigit_of_literal (l : Lexeme) (ls : List Lexeme) (h : l.kind = .literal) :
    joinsDigit (l :: ls) = joinsDigit ls :=
  joinsDigit_cons_of_ne (h ▸ LexemeKind.noConfusion) ls

theorem joinsDigit_literals (cs : List Char) (ls : List Lexeme) :
    joinsDigit (literals cs ++ ls) = joinsDigit ls :=
  literals_append_congr joinsDigit_of_literal cs ls

theorem joinsDigit_pieces (ls : List Lexeme) : joinsDigit (pieces ls) = joinsDigit ls :=
  pieces_congr joinsDigit_of_literal
    (fun l ls ks _ htext hls => by rw [joinsDigit, joinsDigit, htext, hls]) ls

/-- No digit stands behind a numbered backreference where it is read. -/
theorem LexemeKind.head?_of_backref {text cs : List Char}
    (h : next? (text ++ cs) = some (.backref, text.length)) :
    ∀ c ∈ cs.head?, c.isDigit = false := by
  generalize hsource : text ++ cs = ds at h
  generalize hlength : text.length = n at h
  cases heads_of_next? h with
  | closed htext => cases htext.isClosed
  | @backref d ds rest _ _ _ hrest =>
    have hsplit : '\\' :: d :: (ds ++ rest) = ('\\' :: d :: ds) ++ rest := rfl
    obtain ⟨-, rfl⟩ := List.append_inj (hsource.trans hsplit) (by rw [hlength]; rfl)
    exact hrest

theorem Cuts.exists_tail {cs : List Char} {l : Lexeme} {ls : List Lexeme} (h : Cuts cs (l :: ls)) :
    Cuts (ls.flatMap (·.text)) ls ∧
      (l.kind = .backref → ∀ c ∈ (ls.flatMap (·.text)).head?, c.isDigit = false) := by
  cases h with
  | plain _ h =>
    rw [h.flatMap_text]
    exact ⟨h, nofun⟩
  | @lexeme kind text cs _ hnext _ _ h =>
    rw [h.flatMap_text]
    refine ⟨h, ?_⟩
    rintro rfl
    exact LexemeKind.head?_of_backref hnext

/-- What is found of the backreferences of a source is what is found of those that it was put
together from, exactly when no digit stands behind one. With more digits behind it, another thing
has to be found of a backreference. -/
theorem Fuses.mapM_eq_ok_iff {α : Type} {f : Lexeme → Except PatternError α}
    (hf : ∀ (d : Char) (ds more : List Char) (a : α), d.isDigit = true → d ≠ '0' → more ≠ [] →
      f ⟨.backref, '\\' :: d :: ds⟩ = .ok a → f ⟨.backref, '\\' :: d :: (ds ++ more)⟩ ≠ .ok a)
    {late : Bool} {ls ks : List Lexeme} (h : Fuses late ls ks) {cs : List Char} (hcuts : Cuts cs ks)
    {as : List α} (hks : (backreferences ks).mapM f = .ok as) :
    (backreferences ls).mapM f = .ok as ↔ joinsDigit ls = false := by
  induction h generalizing cs as with
  | nil => simp [joinsDigit, hks]
  | @cons block ls ks k hjoins h ih =>
    obtain ⟨htail, hdigit⟩ := hcuts.exists_tail
    cases hjoins with
    | same =>
      have hnext : k.kind = .backref → ∀ c ∈ (ls.flatMap (·.text)).head?, c.isDigit = false := by
        rwa [← h.flatMap_text]
      rw [List.singleton_append, joinsDigit_cons_of hnext]
      cases hrefers : k.kind.isBackreference with
      | false =>
        rw [backreferences_cons_of_not hrefers] at hks ⊢
        exact ih htail hks
      | true =>
        rw [backreferences_cons_of hrefers] at hks ⊢
        obtain ⟨a, as, ha, has, rfl⟩ := mapM_cons_eq_ok.mp hks
        rw [← ih htail has]
        constructor
        · intro hls
          obtain ⟨a', as', -, has', heq⟩ := mapM_cons_eq_ok.mp hls
          exact (List.cons.inj heq).2 ▸ has'
        · exact fun has' => mapM_cons_eq_ok.mpr ⟨a, as, ha, has', rfl⟩
    | @digits d ds more hd hzero hne hmore =>
      have hjoin : joinsDigit (⟨.backref, '\\' :: d :: ds⟩ :: (literals more ++ ls)) = true := by
        obtain ⟨c, more, rfl⟩ := List.exists_cons_of_ne_nil hne
        simp [joinsDigit, hmore c List.mem_cons_self]
      rw [List.cons_append, hjoin]
      refine iff_of_false (fun hls => ?_) (by decide)
      rw [backreferences_cons_of rfl] at hks hls
      obtain ⟨a, as, ha, -, rfl⟩ := mapM_cons_eq_ok.mp hks
      obtain ⟨a', as', ha', -, heq⟩ := mapM_cons_eq_ok.mp hls
      obtain ⟨rfl, -⟩ := List.cons.inj heq
      exact hf d ds more a' hd hzero hne ha' ha
    | name =>
      rw [backreferences_cons_of_not rfl] at hks
      rw [List.cons_append, List.cons_append, backreferences_cons_of_not rfl,
        backreferences_cons_of_not rfl, backreferences_literals,
        joinsDigit_cons_of_ne LexemeKind.noConfusion, joinsDigit_cons_of_ne LexemeKind.noConfusion,
        joinsDigit_literals]
      exact ih htail hks
    | flags =>
      rw [backreferences_cons_of_not rfl] at hks
      rw [List.cons_append, List.append_assoc, List.singleton_append,
        backreferences_cons_of_not rfl, backreferences_literals, backreferences_cons_of_not rfl,
        joinsDigit_cons_of_ne LexemeKind.noConfusion, joinsDigit_literals,
        joinsDigit_cons_of_ne LexemeKind.noConfusion]
      exact ih htail hks

theorem Fuses.backreferences_iff {late : Bool} {ls ks : List Lexeme} (h : Fuses late ls ks)
    {cs : List Char} (hcuts : Cuts cs ks) :
    backreferences ks = backreferences ls ↔ joinsDigit ls = false := by
  have hmapM (ls : List Lexeme) :
      ls.mapM (fun l => (.ok l : Except PatternError Lexeme)) = .ok ls := by
    induction ls with
    | nil => rfl
    | cons l ls ih =>
      rw [List.mapM_cons, ih]
      rfl
  rw [← h.mapM_eq_ok_iff (fun d ds more l hd hzero hne hl hl' => ?_) hcuts (hmapM _), hmapM,
    Except.ok.injEq, eq_comm]
  cases hl
  have htext := congrArg Lexeme.text (Except.ok.inj hl')
  simp [hne] at htext

/-! ## What backreferences refer to -/

theorem le_foldl_digits (ds : List Char) (n : Nat) :
    n ≤ ds.foldl (fun n d => n * 10 + (d.toNat - 48)) n := by
  induction ds generalizing n with
  | nil => exact Nat.le_refl n
  | cons d ds ih =>
    have hstep : n ≤ n * 10 + (d.toNat - 48) := by omega
    exact hstep.trans (ih _)

theorem lt_foldl_digits {ds : List Char} (hne : ds ≠ []) {n : Nat} (hn : 0 < n) :
    n < ds.foldl (fun n d => n * 10 + (d.toNat - 48)) n := by
  obtain ⟨d, ds, rfl⟩ := List.exists_cons_of_ne_nil hne
  have hstep : n < n * 10 + (d.toNat - 48) := by omega
  exact hstep.trans_le (le_foldl_digits ds _)

theorem groupNumber?_eq_ok {l : Lexeme} {n : Nat} (h : groupNumber? l = .ok n) :
    n = (l.text.drop 1).foldl (fun n d => n * 10 + (d.toNat - 48)) 0 := by
  unfold groupNumber? at h
  dsimp only at h
  split at h <;> cases h
  rfl

/-- With more digits a backreference refers to another group. -/
theorem reference?_digits (d : Char) (ds more : List Char) (p : TemplatePiece)
    (hd : d.isDigit = true) (hzero : d ≠ '0') (hne : more ≠ [])
    (h : Lexeme.reference? ⟨.backref, '\\' :: d :: ds⟩ = .ok p) :
    Lexeme.reference? ⟨.backref, '\\' :: d :: (ds ++ more)⟩ ≠ .ok p := by
  intro h'
  obtain ⟨n, hn, rfl⟩ := map_eq_ok.mp h
  obtain ⟨n', hn', heq⟩ := map_eq_ok.mp h'
  obtain rfl := TemplatePiece.group.inj heq
  have hsmall := groupNumber?_eq_ok hn
  have hlarge := groupNumber?_eq_ok hn'
  rw [List.drop_one, List.tail_cons, List.foldl_cons] at hsmall hlarge
  rw [List.foldl_append, ← hsmall] at hlarge
  have hfirst : 0 < 0 * 10 + (d.toNat - 48) := by
    have hdigit : 48 ≤ d.val := by
      rw [Char.isDigit, Bool.and_eq_true, decide_eq_true_iff] at hd
      exact hd.1
    have hdigit : 48 ≤ d.toNat := hdigit
    have hne : d.toNat ≠ 48 := fun h => hzero (Char.toNat_inj.mp h)
    omega
  have hpos : 0 < n' := hsmall ▸ hfirst.trans_le (le_foldl_digits ds _)
  exact absurd hlarge (lt_foldl_digits hne hpos).ne

theorem isReference_of_reference? {l : Lexeme} {p : TemplatePiece} (h : l.reference? = .ok p) :
    p.isReference = true := by
  unfold Lexeme.reference? at h
  split at h
  · obtain ⟨n, -, rfl⟩ := map_eq_ok.mp h
    rfl
  · cases h
    rfl

theorem filter_isReference_consText (cs : List Char) (ps : List TemplatePiece) :
    (consText cs ps).filter (·.isReference) = ps.filter (·.isReference) := by
  unfold consText
  split
  · rfl
  · exact List.filter_cons_of_neg (by simp [TemplatePiece.isReference])

theorem piecesFrom_cons (before : List Char) (l : Lexeme) (ls : List Lexeme) :
    piecesFrom before (l :: ls) =
      if l.kind.isBackreference then do
        let p ← l.reference?
        return consText before (p :: (← piecesFrom [] ls))
      else piecesFrom (before ++ l.text) ls := by
  rw [piecesFrom]
  split
  · rename_i hkind
    have hreference : l.reference? = (groupNumber? l).map .group := if_pos hkind
    rw [hkind, hreference]
    cases groupNumber? l <;> rfl
  · rename_i hkind
    have hreference : l.reference? = .ok (.named l.name) :=
      if_neg (hkind ▸ LexemeKind.noConfusion)
    rw [hkind, hreference]
    rfl
  · rename_i hbackref hnamed
    have hrefers : l.kind.isBackreference = false := by
      cases hkind : l.kind <;> first | rfl | exact absurd hkind hbackref | exact absurd hkind hnamed
    rw [hrefers]
    rfl

/-- The pieces of elements refer to what the backreferences among them do. -/
theorem references_of_piecesFrom {before : List Char} {ls : List Lexeme} {ps : List TemplatePiece}
    (h : piecesFrom before ls = .ok ps) :
    (backreferences ls).mapM Lexeme.reference? = .ok (ps.filter (·.isReference)) := by
  induction ls generalizing before ps with
  | nil =>
    cases h
    rw [filter_isReference_consText]
    rfl
  | cons l ls ih =>
    rw [piecesFrom_cons] at h
    split at h
    · rename_i hrefers
      obtain ⟨p, hp, h⟩ := bind_eq_ok.mp h
      obtain ⟨rest, hrest, h⟩ := bind_eq_ok.mp h
      cases h
      rw [backreferences_cons_of hrefers, filter_isReference_consText,
        List.filter_cons_of_pos (isReference_of_reference? hp)]
      exact mapM_cons_eq_ok.mpr ⟨p, _, hp, ih hrest, rfl⟩
    · rename_i hrefers
      rw [backreferences_cons_of_not (Bool.eq_false_iff.mpr hrefers)]
      exact ih h

/-- All that refers back is left of a source without its trailing lookaheads. -/
theorem exists_kept_of_lowerLookaheads {source : String} {lowered : Lowered}
    (h : lowerLookaheads source = .ok lowered) :
    ∃ ls kept, lex source = .ok ls ∧ backreferences kept = backreferences ls ∧
      lowered.body = Lexeme.join kept ∧ lex lowered.body = .ok kept := by
  obtain ⟨kept, dropped, hls, htaken, hbody, hkept⟩ := exists_of_lowerLookaheads h
  have hdropped : backreferences dropped = [] :=
    List.filter_eq_nil_iff.mpr fun l hl => Bool.eq_false_iff.mp (htaken.refers l hl)
  refine ⟨kept ++ dropped, kept, hls, ?_, hbody, hkept⟩
  rw [backreferences_append, hdropped, List.append_nil]

namespace PatternScope

/-- An end pattern that refers back is lexed without its trailing lookaheads. -/
theorem references_of_endPattern {p : PatternScope} {pattern : Pattern} {source : String}
    {begin : Matcher} {e : EndTemplate} (hsource : assemble p.named pattern = .ok source)
    (h : p.endPattern pattern begin = .ok (.template e)) :
    ∃ ls, lex source = .ok ls ∧
      (backreferences ls).mapM Lexeme.reference? = .ok (e.pieces.filter (·.isReference)) := by
  obtain ⟨source', hsource', h⟩ := bind_eq_ok.mp h
  obtain rfl := Except.ok.inj (hsource.symm.trans hsource')
  obtain ⟨refers, -, h⟩ := bind_eq_ok.mp h
  cases refers with
  | false =>
    obtain ⟨m, -, h⟩ := bind_eq_ok.mp h
    cases h
  | true =>
    obtain ⟨lowered, hlowered, h⟩ := bind_eq_ok.mp h
    obtain ⟨ps, hps, h⟩ := bind_eq_ok.mp h
    obtain ⟨-, -, h⟩ := bind_eq_ok.mp h
    obtain ⟨follows, -, h⟩ := bind_eq_ok.mp h
    obtain ⟨m, -, h⟩ := bind_eq_ok.mp h
    cases h
    obtain ⟨ls, kept, hls, hrefers, -, hkept⟩ := exists_kept_of_lowerLookaheads hlowered
    obtain ⟨kept', hkept', hps⟩ := bind_eq_ok.mp hps
    obtain rfl := Except.ok.inj (hkept.symm.trans hkept')
    exact ⟨ls, hls, hrefers ▸ references_of_piecesFrom hps⟩

/-- The backreferences of an assembled source are those of the sources in it, one by one, exactly
when no digit stands behind one and no two braces begin a name that none end; and an end pattern
refers to the groups that they refer to, exactly when no digit stands behind one. -/
theorem backreferences_eq_iff {p : PatternScope} {pattern : Pattern} {source : String}
    (h : assemble p.named pattern = .ok source) : ∃ ps, partsOf p.named pattern = .ok ps ∧
      ((∃ ls, lex source = .ok ls ∧ backreferences ls = backreferences (Part.flatten ps)) ↔
        joinsDigit (Part.flatten ps) = false ∧ opensName (Part.flatten ps) = false) ∧
      ∀ begin e, p.endPattern pattern begin = .ok (.template e) →
        ((backreferences (Part.flatten ps)).mapM Lexeme.reference? =
            .ok (e.pieces.filter (·.isReference)) ↔ joinsDigit (Part.flatten ps) = false) := by
  obtain ⟨ps, hps, htext, hstands⟩ := Part.exists_partsOf h
  have hsource : (pieces (Part.flatten ps)).flatMap (·.text) = source.toList := by
    rw [flatMap_text_pieces, ← htext, Part.text]
  have hfuses {ls : List Lexeme} (hls : lex source = .ok ls) :
      Cuts source.toList (pieces ls) ∧ Fuses true (pieces (Part.flatten ps)) (pieces ls) :=
    ⟨.of_lex hls, hstands.fuses (hsource ▸ .of_lex hls)⟩
  refine ⟨ps, hps, ⟨?_, ?_⟩, fun begin e he => ?_⟩
  · rintro ⟨ls, hls, hrefers⟩
    obtain ⟨hcuts, hfuses⟩ := hfuses hls
    rw [← backreferences_pieces ls, ← backreferences_pieces (Part.flatten ps),
      hfuses.backreferences_iff hcuts, joinsDigit_pieces] at hrefers
    refine ⟨hrefers, ?_⟩
    rw [← Stands.opensName_pieces]
    exact hstands.opensName_eq_false (hsource ▸ hcuts)
  · rintro ⟨hjoins, hopens⟩
    rw [← Stands.opensName_pieces] at hopens
    rw [← joinsDigit_pieces] at hjoins
    obtain ⟨ks, hcuts, hfuses⟩ := hstands.exists_fuses hopens
    rw [hsource] at hcuts
    obtain ⟨ls, hls, rfl⟩ := lex_of_cuts hcuts
    refine ⟨ls, hls, ?_⟩
    rw [← backreferences_pieces ls, ← backreferences_pieces (Part.flatten ps)]
    exact (hfuses.backreferences_iff hcuts).mpr hjoins
  · obtain ⟨ls, hls, hrefers⟩ := references_of_endPattern h he
    obtain ⟨hcuts, hfuses⟩ := hfuses hls
    rw [← backreferences_pieces] at hrefers ⊢
    rw [← joinsDigit_pieces]
    exact hfuses.mapM_eq_ok_iff reference?_digits hcuts hrefers

/-- What an operand refers to stays what it was where no digit stands behind the reference. -/
theorem backreferences_eq_tag : ∃ ps ls,
    partsOf [] (.concat [.source "</\\1", .source "\\s*>"]) = .ok ps ∧
      lex "</\\1\\s*>" = .ok ls ∧ backreferences ls = backreferences (Part.flatten ps) ∧
      backreferences ls = [⟨.backref, "\\1".toList⟩] := by
  have hassemble : assemble [] (.concat [.source "</\\1", .source "\\s*>"]) =
      .ok "</\\1\\s*>" := by decide +kernel
  obtain ⟨ps, hps, hiff, -⟩ := @backreferences_eq_iff ⟨[], false⟩ _ _ hassemble
  obtain ⟨ps', hps', hkept⟩ : ∃ ps,
      partsOf [] (.concat [.source "</\\1", .source "\\s*>"]) = .ok ps ∧
      (joinsDigit (Part.flatten ps), opensName (Part.flatten ps)) = (false, false) :=
    exists_ok (by decide +kernel)
  obtain rfl := Except.ok.inj (hps.symm.trans hps')
  obtain ⟨hjoins, hopens⟩ := Prod.mk.inj hkept
  obtain ⟨ls, hls, hrefers⟩ := hiff.mpr ⟨hjoins, hopens⟩
  obtain ⟨ls', hls', hone⟩ : ∃ ls, lex "</\\1\\s*>" = .ok ls ∧
      backreferences ls = [⟨.backref, "\\1".toList⟩] := exists_ok (by decide +kernel)
  obtain rfl := Except.ok.inj (hls.symm.trans hls')
  exact ⟨ps, ls, hps, hls, hrefers, hone⟩

/-- A digit of the next operand makes a backreference one to another group. -/
theorem digit_joins_backreference :
    assemble [] (.concat [.source "\\1", .source "0"]) = .ok "\\10" ∧
      (lex "\\1").toOption.map backreferences = some [⟨.backref, "\\1".toList⟩] ∧
      (lex "0").toOption.map backreferences = some [] ∧
      (lex "\\10").toOption.map backreferences = some [⟨.backref, "\\10".toList⟩] ∧
      ((matcher ⟨[], false⟩ (.source "(a)()()()()()()()()(b)")).toOption.map fun begin =>
        match endPattern ⟨[], false⟩ (.concat [.source "\\1", .source "0"]) begin with
        | .ok (.template e) => e.pieces
        | _ => []) = some [.group 10] := by
  decide +kernel

end PatternScope
end Tinct
