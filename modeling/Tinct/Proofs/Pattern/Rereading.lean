import Tinct.Proofs.Pattern.Joining
import Tinct.Proofs.Text.Digits

/-!
# Sources that are read again

A source is cut and read again on its way to an end pattern, and each time the same elements are
found in it:

* `TemplatePiece.written`, `written_of_piecesFrom`: how pieces are written, and that they are
  written as the elements that they stand for;
* `Tidy`, `tidy_of_piecesFrom`: in which order texts and references stand among pieces;
* `lex_reread`: what is found in a source, in its parts, and in the pieces of an end pattern.
-/

namespace Tinct

/-! ## Pieces -/

/-- A piece as it is written in the source of an end pattern. -/
def TemplatePiece.written : TemplatePiece → String
  | .text source => source
  | .group n => "\\" ++ toString n
  | .named name => "\\k<" ++ name ++ ">"

/-- No text among pieces is empty, and none stands next to another. -/
structure Tidy (ps : List TemplatePiece) : Prop where
  nonempty : ∀ p ∈ ps, p ≠ .text ""
  apart : ps.IsChain fun p q => p.isReference = true ∨ q.isReference = true

namespace Tidy
variable {ps : List TemplatePiece} {p : TemplatePiece}

theorem nil : Tidy [] := ⟨nofun, .nil⟩

theorem cons_reference (h : Tidy ps) (hp : p.isReference = true) : Tidy (p :: ps) where
  nonempty := by
    refine List.forall_mem_cons.mpr ⟨?_, h.nonempty⟩
    rintro rfl
    cases hp
  apart := List.isChain_cons.mpr ⟨fun _ _ => .inl hp, h.apart⟩

theorem consText (h : Tidy ps) (hhead : ∀ p ∈ ps.head?, p.isReference = true) (cs : List Char) :
    Tidy (consText cs ps) := by
  unfold Tinct.consText
  split
  · exact h
  · rename_i hne
    refine ⟨List.forall_mem_cons.mpr ⟨fun hempty => ?_, h.nonempty⟩,
      List.isChain_cons.mpr ⟨fun q hq => .inr (hhead q hq), h.apart⟩⟩
    have hcs : String.ofList cs = "" := TemplatePiece.text.inj hempty
    exact hne (by simpa using hcs)

end Tidy

theorem tidy_of_piecesFrom {before : List Char} {ls : List Lexeme} {ps : List TemplatePiece}
    (h : piecesFrom before ls = .ok ps) : Tidy ps := by
  induction ls generalizing before ps with
  | nil =>
    cases h
    exact Tidy.nil.consText nofun before
  | cons l ls ih =>
    rw [piecesFrom_cons] at h
    split at h
    · obtain ⟨p, hp, h⟩ := bind_eq_ok.mp h
      obtain ⟨rest, hrest, h⟩ := bind_eq_ok.mp h
      cases h
      have hreference := isReference_of_reference? hp
      refine ((ih hrest).cons_reference hreference).consText ?_ before
      rintro q hq
      cases hq
      exact hreference
    · exact ih h

theorem join_consText (cs : List Char) (ps : List TemplatePiece) :
    String.join ((consText cs ps).map (·.written)) =
      .ofList cs ++ String.join (ps.map (·.written)) := by
  unfold consText
  split
  · rename_i hnil
    rw [List.isEmpty_iff.mp hnil]
    simp
  · simp [TemplatePiece.written]

/-- Pieces are written as the elements that they stand for. -/
theorem written_of_piecesFrom {before : List Char} {ls : List Lexeme} {ps : List TemplatePiece}
    (hwritten : ∀ l ∈ backreferences ls, ∀ p, l.reference? = .ok p → p.written = .ofList l.text)
    (h : piecesFrom before ls = .ok ps) :
    String.join (ps.map (·.written)) = .ofList (before ++ ls.flatMap (·.text)) := by
  induction ls generalizing before ps with
  | nil =>
    cases h
    simp [join_consText]
  | cons l ls ih =>
    rw [piecesFrom_cons] at h
    split at h
    · rename_i hrefers
      rw [backreferences_cons_of hrefers] at hwritten
      obtain ⟨hl, hls⟩ := List.forall_mem_cons.mp hwritten
      obtain ⟨p, hp, h⟩ := bind_eq_ok.mp h
      obtain ⟨rest, hrest, h⟩ := bind_eq_ok.mp h
      cases h
      rw [join_consText, List.map_cons, String.join_cons, hl p hp, ih hls hrest]
      simp
    · rename_i hrefers
      rw [backreferences_cons_of_not (Bool.eq_false_iff.mpr hrefers)] at hwritten
      rw [ih hwritten h]
      simp

/-- Pieces fail for what a backreference refers to. -/
theorem exists_of_piecesFrom_eq_error {before : List Char} {ls : List Lexeme} {e : PatternError}
    (h : piecesFrom before ls = .error e) : ∃ l ∈ backreferences ls, l.reference? = .error e := by
  induction ls generalizing before with
  | nil => cases h
  | cons l ls ih =>
    rw [piecesFrom_cons] at h
    split at h
    · rename_i hrefers
      rw [backreferences_cons_of hrefers]
      obtain hl | ⟨p, -, h⟩ := bind_eq_error.mp h
      · exact ⟨l, List.mem_cons_self .., hl⟩
      · obtain hrest | ⟨rest, -, h⟩ := bind_eq_error.mp h
        · obtain ⟨k, hk, he⟩ := ih hrest
          exact ⟨k, List.mem_cons_of_mem _ hk, he⟩
        · cases h
    · rename_i hrefers
      rw [backreferences_cons_of_not (Bool.eq_false_iff.mpr hrefers)]
      exact ih h

/-! ## Backreferences -/

theorem groupNumber?_eq (l : Lexeme) : groupNumber? l =
    if Nat.ofDigitChars 10 (l.text.drop 1) 0 < Nat.pow 2 64 then
      .ok (Nat.ofDigitChars 10 (l.text.drop 1) 0)
    else .error (.groupNumberTooLarge (.ofList l.text)) := by
  rw [← digitsValue_eq]
  rfl

theorem reference?_eq_error {l : Lexeme} {e : PatternError} (h : l.reference? = .error e) :
    l.kind = .backref ∧ Nat.pow 2 64 ≤ Nat.ofDigitChars 10 (l.text.drop 1) 0 ∧
      e = .groupNumberTooLarge (.ofList l.text) := by
  unfold Lexeme.reference? at h
  split at h
  · rename_i hkind
    rw [groupNumber?_eq] at h
    split at h
    · cases h
    · rename_i hlarge
      cases h
      exact ⟨hkind, Nat.le_of_not_lt hlarge, rfl⟩
  · cases h

/-- What a backreference of a source refers to is written as the backreference. -/
theorem Reads.written_eq {cs : List Char} {ls : List Lexeme} (h : Reads cs ls) {l : Lexeme}
    (hl : l ∈ backreferences ls) {p : TemplatePiece} (hp : l.reference? = .ok p) :
    p.written = .ofList l.text := by
  obtain ⟨hl, hrefers⟩ := List.mem_filter.mp hl
  have hne {k : LexemeKind} (hk : k.isBackreference = false) : l.kind ≠ k := by
    rintro rfl
    exact Bool.false_ne_true (hk.symm.trans hrefers)
  cases h.steady hl (hne rfl) (hne rfl) with
  | closed htext =>
    cases htext with
    | namedBackref hname =>
      cases hp
      exact String.toList_inj.mp (by simp [TemplatePiece.written, Lexeme.name])
    | _ => cases hrefers
  | plain | brace => cases hrefers
  | @backref d ds hd hzero hds =>
    obtain ⟨n, hn, rfl⟩ := map_eq_ok.mp hp
    rw [groupNumber?_eq] at hn
    split at hn
    · cases hn
      rw [TemplatePiece.written, Nat.toString_eq_ofList_toDigits, List.drop_one, List.tail_cons,
        toDigits_digits hd hzero hds]
      simp
    · cases hn

/-! ## Reading again -/

/-- The elements of a source are not empty and make up the source, and the first of them, however
many, are the elements of what they make up. So an end pattern that refers back, without its
trailing lookaheads, comes apart into pieces that are written as it is, among them one for each
backreference, in order, and between them no empty text and no two texts in a row; unless a
backreference has a number of more than 64 bits. -/
theorem lex_reread {source : String} {ls : List Lexeme} (h : lex source = .ok ls) :
    (∀ l ∈ ls, l.text ≠ []) ∧ Lexeme.join ls = source ∧
      (∀ n, lex (Lexeme.join (ls.take n)) = .ok (ls.take n)) ∧
      ∀ lowered, hasBackreference source = .ok true → lowerLookaheads source = .ok lowered →
        (∃ l ∈ ls, l.kind = .backref ∧ Nat.pow 2 64 ≤ Nat.ofDigitChars 10 (l.text.drop 1) 0 ∧
          templatePieces lowered.body = .error (.groupNumberTooLarge (.ofList l.text))) ∨
        ∃ ps, templatePieces lowered.body = .ok ps ∧
          String.join (ps.map (·.written)) = lowered.body ∧ (∃ p ∈ ps, p.isReference = true) ∧
          (ps.filter (·.isReference)).map (·.written) =
            (backreferences ls).map (.ofList ·.text) ∧ Tidy ps := by
  refine ⟨fun l => (lex_eq_ok_iff.mp h).ne_nil, join_of_lex h, fun n => ?_,
    fun lowered hrefers hlowered => ?_⟩
  · rw [← List.take_append_drop n ls] at h
    exact @lex_join_of_slice source [] _ _ h
  · obtain ⟨ls', kept, hls', hbackreferences, hbody, hkept⟩ :=
      exists_kept_of_lowerLookaheads hlowered
    obtain rfl := Except.ok.inj (h.symm.trans hls')
    have hpieces : templatePieces lowered.body = piecesFrom [] kept := by
      rw [templatePieces, hkept]
      rfl
    rw [hpieces]
    have hkept := lex_eq_ok_iff.mp hkept
    cases hps : piecesFrom [] kept with
    | error e =>
      obtain ⟨l, hl, he⟩ := exists_of_piecesFrom_eq_error hps
      rw [hbackreferences] at hl
      obtain ⟨hkind, hlarge, rfl⟩ := reference?_eq_error he
      exact .inl ⟨l, List.mem_of_mem_filter hl, hkind, hlarge, rfl⟩
    | ok ps =>
      have hwritten := written_of_piecesFrom (fun l hl p => hkept.written_eq hl) hps
      have hreferences := map_eq_of_mapM (fun l hl p => hkept.written_eq hl)
        (references_of_piecesFrom hps)
      rw [hbackreferences] at hreferences
      refine .inr ⟨ps, rfl, hwritten.trans (by rw [hbody]; rfl), ?_, hreferences,
        tidy_of_piecesFrom hps⟩
      obtain ⟨ls', hls', hany⟩ := bind_eq_ok.mp hrefers
      obtain rfl := Except.ok.inj (h.symm.trans hls')
      obtain ⟨l, hl, hrefers⟩ := List.any_eq_true.mp (Except.ok.inj hany)
      have hmem : String.ofList l.text ∈ (ps.filter (·.isReference)).map (·.written) := by
        rw [hreferences]
        exact List.mem_map_of_mem (List.mem_filter.mpr ⟨hl, hrefers⟩)
      obtain ⟨p, hp, -⟩ := List.mem_map.mp hmem
      exact ⟨p, List.mem_filter.mp hp⟩

/-- A closing tag that stands before a line end. -/
theorem lex_reread_tag : ∃ ls lowered ps, lex "</\\2[)]\\k<tag>(?=$)" = .ok ls ∧
    lowerLookaheads "</\\2[)]\\k<tag>(?=$)" = .ok lowered ∧ templatePieces lowered.body = .ok ps ∧
      ps = [.text "</", .group 2, .text "[)]", .named "tag"] ∧
      String.join (ps.map (·.written)) = lowered.body ∧
      (ps.filter (·.isReference)).map (·.written) = (backreferences ls).map (.ofList ·.text) := by
  obtain ⟨ls, hls, -⟩ : ∃ ls, lex "</\\2[)]\\k<tag>(?=$)" = .ok ls ∧ ls.length = 7 :=
    exists_ok (by decide +kernel)
  have hrefers : hasBackreference "</\\2[)]\\k<tag>(?=$)" = .ok true := by decide +kernel
  obtain ⟨lowered, hlowered, hpieces⟩ : ∃ lowered,
      lowerLookaheads "</\\2[)]\\k<tag>(?=$)" = .ok lowered ∧ templatePieces lowered.body =
        .ok [.text "</", .group 2, .text "[)]", .named "tag"] := by
    obtain ⟨lowered, hlowered, hbody⟩ : ∃ lowered,
        lowerLookaheads "</\\2[)]\\k<tag>(?=$)" = .ok lowered ∧
          lowered.body = "</\\2[)]\\k<tag>" := exists_ok (by decide +kernel)
    exact ⟨lowered, hlowered, by rw [hbody]; decide +kernel⟩
  obtain ⟨-, -, -, hreread⟩ := lex_reread hls
  obtain ⟨l, -, -, -, herror⟩ | ⟨ps, hps, hwritten, -, hreferences, -⟩ :=
    hreread lowered hrefers hlowered
  · cases hpieces.symm.trans herror
  · obtain rfl := Except.ok.inj (hps.symm.trans hpieces)
    exact ⟨ls, lowered, _, hls, hlowered, hps, rfl, hwritten, hreferences⟩

end Tinct
