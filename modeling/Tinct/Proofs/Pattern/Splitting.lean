import Tinct.Proofs.Pattern.Fusing
import Tinct.Proofs.Pattern.Pairing

/-!
# Where a source is split

Elements of a source and those that it is put together from, split at an element:

* `Joins.cases_of`: which elements are joined with others;
* `Fuses.exists_split`: an element that is joined with no other is found again, and what is in front
  of it and behind it fuses apart;
* `append_inj_of_text`, `exists_of_pieces_eq`: splits by the text, and by the pieces of elements.
-/

namespace Tinct

theorem Joins.eq_of_singleton {late : Bool} {l k : Lexeme} (h : Joins late [l] k) : k = l := by
  generalize hblock : [l] = block at h
  cases h with
  | same =>
    cases hblock
    rfl
  | digits _ _ hne =>
    have hmore := (List.cons.inj hblock).2
    exact absurd (List.map_eq_nil_iff.mp hmore.symm) hne
  | name => cases hblock
  | flags =>
    have hmore := (List.cons.inj hblock).2
    simp at hmore

theorem kind_of_mem_literals {l : Lexeme} {cs : List Char} (h : l ∈ literals cs) :
    l.kind = .literal := by
  obtain ⟨c, -, rfl⟩ := List.mem_map.mp h
  rfl

/-- An element that is joined with others, unless it is a backreference, a brace or a literal, is a
parenthesis of flags. -/
theorem Joins.cases_of {late : Bool} {as bs : List Lexeme} {l k : Lexeme}
    (h : Joins late (as ++ l :: bs) k) :
    as = [] ∧ bs = [] ∨ l.kind ∈ [.backref, .brace, .literal] ∨ late = true ∧ (l.kind = .open ∨
      l.kind = .close ∧ ∃ text behind, as = ⟨.open, text⟩ :: literals behind) := by
  have hmem : l ∈ as ++ l :: bs := List.mem_append_right _ List.mem_cons_self
  generalize hblock : as ++ l :: bs = block at h hmem
  cases h with
  | same =>
    obtain ⟨rfl, hl⟩ | ⟨-, hl⟩ := List.append_eq_singleton_iff.mp hblock
    · exact .inl ⟨rfl, (List.cons.inj hl).2⟩
    · cases hl
  | digits =>
    obtain rfl | hl := List.mem_cons.mp hmem
    · exact .inr (.inl (by simp))
    · exact .inr (.inl (by simp [kind_of_mem_literals hl]))
  | name =>
    obtain rfl | hl := List.mem_cons.mp hmem
    · exact .inr (.inl (by simp))
    · obtain rfl | hl := List.mem_cons.mp hl
      · exact .inr (.inl (by simp))
      · exact .inr (.inl (by simp [kind_of_mem_literals hl]))
  | @flags text behind hlate =>
    cases as with
    | nil =>
      obtain ⟨rfl, -⟩ := List.cons.inj hblock
      exact .inr (.inr ⟨hlate, .inl rfl⟩)
    | cons o as =>
      obtain ⟨rfl, htail⟩ := List.cons.inj hblock
      obtain ⟨more, has, hl⟩ | ⟨more, has, hl⟩ := List.append_eq_append_iff.mp htail
      · cases more with
        | nil =>
          obtain ⟨rfl, -⟩ := List.cons.inj hl
          exact .inr (.inr ⟨hlate, .inr ⟨rfl, text, behind, by rw [has, List.append_nil]⟩⟩)
        | cons o more =>
          obtain ⟨rfl, -⟩ := List.cons.inj hl
          have hl : l ∈ literals behind := has ▸ List.mem_append_right _ List.mem_cons_self
          exact .inr (.inl (by simp [kind_of_mem_literals hl]))
      · cases more with
        | nil =>
          obtain ⟨rfl, -⟩ := List.cons.inj hl
          exact .inr (.inr ⟨hlate, .inr ⟨rfl, text, behind, by rw [has, List.append_nil]⟩⟩)
        | cons o more => simp at hl

theorem Joins.closes? {late : Bool} {block : List Lexeme} {k : Lexeme} (h : Joins late block k)
    (depth : Nat) : Tinct.closes? depth block = Tinct.closes? depth [k] := by
  have hliterals (cs : List Char) (ls : List Lexeme) :
      Tinct.closes? depth (literals cs ++ ls) = Tinct.closes? depth ls :=
      closes?_literals depth cs ls
  cases h with
  | same => rfl
  | digits => simpa [Tinct.closes?, LexemeKind.opensGroup] using hliterals _ []
  | name => simpa [Tinct.closes?, LexemeKind.opensGroup] using hliterals _ []
  | flags =>
    have hliterals := closes?_literals (depth + 1)
    simp [Tinct.closes?, LexemeKind.opensGroup, literals, hliterals]

namespace Fuses
variable {late : Bool} {ls ks front behind : List Lexeme} {l : Lexeme}

theorem closes? (h : Fuses late ls ks) (depth : Nat) :
    Tinct.closes? depth ks = Tinct.closes? depth ls := by
  induction h generalizing depth with
  | nil => rfl
  | @cons block ls ks k hjoins _ ih =>
    rw [closes?_append, hjoins.closes?, ← List.singleton_append, closes?_append]
    exact congrArg _ (funext ih)

/-- Elements in front of which a source is cut. -/
theorem exists_append (h : Fuses late ls (front ++ behind)) :
    ∃ as bs, ls = as ++ bs ∧ Fuses late as front ∧ Fuses late bs behind := by
  induction front generalizing ls with
  | nil => exact ⟨[], ls, rfl, .nil, h⟩
  | cons k front ih =>
    rw [List.cons_append] at h
    cases h with
    | @cons block ls _ _ hjoins h =>
      obtain ⟨as, bs, rfl, has, hbs⟩ := ih h
      exact ⟨block ++ as, bs, (List.append_assoc _ _ _).symm, .cons hjoins has, hbs⟩

/-- An element that is joined with no other. -/
theorem exists_split (h : Fuses late (front ++ l :: behind) ks)
    (halone : ∀ as bs k, as <:+ front → Joins late (as ++ l :: bs) k → as = [] ∧ bs = []) :
    ∃ fs bs, ks = fs ++ l :: bs ∧ Fuses late front fs ∧ Fuses late behind bs := by
  generalize hls : front ++ l :: behind = ls at h
  induction h generalizing front with
  | nil => simp at hls
  | @cons block ls ks k hjoins h ih =>
    have hbehind {more : List Lexeme} (hfront : front = block ++ more)
        (hls : ls = more ++ l :: behind) :
        ∃ fs bs, k :: ks = fs ++ l :: bs ∧ Fuses late front fs ∧ Fuses late behind bs := by
      obtain ⟨fs, bs, rfl, hfs, hbs⟩ := ih (fun as bs k has => halone as bs k (hfront ▸
        has.trans (List.suffix_append block more))) hls.symm
      exact ⟨k :: fs, bs, rfl, hfront ▸ .cons hjoins hfs, hbs⟩
    obtain ⟨more, hblock, hls⟩ | ⟨more, hfront, hls⟩ := List.append_eq_append_iff.mp hls
    · cases more with
      | nil => exact @hbehind [] (by simpa using hblock.symm) (by simpa using hls.symm)
      | cons o more =>
        obtain ⟨rfl, rfl⟩ := List.cons.inj hls
        subst hblock
        obtain ⟨rfl, rfl⟩ := halone front more k (List.suffix_refl _) hjoins
        obtain rfl := hjoins.eq_of_singleton
        exact ⟨[], ks, rfl, .nil, h⟩
    · exact hbehind hfront hls

/-- A group that was put around others. -/
theorem exists_opener (h : Fuses late (front ++ l :: behind) ks) (hl : l.kind = .uncapturedOpen) :
    ∃ fs bs, ks = fs ++ l :: bs ∧ Fuses late front fs ∧ Fuses late behind bs := by
  refine h.exists_split fun as bs k has hjoins => ?_
  obtain halone | hkind | ⟨-, hkind | ⟨hkind, -⟩⟩ := hjoins.cases_of
  · exact halone
  · rw [hl] at hkind
    simp at hkind
  · rw [hl] at hkind
    cases hkind
  · rw [hl] at hkind
    cases hkind

/-- A closing parenthesis behind elements among which each group closes. -/
theorem exists_close {depth : Nat} (h : Fuses late (front ++ l :: behind) ks) (hl : l.kind = .close)
    (hcloses : Tinct.closes? depth front = some 0) :
    ∃ fs bs, ks = fs ++ l :: bs ∧ Fuses late front fs ∧ Fuses late behind bs := by
  refine h.exists_split fun as bs k has hjoins => ?_
  obtain halone | hkind | ⟨-, hkind | ⟨-, text, more, rfl⟩⟩ := hjoins.cases_of
  · exact halone
  · rw [hl] at hkind
    simp at hkind
  · rw [hl] at hkind
    cases hkind
  · obtain ⟨front, rfl⟩ := has
    rw [closes?_append] at hcloses
    obtain ⟨d, -, hopens⟩ := Option.bind_eq_some_iff.mp hcloses
    have hliterals := closes?_literals (d + 1) more []
    rw [List.append_nil] at hliterals
    rw [closes?_cons_of_opens rfl, literals, hliterals] at hopens
    cases hopens

end Fuses

theorem Stands.text_ne_nil {late : Bool} {ls : List Lexeme} (h : Stands late ls) :
    ∀ l ∈ ls, l.text ≠ [] := by
  induction h with
  | nil => exact nofun
  | steady hl _ ih => exact List.forall_mem_cons.mpr ⟨hl.ne_nil, ih⟩
  | opens hnext _ ih =>
    have hpos := (LexemeKind.next?_length hnext).1
    exact List.forall_mem_cons.mpr ⟨List.length_pos_iff.mp hpos, ih⟩
  | flags _ _ hopen _ _ _ ih =>
    refine List.forall_mem_cons.mpr ⟨hopen, List.forall_mem_append.mpr ⟨fun l hl => ?_, ?_⟩⟩
    · obtain ⟨c, -, rfl⟩ := List.mem_map.mp hl
      exact List.cons_ne_nil _ _
    · exact List.forall_mem_cons.mpr ⟨List.cons_ne_nil _ _, ih⟩

/-- Elements are cut where their text is. -/
theorem append_inj_of_text {as bs cs ds : List Lexeme} (h : as ++ bs = cs ++ ds)
    (htext : as.flatMap (·.text) = cs.flatMap (·.text)) (hne : ∀ l ∈ as ++ bs, l.text ≠ []) :
    as = cs ∧ bs = ds := by
  have hnil {ls : List Lexeme} (hls : ls.flatMap (·.text) = []) (hmem : ∀ l ∈ ls, l ∈ as ++ bs) :
      ls = [] := by
    cases ls with
    | nil => rfl
    | cons l ls =>
      exact absurd (List.append_eq_nil_iff.mp hls).1 (hne l (hmem l List.mem_cons_self))
  obtain ⟨more, rfl, rfl⟩ | ⟨more, rfl, rfl⟩ := List.append_eq_append_iff.mp h
  · rw [List.flatMap_append, List.self_eq_append_right] at htext
    obtain rfl := hnil htext fun l hl => List.mem_append_right _ (List.mem_append_left _ hl)
    exact ⟨(List.append_nil _).symm, rfl⟩
  · rw [List.flatMap_append, List.append_right_eq_self] at htext
    obtain rfl := hnil htext fun l hl => List.mem_append_left _ (List.mem_append_right _ hl)
    exact ⟨List.append_nil _, rfl⟩

/-- Where the pieces of some elements are cut. -/
theorem exists_of_pieces_eq {ls front behind : List Lexeme} {l : Lexeme}
    (h : pieces ls = front ++ l :: behind) (hl : l.kind ≠ .literal) :
    ∃ as bs, ls = as ++ l :: bs ∧ pieces as = front ∧ pieces bs = behind := by
  induction ls generalizing front with
  | nil => simp [pieces] at h
  | cons k ls ih =>
    by_cases hk : k.kind = .literal
    · rw [pieces_cons_of_eq hk] at h
      have hbehind {more : List Lexeme} (hfront : front = k.text.map (⟨.literal, [·]⟩) ++ more)
          (hls : pieces ls = more ++ l :: behind) :
          ∃ as bs, k :: ls = as ++ l :: bs ∧ pieces as = front ∧ pieces bs = behind := by
        obtain ⟨as, bs, rfl, rfl, rfl⟩ := ih hls
        exact ⟨k :: as, bs, rfl, by rw [pieces_cons_of_eq hk, hfront], rfl⟩
      obtain ⟨more, hfront, hls⟩ | ⟨more, hmore, hls⟩ := List.append_eq_append_iff.mp h
      · exact hbehind hfront hls
      · cases more with
        | nil => exact @hbehind [] (by simpa using hmore.symm) (by simpa using hls.symm)
        | cons o more =>
          obtain ⟨rfl, -⟩ := List.cons.inj hls
          have hmem : l ∈ literals k.text := by
            rw [literals, hmore]
            exact List.mem_append_right _ List.mem_cons_self
          exact absurd (kind_of_mem_literals hmem) hl
    · rw [pieces_cons_of_ne hk] at h
      cases front with
      | nil =>
        obtain ⟨rfl, rfl⟩ := List.cons.inj h
        exact ⟨[], ls, rfl, rfl, rfl⟩
      | cons o front =>
        obtain ⟨rfl, hls⟩ := List.cons.inj h
        obtain ⟨as, bs, rfl, rfl, rfl⟩ := ih hls
        exact ⟨k :: as, bs, rfl, pieces_cons_of_ne hk as, rfl⟩

end Tinct
