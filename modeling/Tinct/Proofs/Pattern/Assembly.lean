import Tinct.Proofs.Pattern.Parts

/-!
# Sources are put together from their parts

* `Part.Makes`: an operand or a named pattern is put together from parts that may be put anywhere;
* `Part.Splices`: so is a source that is neither, but that its own groups may record;
* `Part.exists_partsOf`: where a pattern is assembled, the source is put together from its parts.
-/

namespace Tinct

open LexemeKind (HasText isPlain isOpening next?)

namespace Lexeme.Steady

theorem opener : (⟨.uncapturedOpen, Tinct.opener⟩ : Lexeme).Steady :=
  .closed (@HasText.uncapturedOpen [] nofun)

theorem caselessOpener : (⟨.uncapturedOpen, Tinct.caselessOpener⟩ : Lexeme).Steady :=
  .closed (.uncapturedOpen (List.forall_mem_singleton.mpr rfl))

end Lexeme.Steady

/-! ## Parts that are put together -/

namespace Part

/-- The source `s` is put together from parts that may be put anywhere. -/
structure Makes (ps : List Part) (s : String) : Prop where
  text : text ps = s.toList
  steady : ∀ l ∈ pieces (flatten ps), l.Steady

namespace Makes
variable {ps qs : List Part} {s t : String}

theorem nil : Makes [] "" := ⟨rfl, nofun⟩

theorem append (hp : Makes ps s) (hq : Makes qs t) : Makes (ps ++ qs) (s ++ t) where
  text := by rw [text_append, hp.text, hq.text, String.toList_append]
  steady := by
    rw [flatten_append, pieces_append]
    exact List.forall_mem_append.mpr ⟨hp.steady, hq.steady⟩

theorem element {l : Lexeme} (h : ∀ k ∈ l.pieces, k.Steady) :
    Makes [.element l] (.ofList l.text) where
  text := by simp [Part.text, flatten, elements]
  steady := by simpa [flatten, elements, pieces] using h

theorem group {opener : List Char} (hopener : (⟨.uncapturedOpen, opener⟩ : Lexeme).Steady)
    (h : Makes ps s) : Makes [.group opener ps] (.ofList opener ++ s ++ ")") where
  text := by
    rw [text_group, h.text]
    simp
  steady := by
    have hclose : pieces [(⟨.close, [')']⟩ : Lexeme)] = [⟨.close, [')']⟩] := rfl
    rw [flatten, elements, flatten, List.append_nil,
      @pieces_cons_of_ne ⟨.uncapturedOpen, opener⟩ LexemeKind.noConfusion, pieces_append, hclose]
    exact List.forall_mem_cons.mpr
      ⟨hopener, List.forall_mem_append.mpr ⟨h.steady, List.forall_mem_singleton.mpr .close⟩⟩

theorem join_eq (h : Makes ps s) : Lexeme.join (flatten ps) = s :=
  String.toList_inj.mp ((toList_join _).trans h.text)

theorem operand {needsGroup : String → Except PatternError Bool} (h : Makes ps s)
    (hoperand : asOperand needsGroup s = .ok t) :
    ∃ qs, operandParts needsGroup ps = .ok qs ∧ Makes qs t := by
  obtain ⟨needs, hneeds, hoperand⟩ := bind_eq_ok.mp hoperand
  rw [operandParts, h.join_eq, hneeds]
  cases needs with
  | true =>
    cases hoperand
    exact ⟨_, rfl, h.group .opener⟩
  | false =>
    cases hoperand
    exact ⟨_, rfl, h⟩

theorem join {pss : List (List Part)} {ss : List String} (h : List.Forall₂ Makes pss ss) :
    Makes pss.flatten (String.join ss) := by
  induction h with
  | nil => exact .nil
  | cons hps _ ih =>
    rw [List.flatten_cons, String.join_cons]
    exact hps.append ih

theorem intercalate {pss : List (List Part)} {ss : List String} (h : List.Forall₂ Makes pss ss) :
    Makes ([.element ⟨.alternate, ['|']⟩].intercalate pss) ("|".intercalate ss) := by
  have hbar : Makes [.element ⟨.alternate, ['|']⟩] "|" :=
    element (List.forall_mem_singleton.mpr .alternate)
  induction h with
  | nil => exact .nil
  | @cons ps s pss ss hps h ih =>
    cases h with
    | nil =>
      rw [List.intercalate_singleton, String.intercalate_singleton]
      exact hps
    | cons hqs h =>
      rw [List.intercalate_cons_cons, String.intercalate_cons_cons]
      exact (hps.append hbar).append ih

end Makes
end Part

/-! ## Sources -/

theorem Lexeme.anonymous_of_ne {l : Lexeme} (h : l.kind ≠ .open) : l.anonymous = l := if_neg h

theorem Joins.flatMap_anonymous {block : List Lexeme} {k : Lexeme} (h : Joins false block k) :
    block.flatMap (·.anonymous.text) = k.anonymous.text := by
  have hliterals (cs : List Char) : (literals cs).flatMap (·.anonymous.text) = cs := by
    rw [literals, List.flatMap_map]
    exact List.flatMap_singleton' cs
  cases h with
  | same => exact List.flatMap_singleton _ _
  | digits =>
    rw [List.flatMap_cons, hliterals]
    rfl
  | name =>
    rw [List.flatMap_cons, List.flatMap_cons, hliterals]
    rfl
  | flags hlate => cases hlate

/-- Elements that fuse fuse as well once they do not record. -/
theorem Fuses.flatMap_anonymous {ls ks : List Lexeme} (h : Fuses false ls ks) :
    ks.flatMap (·.anonymous.text) = ls.flatMap (·.anonymous.text) := by
  induction h with
  | nil => rfl
  | cons hjoins _ ih => rw [List.flatMap_cons, List.flatMap_append, hjoins.flatMap_anonymous, ih]

theorem pieces_anonymous_text (ls : List Lexeme) :
    (pieces ls).flatMap (·.anonymous.text) = ls.flatMap (·.anonymous.text) := by
  refine flatMap_pieces (g := ([·])) (fun l hl => ?_) ls
  rw [Lexeme.anonymous_of_ne (hl ▸ LexemeKind.noConfusion), List.flatMap_singleton']

theorem flatMap_anonymous_of_steady {ls : List Lexeme} (h : ∀ l ∈ pieces ls, l.Steady) :
    ls.flatMap (·.anonymous.text) = ls.flatMap (·.text) := by
  rw [← pieces_anonymous_text, ← flatMap_text_pieces]
  exact List.flatMap_congr fun l hl => by rw [Lexeme.anonymous_of_ne (h l hl).open_ne]

namespace Part

/-- The parts of a source among which each reference is the group of what it stands for. -/
structure Splices (ps : List Part) (cs : List Char) (s : String) : Prop where
  text : Part.text ps = s.toList
  stands : Stands false (pieces (flatten ps))
  /-- They go on like the source up to the next group or brace. -/
  like : cs.takeWhile isOpening = s.toList.takeWhile isOpening
  anonymous_text : Part.text (ps.map (·.anonymous)) = (flatten ps).flatMap (·.anonymous.text)
  steady : ∀ l ∈ pieces (flatten (ps.map (·.anonymous))), l.Steady
  /-- Groups that fragments bring in record only if they have a name. -/
  named : ∀ opener inside, .group opener inside ∈ ps → ∀ l ∈ flatten inside, l.kind ≠ .open

namespace Splices
variable {ps qs : List Part} {cs : List Char} {s t : String}

theorem nil : Splices [] [] "" := ⟨rfl, .nil, rfl, rfl, nofun, nofun⟩

/-- A reference is put into a group. -/
theorem reference {l : Lexeme} (hl : l.text.head? = some '\x7b') (hq : Makes qs t)
    (h : Splices ps cs s) : Splices (.group opener qs :: ps) (l.text ++ cs) (grouped t ++ s) := by
  have hgroup : Makes [.group opener qs] (grouped t) := hq.group .opener
  have hcons (ps : List Part) : Part.group opener qs :: ps = [.group opener qs] ++ ps := rfl
  refine ⟨?_, ?_, ?_, ?_, ?_, ?_⟩
  · rw [hcons, text_append, hgroup.text, h.text, String.toList_append]
  · rw [hcons, flatten_append, pieces_append]
    exact .append hgroup.steady h.stands
  · rw [List.eq_cons_of_mem_head? hl]
    simp [isOpening, grouped]
  · rw [List.map_cons, Part.anonymous, hcons, text_append, h.anonymous_text, hcons ps,
      flatten_append, List.flatMap_append, flatMap_anonymous_of_steady hgroup.steady]
    rfl
  · rw [List.map_cons, Part.anonymous, hcons, flatten_append, pieces_append]
    exact List.forall_mem_append.mpr ⟨hgroup.steady, h.steady⟩
  · intro outer inside hmem
    obtain heq | hmem := List.mem_cons.mp hmem
    · obtain ⟨rfl, rfl⟩ := Part.group.inj heq
      exact forall_of_pieces (p := (· ≠ .open)) LexemeKind.noConfusion fun l hl =>
        (hq.steady l hl).open_ne
    · exact h.named outer inside hmem

/-- Other elements are left as they are. -/
theorem element {l : Lexeme} (hl : if l.kind = .literal then ∀ c ∈ l.text, isPlain c = true
      else next? (l.text ++ cs) = some (l.kind, l.text.length)) (h : Splices ps cs s) :
    Splices (.element l :: ps) (l.text ++ cs) (.ofList l.text ++ s) := by
  have hcons (l : Lexeme) (ps : List Part) : flatten (.element l :: ps) = l :: flatten ps := rfl
  have hsteady : l.kind ≠ .open → ∀ k ∈ l.pieces, k.Steady := by
    intro hopen
    rw [Lexeme.pieces]
    split at hl
    · rename_i hliteral
      rw [if_pos hliteral]
      exact .literals hl
    · rename_i hliteral
      rw [if_neg hliteral]
      exact List.forall_mem_singleton.mpr (.of_next? hl hliteral hopen)
  refine ⟨?_, ?_, ?_, ?_, ?_, ?_⟩
  · rw [Part.text, hcons, List.flatMap_cons, String.toList_append, String.toList_ofList, ← h.text]
    rfl
  · rw [hcons]
    by_cases hopen : l.kind = .open
    · rw [pieces_cons_of_ne (hopen ▸ LexemeKind.noConfusion)]
      rw [if_neg (hopen ▸ LexemeKind.noConfusion), hopen] at hl
      obtain ⟨kind, text⟩ := l
      obtain rfl : kind = .open := hopen
      refine .opens (next?_open_congr hl ?_) h.stands
      rw [flatMap_text_pieces, h.like, ← h.text]
      rfl
    · exact .append (hsteady hopen) h.stands
  · rw [String.toList_append, String.toList_ofList]
    exact takeWhile_append_congr h.like l.text
  · rw [List.map_cons, Part.anonymous, Part.text, hcons, hcons, List.flatMap_cons,
      List.flatMap_cons, ← h.anonymous_text]
    rfl
  · rw [List.map_cons, Part.anonymous, hcons, pieces, List.flatMap_cons]
    refine List.forall_mem_append.mpr ⟨?_, h.steady⟩
    by_cases hopen : l.kind = .open
    · rw [Lexeme.anonymous, if_pos hopen]
      exact List.forall_mem_singleton.mpr .opener
    · rw [Lexeme.anonymous_of_ne hopen]
      exact hsteady hopen
  · intro outer inside hmem
    obtain heq | hmem := List.mem_cons.mp hmem
    · cases heq
    · exact h.named outer inside hmem

end Splices

variable {resolve : String → Except PatternError String}
  {resolveParts : String → Except PatternError (List Part)}

theorem head?_reference {text cs : List Char}
    (h : next? (text ++ cs) = some (.reference, text.length)) : text.head? = some '\x7b' := by
  cases Lexeme.Steady.of_next? h LexemeKind.noConfusion LexemeKind.noConfusion with
  | closed htext =>
    cases htext
    rfl

theorem exists_splices
    (hresolve : ∀ name t, resolve name = .ok t → ∃ ps, resolveParts name = .ok ps ∧ Makes ps t)
    {ls : List Lexeme} {cs : List Char} {s : String} (h : splice resolve ls = .ok s)
    (hcuts : Cuts cs (pieces ls)) :
    ∃ ps, ls.mapM (splicePart resolveParts) = .ok ps ∧ Splices ps cs s := by
  induction ls generalizing cs s with
  | nil =>
    cases h
    cases hcuts.flatMap_text
    exact ⟨[], rfl, .nil⟩
  | cons l ls ih =>
    obtain ⟨rest, rfl, hrest, hl⟩ := hcuts.of_pieces_cons
    rw [splice] at h
    by_cases hkind : l.kind = .reference
    · rw [if_pos hkind] at h
      obtain ⟨text, htext, h⟩ := bind_eq_ok.mp h
      obtain ⟨more, hmore, h⟩ := bind_eq_ok.mp h
      cases h
      obtain ⟨t, ht, rfl⟩ := map_eq_ok.mp htext
      obtain ⟨qs, hqs, hmakes⟩ := hresolve l.name t ht
      obtain ⟨ps, hps, hsplices⟩ := ih hmore hrest
      rw [if_neg (hkind ▸ LexemeKind.noConfusion), hkind] at hl
      refine ⟨.group opener qs :: ps, ?_, hsplices.reference (head?_reference hl) hmakes⟩
      rw [List.mapM_cons, splicePart, if_pos hkind, hqs, hps]
      rfl
    · rw [if_neg hkind] at h
      obtain ⟨more, hmore, h⟩ := bind_eq_ok.mp h
      cases hmore
      obtain ⟨more, hmore, h⟩ := bind_eq_ok.mp h
      cases h
      obtain ⟨ps, hps, hsplices⟩ := ih hmore hrest
      refine ⟨.element l :: ps, ?_, hsplices.element hl⟩
      rw [List.mapM_cons, splicePart, if_neg hkind, hps]
      rfl

/-- A source that is no operand and no named pattern. -/
theorem exists_parts_source {text s : String}
    (hresolve : ∀ name t, resolve name = .ok t → ∃ ps, resolveParts name = .ok ps ∧ Makes ps t)
    (h : assembleWith resolve true (.source text) = .ok s) :
    ∃ ps, partsWith resolveParts true (.source text) = .ok ps ∧ Splices ps text.toList s := by
  rw [assembleWith] at h
  obtain ⟨ls, hls, h⟩ := bind_eq_ok.mp h
  obtain ⟨spliced, hspliced, h⟩ := bind_eq_ok.mp h
  cases h
  obtain ⟨ps, hps, hsplices⟩ := exists_splices hresolve hspliced (.of_lex hls)
  refine ⟨ps, ?_, hsplices⟩
  rw [partsWith]
  exact bind_eq_ok.mpr ⟨ls, hls, bind_eq_ok.mpr ⟨ps, hps, rfl⟩⟩

/-- A source that is an operand or a named pattern. -/
theorem exists_parts_inner_source {text s : String}
    (hresolve : ∀ name t, resolve name = .ok t → ∃ ps, resolveParts name = .ok ps ∧ Makes ps t)
    (h : assembleWith resolve false (.source text) = .ok s) :
    ∃ ps, partsWith resolveParts false (.source text) = .ok ps ∧ Makes ps s := by
  rw [assembleWith] at h
  obtain ⟨ls, hls, h⟩ := bind_eq_ok.mp h
  obtain ⟨spliced, hspliced, h⟩ := bind_eq_ok.mp h
  obtain ⟨ps, hps, hsplices⟩ := exists_splices hresolve hspliced (.of_lex hls)
  obtain ⟨ks, hks, h⟩ := bind_eq_ok.mp h
  cases h
  refine ⟨ps.map (·.anonymous), ?_, ?_, hsplices.steady⟩
  · rw [partsWith]
    exact bind_eq_ok.mpr ⟨ls, hls, bind_eq_ok.mpr ⟨ps, hps, rfl⟩⟩
  · have hcuts := Cuts.of_lex hks
    rw [← hsplices.text, Part.text, ← flatMap_text_pieces] at hcuts
    rw [hsplices.anonymous_text, ← pieces_anonymous_text,
      ← (hsplices.stands.fuses hcuts).flatMap_anonymous, pieces_anonymous_text,
      String.toList_ofList]
    refine List.flatMap_congr fun l _ => ?_
    rw [Lexeme.anonymous]
    split <;> rfl

theorem assembleWith_concat {outermost : Bool} {operands : List Pattern} {s : String}
    (h : assembleWith resolve outermost (.concat operands) = .ok s) :
    ∃ ss, assembleOperands resolve needsGrouping operands = .ok ss ∧
      operands.isEmpty = false ∧ String.join ss = s := by
  rw [assembleWith] at h
  cases hempty : operands.isEmpty with
  | true =>
    rw [hempty] at h
    cases h
  | false =>
    rw [hempty] at h
    obtain ⟨ss, hss, h⟩ := bind_eq_ok.mp h
    cases h
    exact ⟨ss, hss, rfl, rfl⟩

theorem assembleWith_either {outermost : Bool} {operands : List Pattern} {s : String}
    (h : assembleWith resolve outermost (.either operands) = .ok s) :
    ∃ ss, assembleOperands resolve leaksFlags operands = .ok ss ∧
      operands.isEmpty = false ∧ grouped ("|".intercalate ss) = s := by
  rw [assembleWith] at h
  cases hempty : operands.isEmpty with
  | true =>
    rw [hempty] at h
    cases h
  | false =>
    rw [hempty] at h
    obtain ⟨ss, hss, h⟩ := bind_eq_ok.mp h
    cases h
    exact ⟨ss, hss, rfl, rfl⟩

theorem partsWith_concat {outermost : Bool} {operands : List Pattern} {pss : List (List Part)}
    (hne : operands.isEmpty = false)
    (h : partsOfOperands resolveParts needsGrouping operands = .ok pss) :
    partsWith resolveParts outermost (.concat operands) = .ok pss.flatten := by
  rw [partsWith, hne]
  exact bind_eq_ok.mpr ⟨pss, h, rfl⟩

theorem partsWith_either {outermost : Bool} {operands : List Pattern} {pss : List (List Part)}
    (hne : operands.isEmpty = false)
    (h : partsOfOperands resolveParts leaksFlags operands = .ok pss) :
    partsWith resolveParts outermost (.either operands) =
      .ok [.group opener ([.element ⟨.alternate, ['|']⟩].intercalate pss)] := by
  rw [partsWith, hne]
  exact bind_eq_ok.mpr ⟨pss, h, rfl⟩

mutual

/-- The parts of an operand or a named pattern, by induction on the pattern. -/
theorem exists_parts_inner
    (hresolve : ∀ name t, resolve name = .ok t → ∃ ps, resolveParts name = .ok ps ∧ Makes ps t)
    (p : Pattern) {s : String} (h : assembleWith resolve false p = .ok s) :
    ∃ ps, partsWith resolveParts false p = .ok ps ∧ Makes ps s := by
  match p with
  | .source text => exact exists_parts_inner_source hresolve h
  | .concat operands =>
    obtain ⟨ss, hss, hne, rfl⟩ := assembleWith_concat h
    obtain ⟨pss, hpss, hmakes⟩ := exists_partsOfOperands hresolve operands hss
    exact ⟨pss.flatten, partsWith_concat hne hpss, .join hmakes⟩
  | .either operands =>
    obtain ⟨ss, hss, hne, rfl⟩ := assembleWith_either h
    obtain ⟨pss, hpss, hmakes⟩ := exists_partsOfOperands hresolve operands hss
    exact ⟨_, partsWith_either hne hpss, (Makes.intercalate hmakes).group .opener⟩
  | .caseless operand =>
    rw [assembleWith] at h
    obtain ⟨t, ht, h⟩ := bind_eq_ok.mp h
    cases h
    obtain ⟨ps, hps, hmakes⟩ := exists_parts_inner hresolve operand ht
    exact ⟨_, by rw [partsWith, hps]; rfl, hmakes.group .caselessOpener⟩

theorem exists_partsOfOperands {needsGroup : String → Except PatternError Bool}
    (hresolve : ∀ name t, resolve name = .ok t → ∃ ps, resolveParts name = .ok ps ∧ Makes ps t)
    (operands : List Pattern) {ss : List String}
    (h : assembleOperands resolve needsGroup operands = .ok ss) :
    ∃ pss, partsOfOperands resolveParts needsGroup operands = .ok pss ∧
      List.Forall₂ Makes pss ss := by
  match operands with
  | [] =>
    cases h
    exact ⟨[], rfl, .nil⟩
  | p :: ps =>
    rw [assembleOperands] at h
    obtain ⟨inner, hinner, h⟩ := bind_eq_ok.mp h
    obtain ⟨part, hpart, h⟩ := bind_eq_ok.mp h
    obtain ⟨rest, hrest, h⟩ := bind_eq_ok.mp h
    cases h
    obtain ⟨qs, hqs, hmakes⟩ := exists_parts_inner hresolve p hinner
    obtain ⟨part', hpart', hmakes'⟩ := hmakes.operand hpart
    obtain ⟨pss, hpss, hrest'⟩ := exists_partsOfOperands hresolve ps hrest
    refine ⟨part' :: pss, ?_, .cons hmakes' hrest'⟩
    rw [partsOfOperands]
    exact bind_eq_ok.mpr ⟨qs, hqs, bind_eq_ok.mpr ⟨part', hpart', bind_eq_ok.mpr ⟨pss, hpss, rfl⟩⟩⟩

end

/-- The parts of a named pattern, by induction on how far references may reach. -/
theorem exists_resolveParts (named : Entries Pattern) {depth : Nat} {trail : List String}
    {name t : String} (h : resolveName named depth trail name = .ok t) :
    ∃ ps, Tinct.resolveParts named depth trail name = .ok ps ∧ Makes ps t := by
  induction depth generalizing trail name t with
  | zero =>
    unfold resolveName at h
    split at h
    · cases h
    · split at h <;> first | cases h | contradiction
  | succ depth ih =>
    unfold resolveName at h
    unfold Tinct.resolveParts
    split at h
    · cases h
    · rename_i htrail
      rw [if_neg htrail]
      cases hget : named.get? name with
      | none =>
        rw [hget] at h
        cases h
      | some p =>
        rw [hget] at h
        exact exists_parts_inner (fun _ _ ht => ih ht) p h

theorem exists_parts
    (hresolve : ∀ name t, resolve name = .ok t → ∃ ps, resolveParts name = .ok ps ∧ Makes ps t)
    (p : Pattern) {s : String} (h : assembleWith resolve true p = .ok s) :
    ∃ ps, partsWith resolveParts true p = .ok ps ∧ text ps = s.toList ∧
      Stands true (pieces (flatten ps)) := by
  match p with
  | .source text =>
    obtain ⟨ps, hps, hsplices⟩ := exists_parts_source hresolve h
    exact ⟨ps, hps, hsplices.text, hsplices.stands.late⟩
  | .concat operands =>
    obtain ⟨ss, hss, hne, rfl⟩ := assembleWith_concat h
    obtain ⟨pss, hpss, hmakes⟩ := exists_partsOfOperands hresolve operands hss
    have hjoin := Makes.join hmakes
    exact ⟨pss.flatten, partsWith_concat hne hpss, hjoin.text, .of_steady hjoin.steady⟩
  | .either operands =>
    obtain ⟨ss, hss, hne, rfl⟩ := assembleWith_either h
    obtain ⟨pss, hpss, hmakes⟩ := exists_partsOfOperands hresolve operands hss
    have hgroup := (Makes.intercalate hmakes).group .opener
    exact ⟨_, partsWith_either hne hpss, hgroup.text, .of_steady hgroup.steady⟩
  | .caseless operand =>
    rw [assembleWith] at h
    obtain ⟨t, ht, h⟩ := bind_eq_ok.mp h
    cases h
    obtain ⟨ps, hps, htext, hstands⟩ := exists_parts hresolve operand ht
    refine ⟨[.group caselessOpener ps], by rw [partsWith, hps]; rfl, ?_, ?_⟩
    · rw [text_group, htext]
      simp [caselessOpener]
    · have hclose : pieces [(⟨.close, [')']⟩ : Lexeme)] = [⟨.close, [')']⟩] := rfl
      rw [flatten, elements, flatten, List.append_nil,
        @pieces_cons_of_ne ⟨.uncapturedOpen, caselessOpener⟩ LexemeKind.noConfusion, pieces_append,
        hclose]
      exact .steady .caselessOpener hstands.append_close

/-- Where a pattern is assembled, the source is put together from its parts. -/
theorem exists_partsOf {named : Entries Pattern} {p : Pattern} {s : String}
    (h : assemble named p = .ok s) :
    ∃ ps, partsOf named p = .ok ps ∧ text ps = s.toList ∧ Stands true (pieces (flatten ps)) :=
  exists_parts (fun _ _ ht => exists_resolveParts named ht) p h

end Part

end Tinct
