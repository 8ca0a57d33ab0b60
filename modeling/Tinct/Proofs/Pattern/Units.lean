import Tinct.Proofs.Pattern.Assembly
import Tinct.Proofs.Pattern.Lowering
import Tinct.Proofs.Pattern.Outside
import Tinct.Proofs.Pattern.Splitting

/-!
# Groups that are put around others

An assembled source has a group around each named pattern and around operands that need one:

* `Part.HasGroup`: where such a group stands among the parts of a source;
* `Encloses`: where its parentheses stand among the elements of the source;
* `ActsOn`, `ActsApart`: what a choice, flags or a repetition act on, and that they do not act
  across the parentheses of a group;
* `actsOn_operand`: an operand that is left without a group is a unit without one, but for what a
  repetition next to it acts on;
* `PatternScope.encloses_iff`: the parentheses of such a group belong together exactly when each
  group closes between them.
-/

namespace Tinct

open LexemeKind (next?)

/-- A group that was put around others among parts, `opener` being what opens it and `inside` the
parts in it; `front` and `behind` are the elements in front of it and behind it. -/
inductive Part.HasGroup : List Part → List Lexeme → List Char → List Part → List Lexeme → Prop
  | here (opener : List Char) (inside ps : List Part) :
    HasGroup (.group opener inside :: ps) [] opener inside (flatten ps)
  | within {front behind : List Lexeme} {opener : List Char} {inside within : List Part}
    (outer : List Char) (ps : List Part) : HasGroup within front opener inside behind →
    HasGroup (.group outer within :: ps) (⟨.uncapturedOpen, outer⟩ :: front) opener inside
      (behind ++ ⟨.close, [')']⟩ :: flatten ps)
  | behind {front behind : List Lexeme} {opener : List Char} {inside ps : List Part} (p : Part) :
    HasGroup ps front opener inside behind →
    HasGroup (p :: ps) (p.elements ++ front) opener inside behind

/-- The parentheses of a group that was put around `inside` behind the elements `front` are those at
positions `i` and `j` of a source. -/
def Encloses (ls front : List Lexeme) (opener : List Char)
    (inside : List Part) (i j : Nat) : Prop :=
  ∃ before between behind,
    ls = before ++ ⟨.uncapturedOpen, opener⟩ :: (between ++ ⟨.close, [')']⟩ :: behind) ∧
      before.flatMap (·.text) = front.flatMap (·.text) ∧
      between.flatMap (·.text) = Part.text inside ∧
      i = before.length ∧ j = before.length + 1 + between.length

/-- The element at position `k` of a source acts on the one at `m`. A choice acts on the group that
it stands in, flags act on what is behind them in it, and a repetition on the element or the group
in front. -/
inductive ActsOn (ls : List Lexeme) (ps : List (Nat × Nat)) : Nat → Nat → Prop
  | group {l : Lexeme} {k m : Nat} (hl : ls[k]? = some l)
    (hkind : l.kind = .alternate ∨ l.kind = .flags ∧ k < m)
    (haround : ∀ i j, (i, j) ∈ ps → i < k → k < j → i < m ∧ m < j) : ActsOn ls ps k m
  | element {l o : Lexeme} {k : Nat} (hl : ls[k + 1]? = some l)
    (hrepeats : Regex.repeats l.text = true)
    (ho : ls[k]? = some o) (hclose : o.kind ≠ .close) : ActsOn ls ps (k + 1) k
  | whole {l : Lexeme} {i k m : Nat} (hl : ls[k + 1]? = some l)
    (hrepeats : Regex.repeats l.text = true)
    (hpair : (i, k) ∈ ps) (hi : i ≤ m) (hm : m ≤ k) : ActsOn ls ps (k + 1) m

/-- Nothing between two parentheses acts on what is outside of them, and what is outside acts on all
of the group or on nothing of it. -/
structure ActsApart (ls : List Lexeme) (ps : List (Nat × Nat)) (i j : Nat) : Prop where
  inside : ∀ k m, i < k → k < j → ActsOn ls ps k m → i ≤ m ∧ m ≤ j
  outside : ∀ k m n, k < i ∨ j < k → i ≤ m → m ≤ j → i ≤ n → n ≤ j →
    ActsOn ls ps k m → ActsOn ls ps k n

/-- Parentheses that belong together keep what is between them apart. -/
theorem actsApart_of_mem {ls : List Lexeme} {ps : List (Nat × Nat)} (hps : pairs ls = .ok ps)
    {i j : Nat} (h : (i, j) ∈ ps) : ActsApart ls ps i j := by
  have hpaired := (mem_pairs_iff hps).mp h
  have hcases {a b : Nat} (h' : (a, b) ∈ ps) := hpaired.cases_of ((mem_pairs_iff hps).mp h')
  refine ⟨fun k m hi hj hacts => ?_, fun k m n hk hm hm' hn hn' hacts => ?_⟩
  · cases hacts with
    | group _ _ haround =>
      have haround := haround i j h hi hj
      omega
    | element => omega
    | whole _ _ hpair =>
      have hcases := hcases hpair
      omega
  · cases hacts with
    | group hl hkind haround =>
      refine .group hl ?_ fun a b hpair ha hb => ?_
      · exact hkind.imp_right fun hkind => ⟨hkind.1, by omega⟩
      · have haround := haround a b hpair ha hb
        have hcases := hcases hpair
        omega
    | @element l o _ _ _ ho hclose =>
      obtain ⟨c, hc, hkind⟩ := hpaired.exists_close
      obtain rfl : m = j := by omega
      obtain rfl := Option.some.inj (ho.symm.trans hc)
      exact absurd hkind hclose
    | whole hl hrepeats hpair =>
      have hcases := hcases hpair
      exact .whole hl hrepeats hpair (by omega) (by omega)

/-! ## Operands without a group -/

/-- The element at position `m` is the last one in front of position `k`, or stands in the group
that ends there. -/
def LastBefore (ps : List (Nat × Nat)) (k m : Nat) : Prop :=
  ∃ i, i ≤ m ∧ m < k ∧ (i + 1 = k ∨ (i, k - 1) ∈ ps)

section operand
variable {source : String} {ls front behind : List Lexeme} {ps : List (Nat × Nat)} {k m n : Nat}

/-- Where the choices and the flags of a part stand in groups of its own, what is in the part acts
on nothing else, but that a repetition at the front of it acts on what is last in front of it. -/
theorem ActsOn.of_part (h : ActsOn (front ++ (ls ++ behind)) ps k m)
    (hps : pairs (front ++ (ls ++ behind)) = .ok ps) (hcloses : closes? 0 ls = some 0)
    (hown : ∀ k l, ls[k]? = some l → l.kind = .alternate ∨ l.kind = .flags →
      ∃ i j, Paired ls i j ∧ i < k ∧ k < j)
    (hk : front.length ≤ k) (hk' : k < front.length + ls.length) :
    front.length ≤ m ∧ m < front.length + ls.length ∨ k = front.length ∧ LastBefore ps k m := by
  cases h with
  | @group l _ _ hl hkind haround =>
    obtain ⟨n, rfl⟩ := Nat.exists_eq_add_of_le hk
    rw [List.getElem?_append_right hk, Nat.add_sub_cancel_left,
      List.getElem?_append_left (by omega)] at hl
    obtain ⟨i, j, hpaired, hi, hj⟩ := hown n l hl (hkind.imp_right And.left)
    have hmem := (mem_pairs_iff hps).mpr (hpaired.of_part front behind)
    obtain ⟨hm, hm'⟩ := haround _ _ hmem (by omega) (by omega)
    obtain ⟨c, hc, -⟩ := hpaired.exists_close
    have hlength := (List.getElem?_eq_some_iff.mp hc).1
    exact .inl (by omega)
  | element =>
    by_cases hm : front.length ≤ m
    · exact .inl (by omega)
    · exact .inr ⟨by omega, m, Nat.le_refl m, Nat.lt_succ_self m, .inl rfl⟩
  | @whole _ i k _ _ _ hpair hi hm =>
    by_cases hfront : front.length ≤ k
    · have hmem := (mem_pairs_iff hps).mp hpair
      have hstart := (hmem.mem_part_iff (closes?_of_pairs hps) hcloses).mpr (by omega)
      exact .inl (by omega)
    · exact .inr ⟨by omega, i, hi, by omega, .inr hpair⟩

/-- What is outside of a part acts on all of it or on nothing of it, but that a repetition behind
the part acts on what is last in it. -/
theorem ActsOn.on_part (h : ActsOn (front ++ (ls ++ behind)) ps k m)
    (hps : pairs (front ++ (ls ++ behind)) = .ok ps) (hcloses : closes? 0 ls = some 0)
    (hk : ¬(front.length ≤ k ∧ k < front.length + ls.length))
    (hm : front.length ≤ m ∧ m < front.length + ls.length)
    (hn : front.length ≤ n ∧ n < front.length + ls.length) :
    ActsOn (front ++ (ls ++ behind)) ps k n ∨ k = front.length + ls.length ∧ LastBefore ps k m := by
  have hboth {i j : Nat} (hpair : (i, j) ∈ ps) :=
    ((mem_pairs_iff hps).mp hpair).mem_part_iff (closes?_of_pairs hps) hcloses
  cases h with
  | group hl hkind haround =>
    refine .inl (.group hl ?_ fun i j hpair hi hj => ?_)
    · exact hkind.imp_right fun hkind => ⟨hkind.1, by omega⟩
    · have hboth := hboth hpair
      have haround := haround i j hpair hi hj
      omega
  | element => exact .inr ⟨by omega, m, Nat.le_refl m, Nat.lt_succ_self m, .inl rfl⟩
  | @whole _ i k _ hl hrepeats hpair hi hle =>
    have hboth := hboth hpair
    by_cases hinside : k < front.length + ls.length
    · exact .inr ⟨by omega, i, hi, by omega, .inr hpair⟩
    · exact .inl (.whole hl hrepeats hpair (by omega) (by omega))

/-- An operand that is left without a group is a unit without one, as long as each group closes in
it: its choices and flags act inside of it, and what is outside acts on all of it or on nothing of
it. A repetition is the exception. At the front of an operand, which gets no group for that, it acts
on the last element or group in front of the operand. -/
theorem actsOn_operand (hcuts : Cuts source.toList ls) (hcloses : closes? 0 ls = some 0)
    (hneeds : needsGrouping source = .ok false) (hps : pairs (front ++ (ls ++ behind)) = .ok ps)
    (hacts : ActsOn (front ++ (ls ++ behind)) ps k m) :
    (front.length ≤ k ∧ k < front.length + ls.length →
      front.length ≤ m ∧ m < front.length + ls.length ∨ k = front.length ∧ LastBefore ps k m) ∧
    (¬(front.length ≤ k ∧ k < front.length + ls.length) →
      front.length ≤ m ∧ m < front.length + ls.length →
        (∀ n, front.length ≤ n ∧ n < front.length + ls.length →
          ActsOn (front ++ (ls ++ behind)) ps k n) ∨
        k = front.length + ls.length ∧ LastBefore ps k m) := by
  have hown := (hcuts.needsGrouping_eq_false_iff hcloses).mp hneeds
  refine ⟨fun hk => hacts.of_part hps hcloses hown hk.1 hk.2, fun hk hm => ?_⟩
  refine or_iff_not_imp_right.mpr fun hlast n hn => ?_
  exact (hacts.on_part hps hcloses hk hm hn).resolve_right hlast

example : needsGrouping "+c" = .ok false := by decide +kernel

end operand

/-! ## Groups among elements -/

namespace Part

theorem HasGroup.flatten_eq {ps inside : List Part} {front behind : List Lexeme}
    {opener : List Char} (h : HasGroup ps front opener inside behind) :
    flatten ps =
      front ++ ⟨.uncapturedOpen, opener⟩ :: (flatten inside ++ ⟨.close, [')']⟩ :: behind) := by
  induction h with
  | here => simp [flatten, elements]
  | within _ _ _ ih => simp [flatten, elements, ih]
  | behind _ _ ih => simp [flatten, ih]

variable {ps inside : List Part} {front behind ls : List Lexeme} {opener : List Char}

theorem HasGroup.pieces_eq (h : HasGroup ps front opener inside behind) :
    pieces (flatten ps) = pieces front ++ ⟨.uncapturedOpen, opener⟩ ::
      (pieces (flatten inside) ++ ⟨.close, [')']⟩ :: pieces behind) := by
  rw [h.flatten_eq, pieces_append, pieces_cons_of_ne LexemeKind.noConfusion, pieces_append,
    pieces_cons_of_ne LexemeKind.noConfusion]

/-- Where each group closes in it, a group that was put around others is found in the source. -/
theorem HasGroup.exists_encloses (h : HasGroup ps front opener inside behind)
    (hfuses : Fuses true (pieces (flatten ps)) (pieces ls))
    (hcloses : closes? 0 (flatten inside) = some 0) :
    ∃ i j, Encloses ls front opener inside i j ∧ Paired ls i j := by
  rw [h.pieces_eq] at hfuses
  obtain ⟨fs, bs, hls, hfs, hbs⟩ := hfuses.exists_opener rfl
  obtain ⟨gs, bs, rfl, hgs, -⟩ := hbs.exists_close rfl (hcloses ▸ closes?_pieces 0 _)
  obtain ⟨before, rest, rfl, rfl, hrest⟩ := exists_of_pieces_eq hls LexemeKind.noConfusion
  obtain ⟨between, behind, rfl, rfl, -⟩ := exists_of_pieces_eq hrest LexemeKind.noConfusion
  refine ⟨_, _, ⟨before, between, behind, rfl, ?_, ?_, rfl, rfl⟩, ?_⟩
  · rw [← flatMap_text_pieces, hfs.flatMap_text, flatMap_text_pieces]
  · rw [← flatMap_text_pieces, hgs.flatMap_text, flatMap_text_pieces, text]
  · refine (Paired.length_iff rfl rfl).mpr ?_
    rw [← closes?_pieces, hgs.closes?, closes?_pieces, hcloses]

/-- Where its parentheses belong together, each group closes in it. -/
theorem HasGroup.closes?_of_encloses (h : HasGroup ps front opener inside behind)
    (hstands : Stands true (pieces (flatten ps)))
    (hfuses : Fuses true (pieces (flatten ps)) (pieces ls)) {i j : Nat}
    (hencloses : Encloses ls front opener inside i j) (hpaired : Paired ls i j) :
    closes? 0 (flatten inside) = some 0 := by
  obtain ⟨before, between, rest, rfl, hbefore, hbetween, rfl, rfl⟩ := hencloses
  have hcloses := (Paired.length_iff rfl rfl).mp hpaired
  rw [pieces_append, pieces_cons_of_ne LexemeKind.noConfusion, pieces_append,
    pieces_cons_of_ne LexemeKind.noConfusion] at hfuses
  obtain ⟨as, bs, hps, has, hbs⟩ := hfuses.exists_append
  cases hbs with
  | @cons block bs _ _ hjoins hbs =>
    cases hjoins
    obtain ⟨bs, cs, rfl, hbs, -⟩ := hbs.exists_append
    have hne : ∀ l ∈ as ++ ⟨.uncapturedOpen, opener⟩ :: (bs ++ cs), l.text ≠ [] :=
      hps ▸ hstands.text_ne_nil
    have hpieces := h.pieces_eq
    rw [hps] at hpieces
    obtain ⟨rfl, htail⟩ := append_inj_of_text hpieces (by
      rw [← has.flatMap_text, flatMap_text_pieces, flatMap_text_pieces, hbefore]) hne
    have htail : bs ++ cs = pieces (flatten inside) ++ ⟨.close, [')']⟩ :: pieces behind :=
      (List.cons.inj htail).2
    obtain ⟨rfl, -⟩ := append_inj_of_text htail (by
      rw [← hbs.flatMap_text, flatMap_text_pieces, flatMap_text_pieces, hbetween, text])
      fun l hl => hne l (List.mem_append_right _ (List.mem_cons_of_mem _ hl))
    rw [← closes?_pieces, ← hbs.closes?, closes?_pieces, hcloses]

end Part

namespace PatternScope
variable {p : PatternScope} {pattern : Pattern} {source : String}

/-- Of an accepted pattern the lookaheads have been taken off. -/
theorem exists_lowered (hsource : assemble p.named pattern = .ok source)
    (h : (∃ m, p.matcher pattern = .ok m) ∨ ∃ begin e, p.endPattern pattern begin = .ok e) :
    ∃ lowered, lowerLookaheads source = .ok lowered := by
  have hfinish {m : Matcher} (h : p.finish source = .ok m) :
      ∃ lowered, lowerLookaheads source = .ok lowered := by
    obtain ⟨lowered, hlowered, -⟩ := bind_eq_ok.mp h
    exact ⟨lowered, hlowered⟩
  obtain ⟨m, h⟩ | ⟨begin, e, h⟩ := h
  · obtain ⟨source', hsource', h⟩ := bind_eq_ok.mp h
    obtain rfl := Except.ok.inj (hsource.symm.trans hsource')
    obtain ⟨refers, -, h⟩ := bind_eq_ok.mp h
    cases refers with
    | true => cases h
    | false => exact hfinish h
  · obtain ⟨source', hsource', h⟩ := bind_eq_ok.mp h
    obtain rfl := Except.ok.inj (hsource.symm.trans hsource')
    obtain ⟨refers, -, h⟩ := bind_eq_ok.mp h
    cases refers with
    | false =>
      obtain ⟨m, hm, -⟩ := bind_eq_ok.mp h
      exact hfinish hm
    | true =>
      obtain ⟨lowered, hlowered, -⟩ := bind_eq_ok.mp h
      exact ⟨lowered, hlowered⟩

/-- In the source of an accepted pattern, the parentheses that are put around a named pattern or an
operand belong together exactly when each group closes between them; and parentheses that belong
together keep what is between them apart. -/
theorem encloses_iff (hsource : assemble p.named pattern = .ok source)
    (h : (∃ m, p.matcher pattern = .ok m) ∨ ∃ begin e, p.endPattern pattern begin = .ok e) :
    ∃ parts ls ps, partsOf p.named pattern = .ok parts ∧ lex source = .ok ls ∧ pairs ls = .ok ps ∧
      (∀ i j, (i, j) ∈ ps → ActsApart ls ps i j) ∧
      ∀ front opener inside behind, Part.HasGroup parts front opener inside behind →
        ((∃ i j, Encloses ls front opener inside i j ∧ (i, j) ∈ ps) ↔
          closes? 0 (Part.flatten inside) = some 0) := by
  obtain ⟨lowered, hlowered⟩ := exists_lowered hsource h
  obtain ⟨ls, hls, hlowered⟩ := bind_eq_ok.mp hlowered
  obtain ⟨ps, hps, -⟩ := bind_eq_ok.mp hlowered
  obtain ⟨parts, hparts, htext, hstands⟩ := Part.exists_partsOf hsource
  have hcuts : Cuts ((pieces (Part.flatten parts)).flatMap (·.text)) (pieces ls) := by
    rw [flatMap_text_pieces, ← Part.text, htext]
    exact .of_lex hls
  have hfuses := hstands.fuses hcuts
  refine ⟨parts, ls, ps, hparts, hls, hps, fun i j => actsApart_of_mem hps,
    fun front opener inside behind hgroup => ⟨?_, fun hcloses => ?_⟩⟩
  · rintro ⟨i, j, hencloses, hmem⟩
    exact hgroup.closes?_of_encloses hstands hfuses hencloses ((mem_pairs_iff hps).mp hmem)
  · obtain ⟨i, j, hencloses, hpaired⟩ := hgroup.exists_encloses hfuses hcloses
    exact ⟨i, j, hencloses, (mem_pairs_iff hps).mpr hpaired⟩

theorem partsOf_choice : partsOf [("f", .source "a|b")] (.source "x\x7b\x7bf\x7d\x7dy") =
    .ok [.element ⟨.literal, ['x']⟩, .group opener [.element ⟨.literal, ['a']⟩,
      .element ⟨.alternate, ['|']⟩, .element ⟨.literal, ['b']⟩], .element ⟨.literal, ['y']⟩] := by
  have houter : lex "x\x7b\x7bf\x7d\x7dy" = .ok [⟨.literal, ['x']⟩,
      ⟨.reference, "\x7b\x7bf\x7d\x7d".toList⟩, ⟨.literal, ['y']⟩] := by decide +kernel
  have hinner : lex "a|b" = .ok [⟨.literal, ['a']⟩, ⟨.alternate, ['|']⟩, ⟨.literal, ['b']⟩] := by
    decide +kernel
  have hname : Lexeme.name ⟨.reference, "\x7b\x7bf\x7d\x7d".toList⟩ = "f" := by decide +kernel
  have hnamed : resolveParts [("f", .source "a|b")] 1 [] "f" = .ok [.element ⟨.literal, ['a']⟩,
      .element ⟨.alternate, ['|']⟩, .element ⟨.literal, ['b']⟩] := by
    unfold resolveParts
    rw [if_neg (by decide), Entries.get?_cons, if_pos rfl]
    dsimp only
    rw [partsWith, hinner]
    rfl
  rw [partsOf, partsWith, houter]
  simp only [bind, Except.bind, List.mapM_cons, List.mapM_nil, splicePart, hname, List.length]
  rw [hnamed]
  rfl

/-- A choice in a named pattern stays in the group that is put around it. -/
theorem encloses_choice : ∃ ls ps, lex "x(?:a|b)y" = .ok ls ∧ pairs ls = .ok ps ∧
    (∃ i j, Encloses ls [⟨.literal, ['x']⟩] opener
      [.element ⟨.literal, ['a']⟩, .element ⟨.alternate, ['|']⟩, .element ⟨.literal, ['b']⟩] i j ∧
        (i, j) ∈ ps) ∧
    ∀ k m, 1 < k → k < 5 → ActsOn ls ps k m → 1 ≤ m ∧ m ≤ 5 := by
  have hassemble : assemble [("f", .source "a|b")] (.source "x\x7b\x7bf\x7d\x7dy") =
      .ok "x(?:a|b)y" := by decide +kernel
  obtain ⟨m, hm, -⟩ : ∃ m, matcher ⟨[("f", .source "a|b")], false⟩
      (.source "x\x7b\x7bf\x7d\x7dy") = .ok m ∧ m.groupCount = 1 := exists_ok (by decide +kernel)
  obtain ⟨parts, ls, ps, hparts, hls, hps, hapart, hiff⟩ :=
    @encloses_iff ⟨[("f", .source "a|b")], false⟩ _ _ hassemble (.inl ⟨m, hm⟩)
  obtain rfl := Except.ok.inj (partsOf_choice.symm.trans hparts)
  have hmem : (1, 5) ∈ ps := by
    have hpair : (lex "x(?:a|b)y" >>= pairs) = .ok [(1, 5)] := by decide +kernel
    rw [hls] at hpair
    obtain rfl := Except.ok.inj (hpair.symm.trans hps)
    exact List.mem_singleton_self _
  exact ⟨ls, ps, hls, hps, (hiff _ _ _ _ (.behind _ (.here _ _ _))).mpr (by decide),
    (hapart 1 5 hmem).inside⟩

/-- A named pattern closes the group that is put around it and opens another one. -/
theorem encloses_nothing :
    (matcher ⟨[("f", .source "a)|(?:b")], false⟩ (.source "x\x7b\x7bf\x7d\x7dy")).toOption.map
        (·.source) = some "x(?:a)|(?:b)y" ∧
      (lex "x(?:a)|(?:b)y" >>= pairs).toOption = some [(1, 3), (5, 7)] := by
  decide +kernel

end PatternScope
end Tinct
