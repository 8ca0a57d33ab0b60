import Tinct.Proofs.Pattern.Joining
import Tinct.Proofs.Pattern.Plain
import Tinct.Proofs.Pattern.Splitting

/-!
# Group numbers of an assembled source

The groups of a source without a name keep their order when named patterns are put into it, but each
named group of such a pattern takes a number too:

* `Regex.Reading.Cut.exists_split`: a plain source is read up to one of its groups;
* `Part.broughtIn`: the named groups of the patterns that a source refers to;
* `Matcher.OpensGroup`: where a regular expression opens a group, and under which number;
* `PatternScope.opensGroup_of_matcher`: the number of a group is one more than that of the groups in
  front of it, of the source itself and of the patterns that it refers to; an end pattern refers to
  groups by their numbers.
-/

namespace Tinct

theorem LexemeKind.ne_of_records {k k' : LexemeKind} (h : k.records = true)
    (h' : k'.records = false) :
    k ≠ k' := by
  rintro rfl
  exact Bool.noConfusion (h.symm.trans h')

namespace Regex.Reading
variable {r r' : Reading}

namespace Cut

theorem opened {ls : List Lexeme} (h : r.Cut ls r') :
    r'.opened = r.opened + recorded ls := by
  induction h with
  | nil => rfl
  | cons hreads _ ih => rw [ih, hreads.counts.2, recorded_append, Nat.add_assoc]

/-- A source is read up to an element that is no inner one. -/
theorem exists_split {front behind : List Lexeme} {l : Lexeme} (h : r.Cut (front ++ l :: behind) r')
    (hl : l.kind.isInner = false) : ∃ r₁ e r₂,
      r.Cut front r₁ ∧ r₁.Reads e l.text [l] r₂ ∧ e.kind? = some l.kind ∧ r₂.Cut behind r' := by
  generalize hls : front ++ l :: behind = ls at h
  induction h generalizing front with
  | nil => simp at hls
  | @cons r r₁ r' e text block ls hreads h ih =>
    have hbehind {more : List Lexeme} (hfront : front = block ++ more)
        (hls : ls = more ++ l :: behind) : ∃ r₁ e r₂,
          r.Cut front r₁ ∧ r₁.Reads e l.text [l] r₂ ∧ e.kind? = some l.kind ∧ r₂.Cut behind r' := by
      obtain ⟨r₁, e, r₂, hfront', hl, hkind, hbehind⟩ := ih hls.symm
      exact ⟨r₁, e, r₂, hfront ▸ .cons hreads hfront', hl, hkind, hbehind⟩
    obtain ⟨more, hblock, hls⟩ | ⟨more, hfront, hls⟩ := List.append_eq_append_iff.mp hls
    · cases more with
      | nil => exact @hbehind [] (by simpa using hblock.symm) (by simpa using hls.symm)
      | cons o more =>
        obtain ⟨rfl, rfl⟩ := List.cons.inj hls
        obtain ⟨kind, hkind, hsingle⟩ | ⟨-, hinner⟩ := hreads.shows.kinds
        · rw [hsingle] at hblock
          obtain ⟨rfl, hmore⟩ | ⟨-, hmore⟩ := List.append_eq_singleton_iff.mp hblock.symm
          · obtain ⟨rfl, rfl⟩ := List.cons.inj hmore
            rw [hsingle] at hreads
            exact ⟨r, e, r₁, .nil r, hreads, hkind, h⟩
          · cases hmore
        · have hmem : l ∈ block := hblock ▸ List.mem_append_right _ List.mem_cons_self
          rw [hinner l hmem] at hl
          cases hl
    · exact hbehind hfront hls

end Cut
end Regex.Reading

/-- The regular expression of a matcher opens a group that records where its source goes on with
`opener` behind `before`: the reader comes to that place, opens the group and goes on to the end of
the source. -/
def Matcher.OpensGroup (f : Regex.Flags) (m : Matcher) (before opener : List Char) (number : Nat)
    (name : Option String) : Prop :=
  ∃ r r' w e, Relation.ReflTransGen Regex.Reading.Step (.start f m.source.toList) r ∧
    m.source.toList = before ++ r.rest ∧ r.Step r' ∧ r.rest = opener ++ r'.rest ∧
      r'.group.number? = some (number, name) ∧
        Relation.ReflTransGen Regex.Reading.Step r' w ∧ w.rest = [] ∧ w.whole? = some e ∧
          m.regex = .ofExpr m.source e

namespace Part

/-- The number of named groups in groups that were put around others. -/
def broughtIn : List Part → Nat
  | [] => 0
  | .element _ :: ps => broughtIn ps
  | .group _ inside :: ps => (flatten inside).countP (·.kind = .namedOpen) + broughtIn ps

end Part

/-! ## Counting groups -/

theorem recorded_literals (cs : List Char) : recorded (literals cs) = 0 :=
  recorded_eq_zero fun _ hl => by rw [kind_of_mem_literals hl]; rfl

theorem recorded_pieces (ls : List Lexeme) : recorded (pieces ls) = recorded ls :=
  pieces_congr (fun _ ls h => recorded_cons_of_not (h ▸ rfl) ls)
    (fun l ls ks _ _ hls => by rw [recorded_cons, recorded_cons, hls]) ls

/-- As many groups of a source record as of what it is put together from. -/
theorem Fuses.recorded {ls ks : List Lexeme} (h : Fuses false ls ks) :
    recorded ks = Tinct.recorded ls := by
  induction h with
  | nil => rfl
  | @cons block ls ks k hjoins _ ih =>
    rw [recorded_append, recorded_cons, ih, Nat.add_comm (Tinct.recorded ls)]
    cases hjoins with
    | same => rw [recorded_cons, recorded_nil, Nat.zero_add]
    | digits => rw [recorded_cons_of_not rfl, recorded_literals]; rfl
    | name => rw [recorded_cons_of_not rfl, recorded_cons_of_not rfl, recorded_literals]; rfl
    | flags hlate => cases hlate

/-- The groups of a source are its own and the named ones of the patterns that it refers to. -/
theorem recorded_flatten {resolve : String → Except PatternError (List Part)} {ls : List Lexeme}
    {ps : List Part} (h : ls.mapM (splicePart resolve) = .ok ps)
    (hnamed : ∀ opener inside, .group opener inside ∈ ps →
      ∀ l ∈ Part.flatten inside, l.kind ≠ .open) :
    recorded (Part.flatten ps) = recorded ls + Part.broughtIn ps := by
  induction ls generalizing ps with
  | nil =>
    cases h
    rfl
  | cons l ls ih =>
    obtain ⟨q, qs, hq, hqs, rfl⟩ := mapM_cons_eq_ok.mp h
    have hrest := ih hqs fun opener inside hmem =>
      hnamed opener inside (List.mem_cons_of_mem _ hmem)
    rw [splicePart] at hq
    split at hq
    · rename_i hkind
      obtain ⟨inside, -, rfl⟩ := map_eq_ok.mp hq
      have hinside : recorded (Part.flatten inside) =
          (Part.flatten inside).countP (·.kind = .namedOpen) := by
        refine List.countP_congr fun l hl => ?_
        have hopen := hnamed _ inside List.mem_cons_self l hl
        cases hkind : l.kind <;> simp [LexemeKind.records, hkind] at hopen ⊢
      rw [recorded_cons_of_not (hkind ▸ rfl), Part.broughtIn, Part.flatten, Part.elements,
        List.cons_append, recorded_cons_of_not rfl, recorded_append, recorded_append, hrest,
        hinside, recorded_cons_of_not rfl]
      rw [recorded_nil]
      omega
    · cases hq
      rw [Part.broughtIn, Part.flatten, Part.elements, List.singleton_append, recorded_cons,
        recorded_cons, hrest]
      omega

/-! ## Groups of a source -/

namespace PatternScope
variable {p : PatternScope} {m : Matcher}

/-- The run of the reader that a matcher is compiled by. -/
theorem exists_run {r' : Regex.Reading} {source : String} {regex : Regex}
    (hcompile : compileRegex source p.ignoreCase = .ok regex)
    (hsteps : Relation.ReflTransGen Regex.Reading.Step (.start p.flags source.toList) r')
    (hrest : r'.rest = []) : ∃ e, r'.whole? = some e ∧ regex = .ofExpr source e := by
  obtain ⟨e, hparse, rfl⟩ := exists_parse?_of_compileRegex hcompile
  exact ⟨e, Regex.Reading.whole?_of_parse? hsteps hrest hparse, rfl⟩

theorem source_of_compileRegex {source : String} {regex : Regex}
    (h : compileRegex source p.ignoreCase = .ok regex) : regex.source = source := by
  obtain ⟨e, -, rfl⟩ := exists_parse?_of_compileRegex h
  rfl

/-- What is read of an element that opens a group which records. -/
theorem number_of_reads {r r' : Regex.Reading} {e : Regex.Element} {l : Lexeme}
    (hreads : r.Reads e l.text [l] r') (hkind : e.kind? = some l.kind)
    (hl : l.kind.records = true) : ∃ name : Option String,
      name.isNone = decide (l.kind = .open) ∧ r'.group.number? = some (r.opened + 1, name) := by
  have htake := hreads.take
  generalize l.kind = kind at hkind hl
  cases e with
  | numbered name =>
    rw [Regex.Reading.take?] at htake
    split at htake
    · cases htake
    · refine ⟨name, ?_, ?_⟩
      · cases name <;> cases hkind <;> rfl
      · rw [← Option.some.inj htake]
        rfl
  | _ => cases hkind <;> cases hl

/-- A group of a plain regular expression has the number after those of the groups in front of it.
-/
theorem opensGroup_of_lex (hcompile : compileRegex m.source p.ignoreCase = .ok m.regex)
    (hplain : p.isPlain m.source = true) {front behind : List Lexeme} {l : Lexeme}
    (hls : lex m.source = .ok (front ++ l :: behind)) (hl : l.kind.records = true) :
    ∃ name : Option String, name.isNone = decide (l.kind = .open) ∧
      m.OpensGroup p.flags (front.flatMap (·.text)) l.text (recorded front + 1) name := by
  have hliteral : l.kind ≠ .literal := LexemeKind.ne_of_records hl rfl
  have hcuts := Cuts.of_lex hls
  rw [pieces_append, pieces_cons_of_ne hliteral] at hcuts
  obtain ⟨w, hend⟩ := Option.isSome_iff_exists.mp hplain
  obtain ⟨ls, hcut, hrest⟩ := Regex.Reading.cut_of_plainEnd? hend
  have hls : Cuts (m.source.toList ++ []) (ls ++ []) := hcut.cuts hrest (by simp) .nil
  rw [List.append_nil, List.append_nil] at hls
  rw [hls.unique hcuts] at hcut
  obtain ⟨e, hwhole, hregex⟩ := exists_run hcompile hcut.steps hrest
  have hinner : l.kind.isInner = false := Bool.eq_false_iff.mpr fun h =>
    Bool.noConfusion ((LexemeKind.records_of_isInner h).symm.trans hl)
  obtain ⟨r, element, r', hfront, hreads, hkind, hbehind⟩ := hcut.exists_split hinner
  obtain ⟨name, hname, hnumber⟩ := number_of_reads hreads hkind hl
  rw [hfront.opened, recorded_pieces] at hnumber
  refine ⟨name, hname, r, r', w, e, hfront.steps, ?_,
    ⟨hreads.rest_ne_nil, hreads.verbose, hreads.step?⟩, hreads.rest, ?_, hbehind.steps, hrest,
    hwhole, hregex⟩
  · rw [← flatMap_text_pieces]
    exact hfront.flatMap_text
  · rw [hnumber]
    exact congrArg (fun n => some (n + 1, name)) (Nat.zero_add _)

/-- An element whose text stands in the first of two halves. -/
theorem exists_of_append_eq {as bs front behind : List Lexeme} {l : Lexeme}
    (h : as ++ bs = front ++ l :: behind)
    (hlength : (front.flatMap (·.text)).length < (as.flatMap (·.text)).length) :
    ∃ more, as = front ++ l :: more := by
  obtain ⟨more, rfl, -⟩ | ⟨more, rfl, hbehind⟩ := List.append_eq_append_iff.mp h
  · rw [List.flatMap_append, List.length_append] at hlength
    omega
  · cases more with
    | nil => simp at hlength
    | cons k more =>
      obtain ⟨rfl, -⟩ := List.cons.inj hbehind
      exact ⟨more, rfl⟩

/-- A group in front of the trailing lookaheads is found in what is left of a source without them.
-/
theorem exists_lex_body {ps fs bs : List Part} {cs : List Char} {source : String}
    {lowered : Lowered}
    {l : Lexeme} (hsplices : Part.Splices ps cs source)
    (hps : Part.flatten ps = Part.flatten fs ++ l :: Part.flatten bs) (hl : l.kind.records = true)
    (hlowered : lowerLookaheads source = .ok lowered)
    (hplace : (Part.text fs).length < lowered.body.length) :
    ∃ front behind, lex lowered.body = .ok (front ++ l :: behind) ∧
      front.flatMap (·.text) = Part.text fs ∧ recorded front = recorded (Part.flatten fs) := by
  obtain ⟨kept, dropped, hls, -, -, hbody⟩ := exists_of_lowerLookaheads hlowered
  have hliteral : l.kind ≠ .literal := LexemeKind.ne_of_records hl rfl
  have hcuts : Cuts ((pieces (Part.flatten ps)).flatMap (·.text)) (pieces (kept ++ dropped)) := by
    rw [flatMap_text_pieces, ← Part.text, hsplices.text]
    exact .of_lex hls
  have hfuses := hsplices.stands.fuses hcuts
  rw [hps, pieces_append, pieces_cons_of_ne hliteral, pieces_append] at hfuses
  obtain ⟨front, behind, hpieces, hfront, -⟩ := hfuses.exists_split fun as bs k _ hjoins => by
    obtain halone | hkind | ⟨hlate, -⟩ := hjoins.cases_of
    · exact halone
    · cases hkind' : l.kind <;> simp [hkind', LexemeKind.records] at hkind hl
    · cases hlate
  have htext : front.flatMap (·.text) = Part.text fs := by
    rw [hfront.flatMap_text, flatMap_text_pieces, Part.text]
  have hlength : (front.flatMap (·.text)).length < ((pieces kept).flatMap (·.text)).length := by
    rw [htext, (Cuts.of_lex hbody).flatMap_text, String.length_toList]
    exact hplace
  obtain ⟨behind, hkept⟩ := exists_of_append_eq hpieces hlength
  obtain ⟨before, after, rfl, rfl, -⟩ := exists_of_pieces_eq hkept hliteral
  refine ⟨before, after, hbody, ?_, ?_⟩
  · rw [← htext, flatMap_text_pieces]
  · rw [← recorded_pieces before, hfront.recorded, recorded_pieces]

/-- A group of a source is found again in the assembled source if it does not stand in a trailing
lookahead. In front of it are the groups of the source itself and the named groups of the patterns
that it refers to, and in a plain regular expression it has the number after those; an end pattern
refers to groups by these numbers. -/
theorem opensGroup_of_matcher {text : String} (hm : p.matcher (.source text) = .ok m)
    {front behind : List Lexeme} {l : Lexeme} (hls : lex text = .ok (front ++ l :: behind))
    (hl : l.kind.records = true) :
    ∃ parts, front.mapM (splicePart (resolveParts p.named p.named.length [])) = .ok parts ∧
      ((Part.text parts).length < m.source.length →
        (∃ before after, lex m.source = .ok (before ++ l :: after) ∧
          before.flatMap (·.text) = Part.text parts ∧
            recorded before = recorded front + Part.broughtIn parts) ∧
        (p.isPlain m.source = true → ∃ name : Option String,
          name.isNone = decide (l.kind = .open) ∧
            m.OpensGroup p.flags (Part.text parts) l.text
              (recorded front + Part.broughtIn parts + 1) name)) ∧
      ∀ pattern source e, assemble p.named pattern = .ok source →
        p.endPattern pattern m = .ok (.template e) → ∃ ls, lex source = .ok ls ∧
          (backreferences ls).mapM Lexeme.reference? = .ok (e.pieces.filter (·.isReference)) := by
  obtain ⟨source, hsource, hm⟩ := bind_eq_ok.mp hm
  obtain ⟨refers, -, hm⟩ := bind_eq_ok.mp hm
  cases refers with
  | true => cases hm
  | false =>
  obtain ⟨lowered, hlowered, hm⟩ := bind_eq_ok.mp hm
  obtain ⟨regex, hregex, hm⟩ := bind_eq_ok.mp hm
  obtain ⟨follows, -, hm⟩ := bind_eq_ok.mp hm
  cases hm
  obtain ⟨ps, hps, hsplices⟩ := Part.exists_parts_source
    (fun _ _ ht => Part.exists_resolveParts p.named ht) hsource
  rw [partsWith, hls] at hps
  obtain ⟨ls, hls', hps⟩ := bind_eq_ok.mp hps
  cases hls'
  obtain ⟨ps', hps', hps⟩ := bind_eq_ok.mp hps
  cases hps
  obtain ⟨parts, rest, hparts, hrest, rfl⟩ := mapM_append_eq_ok.mp hps'
  obtain ⟨part, rest, hpart, -, rfl⟩ := mapM_cons_eq_ok.mp hrest
  have hreference : l.kind ≠ .reference := LexemeKind.ne_of_records hl rfl
  rw [splicePart, if_neg hreference] at hpart
  cases hpart
  refine ⟨parts, hparts, fun hplace => ?_, fun _ _ _ hend he => references_of_endPattern hend he⟩
  have hbody : Matcher.source ⟨regex, follows⟩ = lowered.body := source_of_compileRegex hregex
  have hflatten : Part.flatten (parts ++ .element l :: rest) =
      Part.flatten parts ++ l :: Part.flatten rest := Part.flatten_append _ _
  rw [hbody] at hplace
  obtain ⟨before, after, hlex, htext, hnumber⟩ :=
    exists_lex_body hsplices hflatten hl hlowered hplace
  have hnamed := recorded_flatten hparts fun opener inside hmem =>
    hsplices.named opener inside (List.mem_append_left _ hmem)
  rw [← hbody] at hregex hlex
  rw [hnamed] at hnumber
  refine ⟨⟨before, after, hlex, htext, hnumber⟩, fun hplain => ?_⟩
  obtain ⟨name, hname, hopens⟩ := @opensGroup_of_lex _ ⟨regex, follows⟩ hregex hplain _ _ _ hlex hl
  rw [htext, hnumber] at hopens
  exact ⟨name, hname, hopens⟩

/-- A named group of a named pattern takes the number of the group behind it. -/
theorem opensGroup_second : ∃ m,
    matcher ⟨[("f", .source "(?P<n>a)")], false⟩ (.source "<\x7b\x7bf\x7d\x7d(b+)>") = .ok m ∧
      m.OpensGroup (flags ⟨[], false⟩) "<(?:(?P<n>a))".toList ['('] 2 none := by
  obtain ⟨m, hm, hsource⟩ : ∃ m,
      matcher ⟨[("f", .source "(?P<n>a)")], false⟩ (.source "<\x7b\x7bf\x7d\x7d(b+)>") = .ok m ∧
        m.source = "<(?:(?P<n>a))(b+)>" := exists_ok (by decide +kernel)
  have hplain : isPlain ⟨[("f", .source "(?P<n>a)")], false⟩ m.source = true := by
    rw [hsource]
    decide +kernel
  have hlex : lex "<\x7b\x7bf\x7d\x7d(b+)>" =
      .ok ([⟨.literal, ['<']⟩, ⟨.reference, "\x7b\x7bf\x7d\x7d".toList⟩] ++
        ⟨.open, ['(']⟩ :: [⟨.literal, ['b', '+']⟩, ⟨.close, [')']⟩, ⟨.literal, ['>']⟩]) := by
    decide +kernel
  obtain ⟨parts, hparts, hopens, -⟩ := opensGroup_of_matcher hm hlex rfl
  obtain ⟨parts', hparts', heq⟩ : ∃ parts,
      List.mapM (splicePart (resolveParts [("f", .source "(?P<n>a)")] 1 []))
          [⟨.literal, ['<']⟩, ⟨.reference, "\x7b\x7bf\x7d\x7d".toList⟩] = .ok parts ∧
        (Part.text parts, Part.broughtIn parts) = ("<(?:(?P<n>a))".toList, 1) :=
    exists_ok (by decide +kernel)
  obtain rfl := Except.ok.inj (hparts.symm.trans hparts')
  obtain ⟨htext, hnamed⟩ := Prod.mk.inj heq
  rw [htext, hnamed, hsource] at hopens
  obtain ⟨-, hopens⟩ := hopens (by decide)
  obtain ⟨name, hname, hopens⟩ := hopens (hsource ▸ hplain)
  obtain rfl : name = none := Option.isNone_iff_eq_none.mp hname
  exact ⟨m, hm, hopens⟩

/-- So the first group of a source need not be the first of its regular expression; one in a
trailing lookahead is none of its groups, and one in a comment is not either. -/
theorem first_group_records_second :
    (lex "<\x7b\x7bf\x7d\x7d(b+)>").toOption.map recorded = some 1 ∧
      (matcher ⟨[("f", .source "(?P<n>a)")], false⟩
          (.source "<\x7b\x7bf\x7d\x7d(b+)>")).toOption.map (fun m =>
        ((m.captures (.ofString "<abb>") ⟨0, 5⟩).byIndex? 1,
          (m.captures (.ofString "<abb>") ⟨0, 5⟩).byIndex? 2)) = some (some "a", some "bb") ∧
      (lex "(a)(?=(b))").toOption.map recorded = some 2 ∧
      (matcher ⟨[], false⟩ (.source "(a)(?=(b))")).toOption.map (fun m =>
        ((m.captures (.ofString "ab") ⟨0, 1⟩).byIndex? 1,
          (m.captures (.ofString "ab") ⟨0, 1⟩).byIndex? 2)) = some (some "a", none) ∧
      (lex "(?x)#(\n(b)#)").toOption.map recorded = some 2 ∧
      (matcher ⟨[], false⟩ (.source "(?x)#(\n(b)#)")).toOption.map (fun m =>
        ((m.captures (.ofString "b") ⟨0, 1⟩).byIndex? 1,
          (m.captures (.ofString "b") ⟨0, 1⟩).byIndex? 2)) = some (some "b", none) := by
  decide +kernel

end PatternScope
end Tinct
