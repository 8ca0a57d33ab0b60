import Tinct.Proofs.Pattern.Elements

/-!
# The elements inside elements

An element of a regular expression is cut into elements of the pattern syntax by itself, whatever
stands behind it, if it is plain:

* `LexemeKind.isInner`: the kinds of elements that stand inside an item;
* `isPlainClass`: nothing but such elements is found in the text of a class;
* `Regex.Element.isPlain`, `Regex.Element.exists_shows`: a plain element shows as one element that
  opens or closes a group, or as inner ones.
-/

namespace Tinct

namespace LexemeKind

/-- The kinds of elements that stand inside the items of a regular expression. -/
def isInner : LexemeKind → Bool
  | .escape | .charClass | .brace | .literal => true
  | _ => false

theorem isOrdinary_of_isInner {k : LexemeKind} (h : k.isInner = true) : k.isOrdinary = true := by
  cases k <;> first | rfl | cases h

theorem stays_of_isInner {k : LexemeKind} (h : k.isInner = true) :
    k.opensGroup = false ∧ k ≠ .close := by
  cases k <;> first | decide | cases h

/-- An inner element is the same in front of any source if its own source ends in a bracket. -/
theorem next?_append {cs : List Char} {kind : LexemeKind} {n : Nat} (h : next? cs = some (kind, n))
    (hinner : kind.isInner = true) (hliteral : kind ≠ .literal) (hlast : cs.getLast? = some ']')
    (more : List Char) : next? (cs ++ more) = some (kind, n) := by
  cases heads_of_next? h with
  | closed htext rest =>
    rw [List.append_assoc]
    exact htext.next?_append _
  | backref => cases hinner
  | brace rest =>
    refine next?_brace_iff.mpr fun ds hds => ?_
    cases rest with
    | nil => cases hlast
    | cons r rest =>
      obtain ⟨rfl, rfl⟩ := List.cons.inj hds
      have hzero := next?_brace_iff.mp h rest rfl
      cases rest with
      | nil => cases hlast
      | cons c rest => exact nameLength_eq_zero_iff.mpr (nameLength_eq_zero_iff.mp hzero)
  | opens => cases hinner
  | literal => exact absurd rfl hliteral

theorem records_of_isInner {k : LexemeKind} (h : k.isInner = true) : k.records = false := by
  cases k <;> first | rfl | cases h

theorem isPlain_of_isInert {c : Char} (h : isInert c = true) : isPlain c = true := by
  simp_all [isInert, isPlain]

end LexemeKind

theorem closes?_of_isInner {ls : List Lexeme} (h : ∀ l ∈ ls, l.kind.isInner = true) (depth : Nat) :
    closes? depth ls = some depth := by
  induction ls with
  | nil => rfl
  | cons l ls ih =>
    obtain ⟨hl, hls⟩ := List.forall_mem_cons.mp h
    have hstays := LexemeKind.stays_of_isInner hl
    cases depth <;> simp [closes?, hstays, ih hls]

open LexemeKind (isPlain next?)

namespace Cuts
variable {cs more : List Char} {ls behind : List Lexeme}

/-- Inner elements up to a closing bracket are the same whatever stands behind them. -/
theorem append_of_isInner (h : Cuts cs ls) (hinner : ∀ l ∈ ls, l.kind.isInner = true)
    (hlast : cs = [] ∨ cs.getLast? = some ']') (hmore : Cuts more behind) :
    Cuts (cs ++ more) (ls ++ behind) := by
  have hbehind {front cs : List Char}
      (hlast : front ++ cs = [] ∨ (front ++ cs).getLast? = some ']') :
      cs = [] ∨ cs.getLast? = some ']' := by
    rcases List.eq_nil_or_concat cs with rfl | ⟨cs, c, rfl⟩
    · exact .inl rfl
    · refine .inr (hlast.elim (fun hnil => absurd hnil (by simp)) fun hlast => ?_)
      simpa using hlast
  induction h with
  | nil => exact hmore
  | @plain c cs ls hplain _ ih =>
    obtain ⟨-, hinner⟩ := List.forall_mem_cons.mp hinner
    exact .plain hplain (ih hinner (@hbehind [c] _ hlast))
  | @lexeme kind text cs ls hnext hne hkind _ ih =>
    obtain ⟨hkind', hinner⟩ := List.forall_mem_cons.mp hinner
    have hlast' := hlast.resolve_left fun hnil => hne (List.append_eq_nil_iff.mp hnil).1
    have hlocal := LexemeKind.next?_append hnext hkind' hkind hlast' more
    rw [List.append_assoc] at hlocal ⊢
    exact .lexeme hlocal hne hkind (ih hinner (hbehind hlast))

end Cuts

/-- Whether nothing but inner elements is found in the text of a class. -/
def isPlainClass (text : List Char) : Bool :=
  (lexFrom text.length 0 text).toOption.any (·.all (·.kind.isInner))

/-- A class that holds no other class is plain. -/
theorem isPlainClass_of_isFlat {i : Regex.Item} {inside : List Char}
    (htext : (Regex.Element.item i).HasText ('[' :: inside)) (hflat : Regex.isFlat inside = true) :
    isPlainClass ('[' :: inside) = true := by
  cases htext with
  | char hplain => cases hplain
  | bracketed hlast hclass =>
    have hnext : next? (('[' :: inside) ++ []) = some (.charClass, ('[' :: inside).length) := by
      rw [List.cons_append, next?, hclass hflat [], List.length_cons, Nat.add_comm]
    have hend : lexFrom inside.length (0 + ('[' :: inside).length) [] = .ok [] := by rw [lexFrom]
    have hlex := lexFrom_succ hnext (List.cons_ne_nil _ _) hend
    rw [List.append_nil] at hlex
    rw [isPlainClass, List.length_cons, hlex]
    rfl

/-- A text that is cut into inner elements, whatever stands behind it. -/
structure IsInner (text : List Char) (ls : List Lexeme) : Prop where
  texts : ls.flatMap (·.text) = text
  inner : ∀ l ∈ ls, l.kind.isInner = true
  cuts : ∀ more behind, Cuts more behind → Cuts (text ++ more) (ls ++ behind)

theorem exists_isInner_class {text : List Char} (h : isPlainClass text = true)
    (hlast : text.getLast? = some ']') : ∃ ls, IsInner text ls := by
  obtain ⟨ls, hlex, hinner⟩ := (Option.any_eq_true ..).mp h
  replace hinner := List.all_eq_true.mp hinner
  have hcuts := Cuts.of_reads (reads_of_lexFrom (eq_ok_of_toOption_eq_some hlex))
  have hpieces : ∀ l ∈ pieces ls, l.kind.isInner = true := by
    intro l hl
    obtain ⟨l', hl', hmem⟩ := List.mem_flatMap.mp hl
    rw [Lexeme.pieces] at hmem
    split at hmem
    · obtain ⟨c, -, rfl⟩ := List.mem_map.mp hmem
      rfl
    · rw [List.mem_singleton.mp hmem]
      exact hinner l' hl'
  exact ⟨pieces ls, hcuts.flatMap_text, hpieces, fun more behind hmore =>
    hcuts.append_of_isInner hpieces (.inr hlast) hmore⟩

namespace IsInner

theorem append {as bs : List Char} {ls ks : List Lexeme} (ha : IsInner as ls) (hb : IsInner bs ks) :
    IsInner (as ++ bs) (ls ++ ks) where
  texts := by rw [List.flatMap_append, ha.texts, hb.texts]
  inner := List.forall_mem_append.mpr ⟨ha.inner, hb.inner⟩
  cuts more behind hmore := by
    rw [List.append_assoc, List.append_assoc]
    exact ha.cuts _ _ (hb.cuts _ _ hmore)

theorem plains {cs : List Char} (h : ∀ c ∈ cs, isPlain c = true) :
    IsInner cs (cs.map (⟨.literal, [·]⟩)) where
  texts := by rw [List.flatMap_map, List.flatMap_singleton']
  inner := by simp [LexemeKind.isInner]
  cuts _ _ hmore := .plains_append h hmore

theorem lexeme {text : List Char} {kind : LexemeKind} (hne : text ≠ [])
    (hkind : kind.isInner = true)
    (hliteral : kind ≠ .literal) (hnext : ∀ more, next? (text ++ more) = some (kind, text.length)) :
    IsInner text [⟨kind, text⟩] where
  texts := List.flatMap_singleton ..
  inner := List.forall_mem_singleton.mpr hkind
  cuts more _ hmore := .lexeme (hnext more) hne hliteral hmore

end IsInner

theorem exists_isInner_tail {text : List Char} (h : Regex.IsTail text) : ∃ ls, IsInner text ls := by
  obtain ⟨brace, inside, rfl, hinside, hbrace⟩ := h
  have hplain : ∀ c ∈ inside, isPlain c = true := fun c hc =>
    LexemeKind.isPlain_of_isInert (hinside c hc)
  obtain rfl | ⟨rfl, hne⟩ := hbrace
  · exact ⟨_, .plains hplain⟩
  · obtain ⟨c, inside, rfl⟩ := List.exists_cons_of_ne_nil hne
    have hinner := IsInner.plains hplain
    refine ⟨⟨.brace, ['\x7b']⟩ :: (c :: inside).map (⟨.literal, [·]⟩), ?_, ?_, ?_⟩
    · rw [List.flatMap_cons, hinner.texts]
    · exact List.forall_mem_cons.mpr ⟨rfl, hinner.inner⟩
    · intro more behind hmore
      have hbrace : next? (['\x7b'] ++ (c :: inside ++ more)) = some (.brace, 1) := by
        refine LexemeKind.next?_brace fun hhead => ?_
        cases hhead
        exact absurd (hinside _ (List.mem_cons_self ..)) (by decide)
      rw [List.append_assoc]
      exact .lexeme hbrace (List.cons_ne_nil _ _) (by decide) (hinner.cuts more behind hmore)

/-! ## Elements -/

namespace Regex.Element

/-- Whether the pattern syntax sees an element of the text as it is: it finds no group inside a
class, and knows the names of groups. -/
def isPlain : Element → List Char → Bool
  | .item _, '[' :: inside => isPlainClass ('[' :: inside)
  | .numbered (some name), _ => LexemeKind.isWord name.toList
  | _, _ => true

/-- Whether an element is a class that holds no other class, or none at all; names of groups are
words. -/
def isFlat : Element → List Char → Bool
  | .item _, '[' :: inside => Regex.isFlat inside
  | .numbered (some name), _ => LexemeKind.isWord name.toList
  | _, _ => true

theorem isPlain_of_isFlat {e : Element} {text : List Char} (htext : e.HasText text)
    (h : e.isFlat text = true) : e.isPlain text = true := by
  unfold isPlain
  split
  · exact isPlainClass_of_isFlat htext h
  · exact h
  · rfl

/-- The kind as which an element shows that is no item. -/
def kind? : Element → Option LexemeKind
  | .numbered none => some .open
  | .numbered (some _) => some .namedOpen
  | .flags _ => some .flags
  | .flagged _ => some .uncapturedOpen
  | .close => some .close
  | .alternate => some .alternate
  | .item _ | .repeated .. => none

/-- The text of an element is cut into `ls`: one element of its kind, or inner ones. -/
structure Shows (e : Element) (text : List Char) (ls : List Lexeme) : Prop where
  texts : ls.flatMap (·.text) = text
  kinds : (∃ kind, e.kind? = some kind ∧ ls = [⟨kind, text⟩]) ∨
    e.kind? = none ∧ ∀ l ∈ ls, l.kind.isInner = true
  cuts : ∀ more behind, (e = .numbered none → more.head? ≠ some '?') → Cuts more behind →
    Cuts (text ++ more) (ls ++ behind)

theorem Shows.of_isInner {e : Element} {text : List Char} {ls : List Lexeme} (he : e.kind? = none)
    (h : IsInner text ls) : e.Shows text ls :=
  ⟨h.texts, .inr ⟨he, h.inner⟩, fun more behind _ hmore => h.cuts more behind hmore⟩

theorem Shows.of_next? {e : Element} {text : List Char} {kind : LexemeKind}
    (he : e.kind? = some kind)
    (hne : text ≠ []) (hliteral : kind ≠ .literal)
    (hnext : ∀ more, (e = .numbered none → more.head? ≠ some '?') →
      next? (text ++ more) = some (kind, text.length)) : e.Shows text [⟨kind, text⟩] :=
  ⟨List.flatMap_singleton .., .inl ⟨kind, he, rfl⟩, fun more _ hhead hmore =>
    .lexeme (hnext more hhead) hne hliteral hmore⟩

theorem Shows.isOrdinary {e : Element} {text : List Char} {ls : List Lexeme}
    (h : e.Shows text ls) : ∀ l ∈ ls, l.kind.isOrdinary = true := by
  obtain ⟨kind, hkind, rfl⟩ | ⟨-, hinner⟩ := h.kinds
  · refine List.forall_mem_singleton.mpr ?_
    cases e with
    | numbered name => cases name <;> cases hkind <;> rfl
    | _ => cases hkind <;> rfl
  · exact fun l hl => LexemeKind.isOrdinary_of_isInner (hinner l hl)

/-- A plain element shows. -/
theorem exists_shows {e : Element} {text : List Char} (h : e.HasText text)
    (hplain : e.isPlain text = true) : ∃ ls, e.Shows text ls := by
  cases h with
  | char hchar =>
    exact ⟨_, .of_isInner rfl (.plains (List.forall_mem_singleton.mpr hchar))⟩
  | @escape i c tail hdigit hk htail =>
    obtain ⟨ls, hls⟩ := exists_isInner_tail htail
    have hescape : IsInner ['\\', c] [⟨.escape, ['\\', c]⟩] :=
      .lexeme (List.cons_ne_nil _ _) rfl (by decide) fun more =>
        LexemeKind.next?_escape hk (.inl hdigit) more
    exact ⟨_, .of_isInner rfl (hescape.append hls)⟩
  | @bracketed i inside hlast =>
    have hlast' : ('[' :: inside).getLast? = some ']' := by
      rw [List.getLast?_cons, hlast]
      rfl
    obtain ⟨ls, hls⟩ := exists_isInner_class hplain hlast'
    exact ⟨ls, .of_isInner rfl hls⟩
  | opened =>
    exact ⟨_, .of_next? rfl (List.cons_ne_nil _ _) (by decide) fun more hmore =>
      LexemeKind.next?_open (hmore rfl)⟩
  | @named name mark hmark =>
    have hname : LexemeKind.isWord name = true := by
      rw [isPlain, String.toList_ofList] at hplain
      exact hplain
    refine ⟨_, .of_next? rfl (List.cons_ne_nil _ _) (by decide) fun more hmore => ?_⟩
    have hnext := LexemeKind.next?_named hmark hname more
    simpa [Nat.add_assoc, Nat.add_comm, Nat.add_left_comm] using hnext
  | @flags f letters hletters hne =>
    refine ⟨_, .of_next? rfl (List.cons_ne_nil _ _) (by decide) fun more _ => ?_⟩
    simpa using (LexemeKind.next?_flags hletters more).1 hne
  | @flagged f letters hletters =>
    refine ⟨_, .of_next? rfl (List.cons_ne_nil _ _) (by decide) fun more _ => ?_⟩
    simpa using (LexemeKind.next?_flags hletters more).2
  | close =>
    exact ⟨_, .of_next? rfl (List.cons_ne_nil _ _) (by decide) fun more _ => rfl⟩
  | alternate =>
    exact ⟨_, .of_next? rfl (List.cons_ne_nil _ _) (by decide) fun more _ => rfl⟩
  | repeated htail _ =>
    obtain ⟨ls, hls⟩ := exists_isInner_tail htail
    exact ⟨ls, .of_isInner rfl hls⟩

end Regex.Element
end Tinct
