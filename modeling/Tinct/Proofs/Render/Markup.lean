import Mathlib.Data.List.Basic
import Tinct.Render.Html

/-!
# Markup that reads back

HTML is read piece by piece: the tags that this library writes, the characters between them, and
five entities for characters. A quote ends the classes of a tag, whatever it was meant for:

* `Markup`: a tag or a character, and `Markup.write`, the text it is written as;
* `read?`: the pieces that a text in HTML consists of;
* `read?_write_iff`: pieces read back from what they are written as if no class holds a quote, and
  only then;
* `Balanced`: tags that open and close elements in pairs;
* `characters`: what is left without the tags.
-/

namespace Tinct.Render

/-! ## Reading HTML -/

/-- A tag of an element with its classes, or a character. -/
inductive Markup where
  | opening (classes : List Char)
  | closing
  | char (c : Char)
deriving DecidableEq, Repr

/-- A piece whose classes hold no quote. -/
def Markup.Plain : Markup → Prop
  | opening classes => '"' ∉ classes
  | _ => True

/-- How characters may be written that mean something in HTML. -/
def entities : List (String × Char) :=
  [("&amp;", '&'), ("&lt;", '<'), ("&gt;", '>'), ("&quot;", '"'), ("&#x27;", '\'')]

/-- An opening tag up to its classes. -/
def tagStart : List Char := "<span class=\"".toList

/-- An opening tag behind its classes. -/
def tagEnd : List Char := "\">".toList

def closingTag : List Char := "</span>".toList

theorem tagStart_eq : tagStart = '<' :: 's' :: "pan class=\"".toList := rfl

theorem closingTag_eq : closingTag = '<' :: '/' :: "span>".toList := rfl

/-- The opening tag at the front of a text. Its classes end where a quote stands. -/
def readOpening? (cs : List Char) : Option (Markup × List Char) := do
  let behind ← tagStart.isPrefixOf? cs
  let rest ← tagEnd.isPrefixOf? (behind.dropWhile (· != '"'))
  return (.opening (behind.takeWhile (· != '"')), rest)

def readClosing? (cs : List Char) : Option (Markup × List Char) := do
  return (.closing, ← closingTag.isPrefixOf? cs)

def readEntity? (cs : List Char) : Option (Markup × List Char) :=
  entities.findSome? fun e => (e.1.toList.isPrefixOf? cs).map (.char e.2, ·)

/-- What a text begins with, and the text behind it. An angle bracket opens a tag and an ampersand
an entity; other characters stand for themselves. -/
def readOne? : List Char → Option (Markup × List Char)
  | [] => none
  | c :: cs =>
    if c = '<' then (readOpening? (c :: cs)).or (readClosing? (c :: cs))
    else if c = '&' then readEntity? (c :: cs)
    else some (.char c, cs)

theorem length_of_isPrefixOf? {front cs rest : List Char} (hfront : front ≠ [])
    (h : front.isPrefixOf? cs = some rest) : rest.length < cs.length := by
  rw [← List.isPrefixOf?_eq_some_iff_append_eq.mp h, List.length_append]
  have := List.length_pos_iff.mpr hfront
  omega

theorem readOpening?_eq_some {cs rest : List Char} {m : Markup}
    (h : readOpening? cs = some (m, rest)) :
    ∃ behind, tagStart.isPrefixOf? cs = some behind ∧
      tagEnd.isPrefixOf? (behind.dropWhile (· != '"')) = some rest ∧
      m = .opening (behind.takeWhile (· != '"')) := by
  unfold readOpening? at h
  obtain ⟨behind, hbehind, h⟩ := Option.bind_eq_some_iff.mp h
  obtain ⟨rest', hrest, h⟩ := Option.bind_eq_some_iff.mp h
  cases h
  exact ⟨behind, hbehind, hrest, rfl⟩

theorem readClosing?_eq_some {cs rest : List Char} {m : Markup}
    (h : readClosing? cs = some (m, rest)) :
    closingTag.isPrefixOf? cs = some rest ∧ m = .closing := by
  unfold readClosing? at h
  obtain ⟨rest', hrest, h⟩ := Option.bind_eq_some_iff.mp h
  cases h
  exact ⟨hrest, rfl⟩

theorem readEntity?_eq_some {cs rest : List Char} {m : Markup}
    (h : readEntity? cs = some (m, rest)) :
    ∃ e ∈ entities, e.1.toList.isPrefixOf? cs = some rest ∧ m = .char e.2 := by
  obtain ⟨e, he, h⟩ := List.exists_of_findSome?_eq_some h
  obtain ⟨rest', hrest, h⟩ := Option.map_eq_some_iff.mp h
  cases h
  exact ⟨e, he, hrest, rfl⟩

/-- A piece takes a character or more, and no classes that are read hold a quote. -/
theorem readOne?_spec {cs rest : List Char} {m : Markup} (h : readOne? cs = some (m, rest)) :
    rest.length < cs.length ∧ m.Plain := by
  cases cs with
  | nil => cases h
  | cons c cs =>
  rw [readOne?] at h
  split at h
  · rcases Option.or_eq_some_iff.mp h with h | ⟨-, h⟩
    · obtain ⟨behind, hbehind, hrest, rfl⟩ := readOpening?_eq_some h
      have hlt := length_of_isPrefixOf? (by decide) hbehind
      have hlt' := length_of_isPrefixOf? (by decide) hrest
      have hle := (List.dropWhile_suffix (· != '"') (l := behind)).length_le
      refine ⟨by omega, fun hquote => ?_⟩
      simpa using List.all_eq_true.mp List.all_takeWhile _ hquote
    · obtain ⟨hrest, rfl⟩ := readClosing?_eq_some h
      exact ⟨length_of_isPrefixOf? (by decide) hrest, trivial⟩
  split at h
  · obtain ⟨e, he, hrest, rfl⟩ := readEntity?_eq_some h
    have hne : ∀ e ∈ entities, e.1.toList ≠ [] := by decide
    exact ⟨length_of_isPrefixOf? (hne e he) hrest, trivial⟩
  · cases h
    exact ⟨Nat.lt_succ_self _, trivial⟩

/-- The pieces of a text in HTML, unless something in it opens neither a tag nor an entity. -/
def read? : List Char → Option (List Markup)
  | [] => some []
  | c :: cs =>
    match _ : readOne? (c :: cs) with
    | none => none
    | some (m, rest) => (read? rest).map (m :: ·)
termination_by cs => cs.length
decreasing_by exact (readOne?_spec ‹_›).1

@[simp] theorem read?_nil : read? [] = some [] := by rw [read?]

theorem read?_eq_some_cons_iff {cs : List Char} {m : Markup} {ms : List Markup} :
    read? cs = some (m :: ms) ↔ ∃ rest, readOne? cs = some (m, rest) ∧ read? rest = some ms := by
  cases cs with
  | nil => simp [readOne?]
  | cons c cs =>
    rw [read?]
    split
    · rename_i hone
      simp [hone]
    · rename_i m' rest hone
      rw [hone, Option.map_eq_some_iff]
      constructor
      · rintro ⟨ms', hrest, hcons⟩
        obtain ⟨rfl, rfl⟩ := List.cons.inj hcons
        exact ⟨rest, rfl, hrest⟩
      · rintro ⟨rest', hpair, hrest⟩
        cases hpair
        exact ⟨ms, hrest, rfl⟩

theorem read?_eq_none {cs : List Char} (hcs : cs ≠ []) (h : readOne? cs = none) :
    read? cs = none := by
  cases cs with
  | nil => exact absurd rfl hcs
  | cons c cs =>
    rw [read?]
    split
    · rfl
    · rename_i hone
      rw [h] at hone
      cases hone

/-- Whatever is read, no classes in it hold a quote. -/
theorem plain_of_read? {cs : List Char} {ms : List Markup} (h : read? cs = some ms) :
    ∀ m ∈ ms, m.Plain := by
  induction ms generalizing cs with
  | nil => exact nofun
  | cons m ms ih =>
    obtain ⟨rest, hone, hrest⟩ := read?_eq_some_cons_iff.mp h
    exact List.forall_mem_cons.mpr ⟨(readOne?_spec hone).2, ih hrest⟩

/-! ## Writing pieces -/

def Markup.write : Markup → List Char
  | opening classes => tagStart ++ classes ++ tagEnd
  | closing => closingTag
  | char c => (escapeChar c).toList

theorem isPrefixOf?_append (front rest : List Char) :
    front.isPrefixOf? (front ++ rest) = some rest :=
  List.isPrefixOf?_eq_some_iff_append_eq.mpr rfl

theorem readOpening?_write {classes : List Char} (h : '"' ∉ classes) (rest : List Char) :
    readOpening? ((Markup.opening classes).write ++ rest) = some (.opening classes, rest) := by
  have hvalue : ∀ c ∈ classes, (c != '"') = true := fun c hc =>
    bne_iff_ne.mpr fun heq => h (heq ▸ hc)
  have hend : tagEnd ++ rest = '"' :: '>' :: rest := by simp [tagEnd]
  have hwrite : (Markup.opening classes).write ++ rest =
      tagStart ++ (classes ++ '"' :: '>' :: rest) := by
    rw [Markup.write, List.append_assoc, List.append_assoc, hend]
  rw [readOpening?, hwrite, isPrefixOf?_append tagStart]
  simp only [Option.bind_eq_bind, Option.bind_some, List.dropWhile_append_of_pos hvalue,
    List.takeWhile_append_of_pos hvalue]
  rw [List.dropWhile_cons_of_neg (by simp), List.takeWhile_cons_of_neg (by simp), ← hend,
    isPrefixOf?_append tagEnd, List.append_nil, Option.bind_some]
  rfl

/-- No entity begins another one. -/
theorem readOne?_entity {e : String × Char} (he : e ∈ entities) (rest : List Char) :
    readOne? (e.1.toList ++ rest) = some (.char e.2, rest) := by
  simp only [entities, List.mem_cons, List.not_mem_nil, or_false] at he
  rcases he with rfl | rfl | rfl | rfl | rfl
  all_goals simp [readOne?, readEntity?, entities, List.isPrefixOf?]

theorem escapeChar_cases (c : Char) :
    (escapeChar c, c) ∈ entities ∨ c ≠ '<' ∧ c ≠ '&' ∧ (escapeChar c).toList = [c] := by
  unfold escapeChar
  split
  · exact .inl (by simp [entities])
  · exact .inl (by simp [entities])
  · exact .inl (by simp [entities])
  · exact .inl (by simp [entities])
  · exact .inl (by simp [entities])
  · rename_i hamp hlt _ _ _
    exact .inr ⟨hlt, hamp, by simp⟩

/-- A piece is read from the front of what begins with it. -/
theorem readOne?_write {m : Markup} (h : m.Plain) (rest : List Char) :
    readOne? (m.write ++ rest) = some (m, rest) := by
  cases m with
  | opening classes =>
    have hread := readOpening?_write h rest
    rw [Markup.write, tagStart_eq, List.cons_append, List.cons_append, List.cons_append] at hread ⊢
    rw [readOne?, if_pos rfl, hread, Option.some_or]
  | closing =>
    have hopening : readOpening? (closingTag ++ rest) = none := by
      simp [readOpening?, tagStart_eq, closingTag_eq, List.isPrefixOf?]
    have hclosing : readClosing? (closingTag ++ rest) = some (.closing, rest) := by
      simp [readClosing?, isPrefixOf?_append closingTag]
    rw [Markup.write, closingTag_eq, List.cons_append] at *
    rw [readOne?, if_pos rfl, hopening, hclosing, Option.none_or]
  | char c =>
    obtain hentity | ⟨hlt, hamp, hwrite⟩ := escapeChar_cases c
    · exact readOne?_entity hentity rest
    · rw [Markup.write, hwrite, List.singleton_append, readOne?, if_neg hlt, if_neg hamp]

/-- What pieces are written as reads back if no value holds a quote, and only then. -/
theorem read?_write_iff (ms : List Markup) :
    read? (ms.flatMap Markup.write) = some ms ↔ ∀ m ∈ ms, m.Plain := by
  constructor
  · exact plain_of_read?
  · intro h
    induction ms with
    | nil => exact read?_nil
    | cons m ms ih =>
      obtain ⟨hm, hms⟩ := List.forall_mem_cons.mp h
      rw [List.flatMap_cons]
      exact read?_eq_some_cons_iff.mpr ⟨_, readOne?_write hm _, ih hms⟩

/-! ## Balanced tags -/

/-- Pieces whose tags open and close elements in pairs. -/
inductive Balanced : List Markup → Prop where
  | nil : Balanced []
  | char (c : Char) {ms : List Markup} (h : Balanced ms) : Balanced (.char c :: ms)
  | element (classes : List Char) {inner ms : List Markup} (hinner : Balanced inner)
      (h : Balanced ms) : Balanced (.opening classes :: (inner ++ .closing :: ms))

theorem Balanced.append {ms ns : List Markup} (h : Balanced ms) (h' : Balanced ns) :
    Balanced (ms ++ ns) := by
  induction h with
  | nil => exact h'
  | char c _ ih => exact .char c ih
  | element classes hinner _ _ ih =>
    rw [List.cons_append, List.append_assoc, List.cons_append]
    exact .element classes hinner ih

theorem balanced_chars (cs : List Char) : Balanced (cs.map .char) := by
  induction cs with
  | nil => exact .nil
  | cons c cs ih => exact .char c ih

/-- The characters between tags. -/
def characters (ms : List Markup) : List Char :=
  ms.filterMap fun
    | .char c => some c
    | _ => none

theorem characters_opening (classes : List Char) (ms : List Markup) :
    characters (.opening classes :: ms) = characters ms := rfl

@[simp] theorem characters_append (ms ns : List Markup) :
    characters (ms ++ ns) = characters ms ++ characters ns :=
  List.filterMap_append

@[simp] theorem characters_chars (cs : List Char) : characters (cs.map .char) = cs := by
  rw [characters, List.filterMap_map]
  exact List.filterMap_some

end Tinct.Render
