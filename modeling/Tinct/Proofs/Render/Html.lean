import Tinct.Proofs.Render.Markup
import Tinct.Proofs.Scan.Coverage

/-!
# The HTML of a tokenization

Whatever a text holds, it stays text in the HTML of its tokenization. The scopes of a grammar do
not fare as well: they become classes as they are written.

* `mem_className_iff`: the classes of a scope hold a quote if and only if its name does;
* `html_eq`: what is written for a tokenization is its markup, piece by piece;
* `markup_balanced`: the tags of events that cover a text are balanced;
* `html_reads_back_iff`: the markup of a tokenization is balanced and its characters are the text;
  it reads back from the HTML if and only if no scope in it holds a quote;
* `quoted_scope_ends_tag`: a grammar with a scope that ends its tag.
-/

namespace Tinct.Render

/-! ## Classes of a scope -/

theorem mem_iff_exists_mem_splitOn {c d : Char} (hcd : c ≠ d) (cs : List Char) :
    c ∈ cs ↔ ∃ segment ∈ cs.splitOn d, c ∈ segment := by
  induction cs with
  | nil => simp
  | cons a cs ih =>
    rw [List.splitOn_cons_eq_if_modifyHead, List.mem_cons, ih]
    split
    · rename_i ha
      rw [eq_of_beq ha]
      simp [hcd]
    · cases hsplit : cs.splitOn d with
      | nil => exact absurd hsplit (List.splitOn_ne_nil _ _)
      | cons segment segments =>
        simp [or_assoc]

theorem toList_pushn (s : String) (c : Char) (n : Nat) :
    (s.pushn c n).toList = s.toList ++ List.replicate n c := by
  induction n with
  | zero => simp [String.pushn, Nat.repeat]
  | succ n ih =>
    rw [String.pushn] at ih ⊢
    rw [Nat.repeat, String.toList_push, ih, List.replicate_succ', List.append_assoc]

theorem mem_subclasses_iff {c : Char} (hspace : c ≠ ' ') (hunder : c ≠ '_') (n : Nat)
    (segments : List String) :
    c ∈ (subclasses n segments).toList ↔ ∃ segment ∈ segments, c ∈ segment.toList := by
  induction segments generalizing n with
  | nil => simp [subclasses]
  | cons segment segments ih =>
    simp [subclasses, ih, toList_pushn, hspace, hunder]

/-- What is put between the segments of a scope holds no quote. -/
theorem mem_className_iff (scope : Scope) :
    '"' ∈ (className scope).toList ↔ '"' ∈ scope.name.toList := by
  rw [mem_iff_exists_mem_splitOn (show '"' ≠ '.' by decide) scope.name.toList]
  unfold className Scope.segments splitDots
  cases hsplit : scope.name.toList.splitOn '.' with
  | nil => exact absurd hsplit (List.splitOn_ne_nil _ _)
  | cons segment segments =>
    simp [classStart, mem_subclasses_iff (show '"' ≠ ' ' by decide) (by decide)]

/-! ## The markup of events -/

/-- The scope that a token is an element of: that of a keyword or of a delimiter. -/
def tokenClass? (t : Token) : Option Scope := if t.kind = .text then none else t.scope

/-- The scope that an event makes a class. -/
def eventClass? : Event → Option Scope
  | .enter _ scope _ => scope
  | .token t => tokenClass? t
  | .exit _ _ _ _ => none

/-- The tag that opens an element of a scope. -/
def openingOf (scope : Scope) : Markup := .opening (className scope).toList

def tokenMarkup (source : String) (t : Token) : List Markup :=
  let text := (t.text source).toList.map .char
  match tokenClass? t with
  | some scope => openingOf scope :: (text ++ [.closing])
  | none => text

/-- An event as pieces: a region with a scope is an element. -/
def eventMarkup (source : String) : Event → List Markup
  | .enter _ (some scope) _ => [openingOf scope]
  | .exit _ (some _) _ _ => [.closing]
  | .token t => tokenMarkup source t
  | _ => []

def markup (r : Tokenization) (source : String) : List Markup :=
  r.events.flatMap (eventMarkup source)

theorem write_openingOf (scope : Scope) : (openingOf scope).write = (openSpan scope).toList := by
  rw [openSpan, String.toList_append, String.toList_append]
  rfl

theorem write_chars (text : String) :
    (text.toList.map .char).flatMap Markup.write = (escapeHtml text).toList := by
  rw [escapeHtml, String.toList_join, List.flatMap_map, List.flatMap_map]
  rfl

theorem tokenHtml_eq (source : String) (t : Token) :
    tokenHtml source t = match tokenClass? t with
      | some scope => openSpan scope ++ escapeHtml (t.text source) ++ closeSpan
      | none => escapeHtml (t.text source) := by
  obtain ⟨span, scope, kind⟩ := t
  cases scope <;> cases kind <;> rfl

theorem write_tokenMarkup (source : String) (t : Token) :
    (tokenMarkup source t).flatMap Markup.write = (tokenHtml source t).toList := by
  have hclosing : Markup.closing.write = closeSpan.toList := rfl
  rw [tokenHtml_eq, tokenMarkup]
  cases tokenClass? t with
  | none => exact write_chars _
  | some scope =>
    simp only [List.flatMap_cons, List.flatMap_append, List.flatMap_nil, List.append_nil,
      write_openingOf, write_chars, hclosing, String.toList_append, List.append_assoc]

theorem write_eventMarkup (source : String) (e : Event) :
    (eventMarkup source e).flatMap Markup.write = (eventHtml source e).toList := by
  cases e with
  | enter mode scope offset =>
    cases scope with
    | none => rfl
    | some scope => exact (List.append_nil _).trans (write_openingOf scope)
  | token t => exact write_tokenMarkup source t
  | exit mode scope span closure =>
    cases scope with
    | none => rfl
    | some scope => exact List.append_nil _

/-- What is written for a tokenization is its markup, piece by piece. -/
theorem html_eq (r : Tokenization) (source : String) :
    (html r source).toList = (markup r source).flatMap Markup.write := by
  rw [html, String.toList_join, List.flatMap_map, markup, List.flatMap_assoc]
  exact List.flatMap_congr fun e _ => (write_eventMarkup source e).symm

/-! ## Balance -/

theorem tokenMarkup_balanced (source : String) (t : Token) : Balanced (tokenMarkup source t) := by
  have htext := balanced_chars (t.text source).toList
  rw [tokenMarkup]
  cases tokenClass? t with
  | none => exact htext
  | some scope => exact .element _ htext .nil

/-- A region opens and closes with the same scope. -/
theorem markup_balanced {i j : Nat} {es : List Event} (h : Covers i j es) (source : String) :
    Balanced (es.flatMap (eventMarkup source)) := by
  induction h with
  | nil => exact .nil
  | token _ _ ih =>
    rw [List.flatMap_cons]
    exact (tokenMarkup_balanced source _).append ih
  | @region _ _ _ _ scope _ inner es _ _ ih₁ ih₂ =>
    rw [List.flatMap_cons, List.flatMap_append, List.flatMap_cons]
    cases scope with
    | none => exact ih₁.append ih₂
    | some scope => exact .element _ ih₁ ih₂

/-! ## Characters -/

theorem characters_tokenMarkup (source : String) (t : Token) :
    characters (tokenMarkup source t) = (t.text source).toList := by
  have htext := characters_chars (t.text source).toList
  rw [tokenMarkup]
  cases tokenClass? t with
  | none => exact htext
  | some scope =>
    have hclosing : characters [.closing] = [] := rfl
    refine (characters_opening _ _).trans ?_
    rw [characters_append, htext, hclosing, List.append_nil]

/-- The characters of a tokenization are the texts of its tokens. -/
theorem characters_markup (r : Tokenization) (source : String) :
    characters (markup r source) = (r.reconstruct source).toList := by
  rw [Tokenization.reconstruct, String.toList_join, List.flatMap_map, Tokenization.tokens_eq,
    markup]
  induction r.events with
  | nil => rfl
  | cons e es ih =>
    rw [List.flatMap_cons, characters_append, ih]
    cases e with
    | enter mode scope offset => cases scope <;> rfl
    | token t => rw [eventMarkup, characters_tokenMarkup]; rfl
    | exit mode scope span closure => cases scope <;> rfl

/-! ## Quotes in scopes -/

/-- The scopes that stand in the HTML of a tokenization. -/
def shownScopes (r : Tokenization) : List Scope := r.events.filterMap eventClass?

theorem plain_openingOf (scope : Scope) : (openingOf scope).Plain ↔ '"' ∉ scope.name.toList :=
  not_congr (mem_className_iff scope)

theorem plain_tokenMarkup (source : String) (t : Token) :
    (∀ m ∈ tokenMarkup source t, m.Plain) ↔
      ∀ scope ∈ tokenClass? t, '"' ∉ scope.name.toList := by
  have htext : ∀ m ∈ (t.text source).toList.map Markup.char, m.Plain := by
    simp [Markup.Plain]
  rw [tokenMarkup]
  cases tokenClass? t with
  | none => exact ⟨fun _ => nofun, fun _ => htext⟩
  | some scope =>
    simp only [List.forall_mem_cons, List.forall_mem_append, plain_openingOf, Option.mem_def,
      Option.some.injEq, forall_eq']
    simp [Markup.Plain]

theorem plain_eventMarkup (source : String) (e : Event) :
    (∀ m ∈ eventMarkup source e, m.Plain) ↔
      ∀ scope ∈ eventClass? e, '"' ∉ scope.name.toList := by
  cases e with
  | enter mode scope offset => cases scope <;> simp [eventMarkup, eventClass?, plain_openingOf]
  | token t => exact plain_tokenMarkup source t
  | exit mode scope span closure =>
    cases scope <;> simp [eventMarkup, eventClass?, Markup.Plain]

theorem plain_markup (r : Tokenization) (source : String) :
    (∀ m ∈ markup r source, m.Plain) ↔ ∀ scope ∈ shownScopes r, '"' ∉ scope.name.toList := by
  have hevents : (∀ m ∈ markup r source, m.Plain) ↔
      ∀ e ∈ r.events, ∀ m ∈ eventMarkup source e, m.Plain := by
    simp only [markup, List.mem_flatMap]
    exact ⟨fun h e he m hm => h m ⟨e, he, hm⟩, fun h m ⟨e, he, hm⟩ => h e he m hm⟩
  have hclasses : (∀ scope ∈ shownScopes r, '"' ∉ scope.name.toList) ↔
      ∀ e ∈ r.events, ∀ scope ∈ eventClass? e, '"' ∉ scope.name.toList := by
    simp only [shownScopes, List.mem_filterMap]
    exact ⟨fun h e he scope hscope => h scope ⟨e, he, hscope⟩,
      fun h scope ⟨e, he, hscope⟩ => h e he scope hscope⟩
  rw [hevents, hclasses]
  exact forall₂_congr fun e _ => plain_eventMarkup source e

/-! ## Reading back -/

/-- The HTML of a tokenization asks for balanced elements around the characters of the text. It
reads back as that if no scope that becomes a class holds a quote, and only then. -/
theorem html_reads_back_iff {g : Grammar} {policy : IllegalPolicy} {source : String}
    {r : Tokenization} (h : g.tokenize policy source = .ok r) :
    Balanced (markup r source) ∧ characters (markup r source) = source.toList ∧
      (read? (html r source).toList = some (markup r source) ↔
        ∀ scope ∈ shownScopes r, '"' ∉ scope.name.toList) := by
  refine ⟨markup_balanced (tokenize_covers h) source, ?_, ?_⟩
  · rw [characters_markup, reconstruct_of_tokenize h]
  · rw [html_eq, read?_write_iff, plain_markup]

theorem html_reads_back_parentheses : parentheses.tokenize .abort "é(x)" = .ok groupBehindText ∧
    read? (html groupBehindText "é(x)").toList = some (markup groupBehindText "é(x)") :=
  ⟨tokenize_parentheses, (html_reads_back_iff tokenize_parentheses).2.2.mpr (by decide)⟩

/-- A letter in a scope with a quote. -/
def quotedDef : GrammarDef where
  name := "quoted"
  contains := [.inline { scope := some "a\"b", matched := some (.source "x") }]

theorem compile_quotedDef : (Grammar.compile quotedDef).toOption.isSome = true := by
  decide +kernel

def quoted : Grammar := (Grammar.compile quotedDef).toOption.get compile_quotedDef

theorem compile_eq_quoted : Grammar.compile quotedDef = .ok quoted :=
  eq_ok_of_toOption_eq_some (Option.some_get compile_quotedDef).symm

/-- A letter that is a region. -/
def quotedLetter : Tokenization where
  events := [.enter 1 (some ⟨"a\"b"⟩) 0, .token ⟨⟨0, 1⟩, some ⟨"a\"b"⟩, .text⟩,
    .exit 1 (some ⟨"a\"b"⟩) ⟨0, 1⟩ .matched]
  relevance := 1
  illegal := none

theorem tokenize_quoted : quoted.tokenize .abort "x" = .ok quotedLetter :=
  eq_ok_of_toOption_eq_some (by decide +kernel)

/-- A scope is written into its tag as it is, and a quote in it ends the classes. -/
theorem quoted_scope_ends_tag : ∃ g r, Grammar.compile quotedDef = .ok g ∧
    g.tokenize .abort "x" = .ok r ∧ html r "x" = "<span class=\"hljs-a\"b\">x</span>" ∧
      read? (html r "x").toList = none := by
  refine ⟨quoted, quotedLetter, compile_eq_quoted, tokenize_quoted, rfl, ?_⟩
  exact read?_eq_none (by decide) (by decide)

end Tinct.Render
