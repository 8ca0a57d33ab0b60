import Tinct.Proofs.Scan.Termination

/-!
# Scans that fail

An end pattern that refers back is tried when its grammar is compiled, with groups that hold
nothing. What a group holds in a text may make another source of it, one that is ill formed or too
large:

* `Fails`: a begin after which there is nothing to look for;
* `begin_eq_error_iff`: a begin fails for no other reason;
* `tokenize_fails_iff`: a scan fails exactly where it comes to such a begin, but for the illegal
  sequences at which it aborts;
* `reference_in_count_fails`: a grammar with such a begin.
-/

namespace Tinct

namespace Scan

/-- The next step in a state is a begin whose region has no end, because the end pattern makes no
matcher with what the begin has captured. -/
inductive Fails (g : Grammar) (t : Text) (s : State) (e : PatternError) : Prop where
  | intro {s₁ : State} {id index : Nat} {span : Span} {v : Variant} {template : EndTemplate}
      (hnext : nextStep g t s = (.begin id index span, s₁))
      (hv : (g.mode id).variants[index]? = some v)
      (hfinish : v.finish = .pattern (.template template))
      (he : template.instantiate (v.begin.captures t span) = .error e) : Fails g t s e

section begins
variable {g : Grammar} {t : Text} {s : State}

theorem endMatcher_eq_error_iff {v : Variant} {span : Span} {f : GrammarFault} :
    State.endMatcher t v span = .error f ↔
      ∃ template e, v.finish = .pattern (.template template) ∧
        template.instantiate (v.begin.captures t span) = .error e ∧ f = .endPattern e := by
  unfold State.endMatcher
  cases hfinish : v.finish with
  | immediate => exact ⟨nofun, fun ⟨_, _, h, _⟩ => by cases h⟩
  | unbounded => exact ⟨nofun, fun ⟨_, _, h, _⟩ => by cases h⟩
  | pattern p =>
    cases p with
    | static m => exact ⟨nofun, fun ⟨_, _, h, _⟩ => by cases h⟩
    | template template =>
      dsimp only
      cases hm : template.instantiate (v.begin.captures t span) with
      | ok m =>
        refine ⟨nofun, ?_⟩
        rintro ⟨_, _, h, herror, -⟩
        cases h
        rw [hm] at herror
        cases herror
      | error e =>
        constructor
        · intro h
          cases h
          exact ⟨template, e, rfl, hm, rfl⟩
        · rintro ⟨_, e', h, herror, rfl⟩
          cases h
          rw [hm] at herror
          cases herror
          rfl

/-- A begin fails only where its end pattern makes no matcher. -/
theorem begin_eq_error_iff {id index : Nat} {span : Span} {f : GrammarFault} :
    s.begin g t id index span = .error f ↔
      ∃ v template e, (g.mode id).variants[index]? = some v ∧
        v.finish = .pattern (.template template) ∧
        template.instantiate (v.begin.captures t span) = .error e ∧ f = .endPattern e := by
  rw [State.begin_eq]
  cases hv : (g.mode id).variants[index]? with
  | none => exact ⟨nofun, fun ⟨_, _, _, h, _⟩ => by cases h⟩
  | some v =>
    have hmap : (State.endMatcher t v span).map (s.beginWith g t id v span) = .error f ↔
        State.endMatcher t v span = .error f := by
      cases State.endMatcher t v span with
      | ok m => exact ⟨nofun, nofun⟩
      | error e => exact ⟨fun h => by cases h; rfl, fun h => by cases h; rfl⟩
    dsimp only
    rw [hmap, endMatcher_eq_error_iff]
    constructor
    · rintro ⟨template, e, hrest⟩
      exact ⟨v, template, e, rfl, hrest⟩
    · rintro ⟨v', template, e, h, hrest⟩
      cases h
      exact ⟨template, e, hrest⟩

/-- A scan that ends in a state with the fault of a grammar fails there. -/
theorem Ends.fails {policy : IllegalPolicy} {name : String} {f : GrammarFault}
    (h : Ends g t policy s (.error (.malformed name f))) :
    name = g.name ∧ ∃ e, Fails g t s e ∧ f = .endPattern e := by
  cases h with
  | failed hnext hbegin =>
    obtain ⟨v, template, e, hv, hfinish, he, rfl⟩ := begin_eq_error_iff.mp hbegin
    exact ⟨rfl, e, .intro hnext hv hfinish he, rfl⟩

theorem Fails.ends {e : PatternError} (h : Fails g t s e) (policy : IllegalPolicy) :
    Ends g t policy s (.error (.malformed g.name (.endPattern e))) := by
  obtain ⟨hnext, hv, hfinish, he⟩ := h
  exact .failed hnext (begin_eq_error_iff.mpr ⟨_, _, e, hv, hfinish, he, rfl⟩)

end begins
end Scan

open Scan

variable {g : Grammar} {policy : IllegalPolicy} {source : String}

/-- The fault of a grammar comes from a begin whose end pattern makes no matcher. -/
theorem tokenize_eq_malformed_iff (hg : g.Numbered) {name : String} {f : GrammarFault} :
    g.tokenize policy source = .error (.malformed name f) ↔
      name = g.name ∧ ∃ s e, Reachable g (.ofString source) s ∧
        Fails g (.ofString source) s e ∧ f = .endPattern e := by
  rw [tokenize_eq_iff hg]
  constructor
  · rintro ⟨steps, s, htrace, hends⟩
    obtain ⟨hname, e, hfails, hf⟩ := hends.fails
    exact ⟨hname, s, e, htrace.reachable, hfails, hf⟩
  · rintro ⟨rfl, s, e, hs, hfails, rfl⟩
    obtain ⟨steps, htrace⟩ := Reachable.exists_trace hs
    exact ⟨steps, s, htrace, hfails.ends policy⟩

/-- What a scan returns is a result, an illegal sequence at which it aborts, or the fault of a
grammar. -/
theorem tokenize_trichotomy (hg : g.Numbered) (policy : IllegalPolicy) (source : String) :
    (∃ r, g.tokenize policy source = .ok r) ∨
      (∃ o, policy = .abort ∧
        g.tokenize policy source = .error (.illegalSequence g.name o)) ∨
      ∃ f, g.tokenize policy source = .error (.malformed g.name f) := by
  obtain ⟨steps, s, -, hends⟩ : ∃ steps s, Trace g (.ofString source) steps s ∧
      Ends g (.ofString source) policy s (g.tokenize policy source) := (tokenize_eq_iff hg).mp rfl
  generalize g.tokenize policy source = r at hends ⊢
  cases hends with
  | done _ => exact .inl ⟨_, rfl⟩
  | recovered _ _ => exact .inl ⟨_, rfl⟩
  | aborted _ hpolicy => exact .inr (.inl ⟨_, hpolicy, rfl⟩)
  | failed _ _ => exact .inr (.inr ⟨_, rfl⟩)

/-- The end patterns that make no matcher with what a begin has captured are all that can go wrong
in a scan but for illegal sequences. Without them a scan that recovers returns a result, and a scan
that aborts fails at an illegal sequence only; with one of them both fail, and so they do for no
other reason. -/
theorem tokenize_fails_iff {d : GrammarDef} {g : Grammar} {source : String}
    (hd : Grammar.compile d = .ok g) :
    ((∃ r, g.tokenize .plainRemainder source = .ok r) ↔
      ∀ s e, Reachable g (.ofString source) s → ¬Fails g (.ofString source) s e) ∧
    ((∀ error, g.tokenize .abort source = .error error →
        ∃ o, error = .illegalSequence g.name o) ↔
      ∀ s e, Reachable g (.ofString source) s → ¬Fails g (.ofString source) s e) ∧
    ∀ policy name f, g.tokenize policy source = .error (.malformed name f) ↔
      name = g.name ∧ ∃ s e, Reachable g (.ofString source) s ∧
        Fails g (.ofString source) s e ∧ f = .endPattern e := by
  have hg := Grammar.compile_numbered hd
  have hfault (policy : IllegalPolicy) {s : State} {e : PatternError}
      (hs : Reachable g (.ofString source) s) (he : Fails g (.ofString source) s e) :
      g.tokenize policy source = .error (.malformed g.name (.endPattern e)) :=
    (tokenize_eq_malformed_iff hg).mpr ⟨rfl, s, e, hs, he, rfl⟩
  have hnone {policy : IllegalPolicy} {f : GrammarFault}
      (h : ∀ s e, Reachable g (.ofString source) s → ¬Fails g (.ofString source) s e) :
      g.tokenize policy source ≠ .error (.malformed g.name f) := by
    intro hf
    obtain ⟨-, s, e, hs, he, -⟩ := (tokenize_eq_malformed_iff hg).mp hf
    exact h s e hs he
  refine ⟨⟨?_, fun h => ?_⟩, ⟨fun h s e hs he => ?_, fun h error herror => ?_⟩,
    fun policy name f => tokenize_eq_malformed_iff hg⟩
  · rintro ⟨r, hr⟩ s e hs he
    rw [hfault .plainRemainder hs he] at hr
    cases hr
  · obtain hr | ⟨o, hpolicy, -⟩ | ⟨f, hf⟩ := tokenize_trichotomy hg .plainRemainder source
    · exact hr
    · cases hpolicy
    · exact absurd hf (hnone h)
  · obtain ⟨o, ho⟩ := h _ (hfault .abort hs he)
    cases ho
  · obtain ⟨r, hr⟩ | ⟨o, -, ho⟩ | ⟨f, hf⟩ := tokenize_trichotomy hg .abort source
    · rw [hr] at herror
      cases herror
    · rw [ho] at herror
      cases herror
      exact ⟨o, rfl⟩
    · exact absurd hf (hnone h)

/-! ## A grammar that fails -/

/-- A region whose end counts to a number that its begin completes. -/
def countedDef : GrammarDef where
  name := "counted"
  contains := [.ref "region"]
  modes := [("region",
    { scope := some "s", begin := some (.source "<([a-z0-9]*)")
      finish := some (.source "a\x7b2\\1\x7d") })]

theorem compile_countedDef : (Grammar.compile countedDef).toOption.isSome = true := by
  decide +kernel

def counted : Grammar := (Grammar.compile countedDef).toOption.get compile_countedDef

theorem compile_eq_counted : Grammar.compile countedDef = .ok counted :=
  eq_ok_of_toOption_eq_some (Option.some_get compile_countedDef).symm

/-- Where the begin captures no digits, the end does not count to a number. -/
theorem tokenize_counted :
    counted.tokenize .plainRemainder "<x" =
        .error (.malformed "counted" (.endPattern (.badRegex "a\x7b2x\x7d"))) ∧
      (counted.tokenize .plainRemainder "<0").toOption.map (·.illegal) = some none := by
  decide +kernel

/-- A grammar that compiles may fail on a text. -/
theorem reference_in_count_fails :
    Grammar.compile countedDef = .ok counted ∧ ∃ e, counted.tokenize .plainRemainder "<x" =
      .error (.malformed "counted" (.endPattern e)) :=
  ⟨compile_eq_counted, _, tokenize_counted.1⟩

theorem tokenize_fails_iff_counted : Grammar.compile countedDef = .ok counted ∧
    (∃ s, Reachable counted (.ofString "<x") s ∧
      Fails counted (.ofString "<x") s (.badRegex "a\x7b2x\x7d")) ∧
    ∀ s e, Reachable counted (.ofString "<0") s → ¬Fails counted (.ofString "<0") s e := by
  obtain ⟨hfails, hok⟩ := tokenize_counted
  obtain ⟨r, hr, -⟩ := exists_ok hok
  obtain ⟨-, s, e, hs, he, hf⟩ :=
    ((@tokenize_fails_iff countedDef counted "<x" compile_eq_counted).2.2 _ _ _).mp hfails
  obtain rfl := GrammarFault.endPattern.inj hf
  exact ⟨compile_eq_counted, ⟨s, hs, he⟩,
    (@tokenize_fails_iff countedDef counted "<0" compile_eq_counted).1.mp ⟨r, hr⟩⟩

end Tinct
