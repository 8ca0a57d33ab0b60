import Tinct.Proofs.Scan.Arbitration

/-!
# Scans step by step

A scan that has been followed from its start, with the steps that it has taken:

* `Takes`: a step that opens or closes regions, and `Ends`: a step with which a scan ends;
* `Trace`: the steps that lead from the start to a state, last first;
* `scan_eq_iff`: where no trace is as long as the number of steps that a scan may take, it returns
  what the state ends with that its trace leads to.
-/

namespace Tinct.Scan

section steps
variable (g : Grammar) (t : Text)

/-- A step that opens or closes regions leads from one state to another. -/
inductive Takes : Step → State → State → Prop where
  | begin {s s₁ s₂ : State} {id index : Nat} {span : Span}
      (hnext : nextStep g t s = (.begin id index span, s₁))
      (hbegin : s₁.begin g t id index span = .ok s₂) : Takes (.begin id index span) s s₂
  | finish {s s₁ : State} {level : Nat} {span : Span}
      (hnext : nextStep g t s = (.finish level span, s₁)) :
      Takes (.finish level span) s (s₁.finish g t level span)

/-- The steps from the start of a scan to a state, last first. -/
inductive Trace : List Step → State → Prop where
  | start : Trace [] (.initial g)
  | step {steps : List Step} {s s' : State} {step : Step} (h : Trace steps s)
      (hstep : Takes g t step s s') : Trace (step :: steps) s'

/-- What a scan returns whose next step in a state opens no region and closes none. -/
inductive Ends (policy : IllegalPolicy) (s : State) : Except Error Tokenization → Prop where
  | done {s₁ : State} (hnext : nextStep g t s = (.done, s₁)) :
      Ends policy s (.ok ((s₁.finishInput g t).result t none))
  | recovered {s₁ : State} {i : Nat} (hnext : nextStep g t s = (.illegal i, s₁))
      (hpolicy : policy = .plainRemainder) :
      Ends policy s (.ok ((s₁.recover g t i).result t (some i)))
  | aborted {s₁ : State} {i : Nat} (hnext : nextStep g t s = (.illegal i, s₁))
      (hpolicy : policy = .abort) :
      Ends policy s (.error (.illegalSequence g.name (t.offsets.getD i 0)))
  /-- What would end a region that begins cannot be made. -/
  | failed {s₁ : State} {id index : Nat} {span : Span} {e : GrammarFault}
      (hnext : nextStep g t s = (.begin id index span, s₁))
      (hbegin : s₁.begin g t id index span = .error e) :
      Ends policy s (.error (.malformed g.name e))

end steps

variable {g : Grammar} {t : Text} {policy : IllegalPolicy}

theorem Takes.advances {step : Step} {s s' : State} (h : Takes g t step s s') :
    Advances g t s s' := by
  cases h with
  | begin hnext hbegin => exact .begin hnext hbegin
  | finish hnext => exact .finish hnext

theorem Trace.reachable {steps : List Step} {s : State} (h : Trace g t steps s) :
    Reachable g t s := by
  induction h with
  | start => exact .refl
  | step _ hstep ih => exact ih.tail hstep.advances

/-- A trace leads to every state that a scan comes to. -/
theorem Reachable.exists_trace {s : State} (h : Reachable g t s) :
    ∃ steps, Trace g t steps s := by
  induction h with
  | refl => exact ⟨[], .start⟩
  | tail _ hstep ih =>
    obtain ⟨steps, htrace⟩ := ih
    cases hstep with
    | begin hnext hbegin => exact ⟨_, htrace.step (.begin hnext hbegin)⟩
    | finish hnext => exact ⟨_, htrace.step (.finish hnext)⟩

/-- In every state a scan goes on or ends. -/
theorem takes_or_ends (g : Grammar) (t : Text) (policy : IllegalPolicy) (s : State) :
    (∃ step s', Takes g t step s s') ∨ ∃ r, Ends g t policy s r := by
  rcases hnext : nextStep g t s with ⟨step, s₁⟩
  cases step with
  | begin id index span =>
    cases hbegin : s₁.begin g t id index span with
    | ok s₂ => exact .inl ⟨_, s₂, .begin hnext hbegin⟩
    | error e => exact .inr ⟨_, .failed hnext hbegin⟩
  | finish level span => exact .inl ⟨_, _, .finish hnext⟩
  | illegal i =>
    cases hpolicy : policy with
    | abort => exact .inr ⟨_, .aborted hnext rfl⟩
    | plainRemainder => exact .inr ⟨_, .recovered hnext rfl⟩
  | done => exact .inr ⟨_, .done hnext⟩

/-! ## What a scan does step by step -/

theorem scan_of_takes {step : Step} {s s' : State} (h : Takes g t step s s') (n : Nat) :
    scan g t policy (n + 1) s = scan g t policy n s' := by
  cases h with
  | begin hnext hbegin =>
    rw [scan, hnext]
    dsimp only
    rw [hbegin]
  | finish hnext => rw [scan, hnext]

theorem scan_of_ends {s : State} {r : Except Error Tokenization} (h : Ends g t policy s r)
    (n : Nat) : scan g t policy (n + 1) s = r := by
  cases h with
  | done hnext => rw [scan, hnext]
  | recovered hnext hpolicy => rw [scan, hnext, hpolicy]
  | aborted hnext hpolicy => rw [scan, hnext, hpolicy]
  | failed hnext hbegin =>
    rw [scan, hnext]
    dsimp only
    rw [hbegin]

/-- A scan comes to each state that a trace leads to. -/
theorem Trace.scan_eq {steps : List Step} {s : State} (h : Trace g t steps s) (n : Nat) :
    scan g t policy (steps.length + n) (.initial g) = scan g t policy n s := by
  induction h generalizing n with
  | start => rw [List.length_nil, Nat.zero_add]
  | step _ hstep ih =>
    rw [List.length_cons, Nat.add_assoc, Nat.add_comm 1 n, ih, scan_of_takes hstep]

/-- A scan ends within `n` steps, or a trace goes on for that long. -/
theorem exists_trace (g : Grammar) (t : Text) (policy : IllegalPolicy) (n : Nat) :
    (∃ steps s r, Trace g t steps s ∧ Ends g t policy s r) ∨
      ∃ steps s, Trace g t steps s ∧ steps.length = n := by
  induction n with
  | zero => exact .inr ⟨[], _, .start, rfl⟩
  | succ n ih =>
    obtain hends | ⟨steps, s, htrace, rfl⟩ := ih
    · exact .inl hends
    · obtain ⟨step, s', hstep⟩ | ⟨r, hr⟩ := takes_or_ends g t policy s
      · exact .inr ⟨step :: steps, s', htrace.step hstep, rfl⟩
      · exact .inl ⟨steps, s, r, htrace, hr⟩

/-- A scan that may take more steps than any trace has returns what its trace ends with. -/
theorem scan_eq_iff {n : Nat} (hn : ∀ steps s, Trace g t steps s → steps.length < n)
    {r : Except Error Tokenization} :
    scan g t policy n (.initial g) = r ↔
      ∃ steps s, Trace g t steps s ∧ Ends g t policy s r := by
  have hreturns {steps : List Step} {s : State} {r : Except Error Tokenization}
      (htrace : Trace g t steps s) (hr : Ends g t policy s r) :
      scan g t policy n (.initial g) = r := by
    obtain ⟨k, rfl⟩ := Nat.exists_eq_add_of_lt (hn steps s htrace)
    rw [Nat.add_assoc, htrace.scan_eq, scan_of_ends hr]
  constructor
  · intro h
    obtain ⟨steps, s, r', htrace, hr⟩ | ⟨steps, s, htrace, hlength⟩ := exists_trace g t policy n
    · obtain rfl := (hreturns htrace hr).symm.trans h
      exact ⟨steps, s, htrace, hr⟩
    · exact absurd (hn steps s htrace) (by omega)
  · rintro ⟨steps, s, htrace, hr⟩
    exact hreturns htrace hr

end Tinct.Scan
