/-!
# Steps that may fail

What the result of several steps in a row says of each step, where any of them may fail:

* `bind_eq_ok`, `bind_eq_error`: of two steps in a row;
* `mapM_cons_eq_ok`, `mapM_append_eq_ok`, `length_of_mapM`, `map_eq_of_mapM`,
  `exists_of_mapM_eq_error`, `mapM_getElem?`, `forM_eq_ok`: of a step for each entry of a list;
* `foldlM_preserves`: of steps that each go on from the last;
* `mapM_map_eq`, `foldlM_map_eq`: of steps that each give an image of what other steps give;
* `eq_ok_of_toOption_eq_some`, `exists_ok`: of a result that is known as an option only.
-/

namespace Tinct
variable {ε ε' α β γ δ : Type}

theorem bind_eq_ok {x : Except ε α} {f : α → Except ε β} {b : β} :
    (x >>= f) = .ok b ↔ ∃ a, x = .ok a ∧ f a = .ok b := by
  cases x with
  | error e => exact ⟨nofun, fun ⟨_, h, _⟩ => by cases h⟩
  | ok a => exact ⟨fun h => ⟨a, rfl, h⟩, fun ⟨_, h, hf⟩ => by cases h; exact hf⟩

theorem bind_eq_error {x : Except ε α} {f : α → Except ε β} {e : ε} :
    (x >>= f) = .error e ↔ x = .error e ∨ ∃ a, x = .ok a ∧ f a = .error e := by
  cases x with
  | error e' =>
    refine ⟨fun h => by cases h; exact .inl rfl, ?_⟩
    rintro (h | ⟨a, ha, -⟩)
    · cases h
      rfl
    · cases ha
  | ok a =>
    refine ⟨fun h => .inr ⟨a, rfl, h⟩, ?_⟩
    rintro (h | ⟨a', ha, hf⟩)
    · cases h
    · cases ha
      exact hf

theorem map_eq_ok {x : Except ε α} {f : α → β} {b : β} :
    x.map f = .ok b ↔ ∃ a, x = .ok a ∧ f a = b := by
  cases x with
  | error e => exact ⟨nofun, fun ⟨_, h, _⟩ => by cases h⟩
  | ok a =>
    exact ⟨fun h => by cases h; exact ⟨a, rfl, rfl⟩,
      fun ⟨_, h, hf⟩ => by cases h; rw [← hf]; rfl⟩

theorem mapError_eq_ok {x : Except ε α} {f : ε → ε'} {a : α} :
    x.mapError f = .ok a ↔ x = .ok a := by
  cases x with
  | error e => exact ⟨nofun, nofun⟩
  | ok a' => exact ⟨fun h => by cases h; rfl, fun h => by cases h; rfl⟩

theorem eq_ok_of_toOption_eq_some {x : Except ε α} {a : α} (h : x.toOption = some a) :
    x = .ok a := by
  cases x with
  | error e => cases h
  | ok a' => cases h; rfl

theorem exists_ok {x : Except ε α} {f : α → β} {b : β} (h : x.toOption.map f = some b) :
    ∃ a, x = .ok a ∧ f a = b := by
  obtain ⟨a, ha, rfl⟩ := Option.map_eq_some_iff.mp h
  exact ⟨a, eq_ok_of_toOption_eq_some ha, rfl⟩

theorem mapM_cons_eq_ok {f : α → Except ε β} {a : α} {as : List α} {bs : List β} :
    (a :: as).mapM f = .ok bs ↔ ∃ b bs', f a = .ok b ∧ as.mapM f = .ok bs' ∧ b :: bs' = bs := by
  rw [List.mapM_cons]
  constructor
  · intro h
    obtain ⟨b, ha, h⟩ := bind_eq_ok.mp h
    obtain ⟨bs', has, h⟩ := bind_eq_ok.mp h
    exact ⟨b, bs', ha, has, Except.ok.inj h⟩
  · rintro ⟨b, bs', ha, has, rfl⟩
    exact bind_eq_ok.mpr ⟨b, ha, bind_eq_ok.mpr ⟨bs', has, rfl⟩⟩

theorem mapM_append_eq_ok {f : α → Except ε β} {as as' : List α} {bs : List β} :
    (as ++ as').mapM f = .ok bs ↔
      ∃ cs cs', as.mapM f = .ok cs ∧ as'.mapM f = .ok cs' ∧ cs ++ cs' = bs := by
  rw [List.mapM_append]
  constructor
  · intro h
    obtain ⟨cs, has, h⟩ := bind_eq_ok.mp h
    obtain ⟨cs', has', h⟩ := bind_eq_ok.mp h
    exact ⟨cs, cs', has, has', Except.ok.inj h⟩
  · rintro ⟨cs, cs', has, has', rfl⟩
    exact bind_eq_ok.mpr ⟨cs, has, bind_eq_ok.mpr ⟨cs', has', rfl⟩⟩

theorem length_of_mapM {f : α → Except ε β} {as : List α} {bs : List β}
    (h : as.mapM f = .ok bs) : bs.length = as.length := by
  induction as generalizing bs with
  | nil => cases h; rfl
  | cons a as ih =>
    obtain ⟨b, bs, -, has, rfl⟩ := mapM_cons_eq_ok.mp h
    rw [List.length_cons, List.length_cons, ih has]

/-- What each step gives shows what it was given, and so does all that they give. -/
theorem map_eq_of_mapM {f : α → Except ε β} {g : β → γ} {k : α → γ} {as : List α} {bs : List β}
    (hstep : ∀ a ∈ as, ∀ b, f a = .ok b → g b = k a) (h : as.mapM f = .ok bs) :
    bs.map g = as.map k := by
  induction as generalizing bs with
  | nil => cases h; rfl
  | cons a as ih =>
    obtain ⟨b, bs, ha, has, rfl⟩ := mapM_cons_eq_ok.mp h
    obtain ⟨hfirst, hrest⟩ := List.forall_mem_cons.mp hstep
    rw [List.map_cons, List.map_cons, hfirst b ha, ih hrest has]

/-- Some entry is to blame for a failure. -/
theorem exists_of_mapM_eq_error {f : α → Except ε β} {as : List α} {e : ε}
    (h : as.mapM f = .error e) : ∃ a ∈ as, f a = .error e := by
  induction as with
  | nil => cases h
  | cons a as ih =>
    rw [List.mapM_cons] at h
    obtain ha | ⟨b, -, h⟩ := bind_eq_error.mp h
    · exact ⟨a, List.mem_cons_self .., ha⟩
    · obtain has | ⟨bs, -, h⟩ := bind_eq_error.mp h
      · obtain ⟨a', ha', he⟩ := ih has
        exact ⟨a', List.mem_cons_of_mem _ ha', he⟩
      · cases h

/-- What has come of an entry is found at the place of the entry. -/
theorem mapM_getElem? {f : α → Except ε β} {as : List α} {bs : List β}
    (h : as.mapM f = .ok bs) {i : Nat} {b : β} (hb : bs[i]? = some b) :
    ∃ a, as[i]? = some a ∧ f a = .ok b := by
  induction as generalizing bs i with
  | nil => cases h; cases hb
  | cons a as ih =>
    obtain ⟨b', bs, ha, has, rfl⟩ := mapM_cons_eq_ok.mp h
    cases i with
    | zero => cases hb; exact ⟨a, rfl, ha⟩
    | succ i => exact ih has hb

theorem forM_eq_ok {f : α → Except ε Unit} {as : List α} (h : as.forM f = .ok ()) {a : α}
    (ha : a ∈ as) : f a = .ok () := by
  induction as with
  | nil => cases ha
  | cons b as ih =>
    obtain ⟨_, hb, has⟩ := bind_eq_ok.mp h
    cases ha with
    | head => exact hb
    | tail _ ha => exact ih has ha

/-- What each step preserves, all of them do. -/
theorem foldlM_preserves {f : β → α → Except ε β} {P : β → Prop}
    (hstep : ∀ b a b', P b → f b a = .ok b' → P b') {as : List α} {b b' : β}
    (hb : P b) (h : as.foldlM f b = .ok b') : P b' := by
  induction as generalizing b with
  | nil => cases h; exact hb
  | cons a as ih =>
    rw [List.foldlM_cons] at h
    obtain ⟨b₁, hfirst, hrest⟩ := bind_eq_ok.mp h
    exact ih (hstep b a b₁ hb hfirst) hrest

theorem map_mapError (x : Except ε α) (φ : α → β) (f : ε → ε') :
    (x.map φ).mapError f = (x.mapError f).map φ := by
  cases x <;> rfl

/-- Where each step gives the image of what another one gives, so do all of them. -/
theorem mapM_map_eq {f : β → Except ε γ} {f' : α → Except ε δ} {φ : α → β} {ψ : δ → γ}
    (h : ∀ a, f (φ a) = (f' a).map ψ) (as : List α) :
    (as.map φ).mapM f = (as.mapM f').map (List.map ψ) := by
  induction as with
  | nil => rfl
  | cons a as ih =>
    rw [List.map_cons, List.mapM_cons, List.mapM_cons, h, ih]
    cases f' a with
    | error e => rfl
    | ok c => cases as.mapM f' <;> rfl

theorem foldlM_map_eq {f : β → γ → Except ε β} {f' : α → γ → Except ε α} {φ : α → β}
    (h : ∀ a c, f (φ a) c = (f' a c).map φ) (cs : List γ) (a : α) :
    cs.foldlM f (φ a) = (cs.foldlM f' a).map φ := by
  induction cs generalizing a with
  | nil => rfl
  | cons c cs ih =>
    rw [List.foldlM_cons, List.foldlM_cons, h]
    cases f' a c with
    | error e => rfl
    | ok a' => exact ih a'

end Tinct
