import Tinct.CommandLine.Run
import Tinct.Proofs.Grammar.Arena

/-!
# Names in a registry

A registry is asked for a grammar by any name that the grammar goes by, and answers with the first
that does. That nothing hides behind the first is kept by every call that adds a grammar:

* `Registry.Distinct`: no name belongs to two grammars, so that the answer is the one grammar that
  goes by the name (`Registry.get?_eq_some_iff`);
* `Registry.register_eq_ok_iff`, `Registry.register_eq_error_iff`: when a grammar is added and what
  the registry is then, and which name a refusal blames;
* `Registry.after_distinct`, `Registry.afterAll_distinct`: what one call preserves, and from it
  what any number of calls do, failed ones among them;
* `Registry.get?_afterAll`: what is found stays found;
* `Registry.bundled_distinct`, `Command.registry_distinct`: the registries that a program works
  with.
-/

namespace Tinct

/-- Names are the same if they are so letter by letter. -/
theorem sameName_iff {a b : String} :
    sameName a b = true ↔ a.toList.map Char.toLower = b.toList.map Char.toLower := by
  rw [sameName, beq_iff_eq, ← String.toList_inj]
  show (a.map Char.toLower).toList = (b.map Char.toLower).toList ↔ _
  rw [String.toList_map, String.toList_map]

namespace Grammar

theorem hasKey_iff {g : Grammar} {key : String} :
    g.hasKey key = true ↔ ∃ k ∈ g.keys, k.toLower = key.toLower := by
  rw [hasKey, List.any_eq_true]
  refine exists_congr fun k => and_congr_right fun _ => ?_
  rw [sameName, beq_iff_eq, eq_comm]

/-- Upper and lower case are the same in what a grammar goes by. -/
theorem hasKey_congr {k key : String} (h : k.toLower = key.toLower) (g : Grammar) :
    g.hasKey k = g.hasKey key := by
  have hsame : sameName k = sameName key := funext fun name => by rw [sameName, h, sameName]
  rw [hasKey, hsame, hasKey]

/-- No name belongs to both grammars. -/
def Apart (g h : Grammar) : Prop := ∀ key, ¬(g.hasKey key = true ∧ h.hasKey key = true)

end Grammar

namespace Registry
variable {r r' : Registry} {g g' : Grammar} {key : String}

/-! ## One owner for each name -/

/-- No name belongs to two grammars of the registry. -/
def Distinct (r : Registry) : Prop := r.grammars.Pairwise Grammar.Apart

theorem distinct_empty : Distinct {} := List.Pairwise.nil

/-- Where a name is found twice it is found at one place. -/
theorem Distinct.index_eq (hr : r.Distinct) {i j : Nat} (hi : r.grammars[i]? = some g)
    (hj : r.grammars[j]? = some g') (hg : g.hasKey key = true) (hg' : g'.hasKey key = true) :
    i = j := by
  obtain ⟨hilt, rfl⟩ := List.getElem?_eq_some_iff.mp hi
  obtain ⟨hjlt, rfl⟩ := List.getElem?_eq_some_iff.mp hj
  have hpair := List.pairwise_iff_getElem.mp hr
  rcases Nat.lt_trichotomy i j with hlt | heq | hgt
  · exact absurd ⟨hg, hg'⟩ (hpair i j hilt hjlt hlt key)
  · exact heq
  · exact absurd ⟨hg', hg⟩ (hpair j i hjlt hilt hgt key)

theorem get?_eq_none_iff : r.get? key = none ↔ ∀ g ∈ r.grammars, g.hasKey key = false := by
  simp [get?]

theorem mem_of_get?_eq_some (h : r.get? key = some g) : g ∈ r.grammars ∧ g.hasKey key = true :=
  ⟨List.mem_of_find?_eq_some h, List.find?_some (p := fun g : Grammar => g.hasKey key) h⟩

/-- The grammar that is found is the only one to be found. -/
theorem get?_eq_some_iff (hr : r.Distinct) :
    r.get? key = some g ↔ g ∈ r.grammars ∧ g.hasKey key = true := by
  refine ⟨mem_of_get?_eq_some, fun ⟨hmem, hkey⟩ => ?_⟩
  have hsome : (r.get? key).isSome := List.find?_isSome.mpr ⟨g, hmem, hkey⟩
  obtain ⟨owner, howner⟩ := Option.isSome_iff_exists.mp hsome
  obtain ⟨hmem', hkey'⟩ := mem_of_get?_eq_some howner
  obtain ⟨i, hi⟩ := List.getElem?_of_mem hmem
  obtain ⟨j, hj⟩ := List.getElem?_of_mem hmem'
  have hij : i = j := hr.index_eq hi hj hkey hkey'
  rw [hij, hj, Option.some.injEq] at hi
  rw [howner, hi]

/-- Names that are equal but for case are answered alike. -/
theorem get?_congr {k : String} (h : k.toLower = key.toLower) (r : Registry) :
    r.get? k = r.get? key := by
  have hsame : (fun g : Grammar => g.hasKey k) = fun g => g.hasKey key :=
    funext fun g => g.hasKey_congr h
  rw [get?, get?, hsame]

/-- Where no name in a grammar's list is found, none that it goes by is. -/
theorem get?_eq_none_of_hasKey (hfree : ∀ k ∈ g.keys, r.get? k = none)
    (hkey : g.hasKey key = true) : r.get? key = none := by
  obtain ⟨k, hk, hlower⟩ := Grammar.hasKey_iff.mp hkey
  rw [← get?_congr hlower r]
  exact hfree k hk

/-! ## Adding a grammar -/

/-- The first of a newcomer's names that is taken. -/
theorem clash_eq_some_iff {name : String} :
    (g.keys.findSome? fun key => (r.get? key).map fun owner => (key, owner.name)) =
      some (key, name) ↔
      ∃ before after owner, g.keys = before ++ key :: after ∧
        (∀ k ∈ before, r.get? k = none) ∧ r.get? key = some owner ∧ owner.name = name := by
  simp only [List.findSome?_eq_some_iff, Option.map_eq_some_iff, Option.map_eq_none_iff,
    Prod.mk.injEq]
  constructor
  · rintro ⟨before, k, after, hkeys, ⟨owner, howner, rfl, hname⟩, hbefore⟩
    exact ⟨before, after, owner, hkeys, hbefore, howner, hname⟩
  · rintro ⟨before, after, owner, hkeys, hbefore, howner, hname⟩
    exact ⟨before, key, after, hkeys, ⟨owner, howner, rfl, hname⟩, hbefore⟩

/-- A grammar is added at the end if none of its names is taken. -/
theorem register_eq_ok_iff :
    r.register g = .ok r' ↔ (∀ key ∈ g.keys, r.get? key = none) ∧ r' = ⟨r.grammars ++ [g]⟩ := by
  have hfree :
      (g.keys.findSome? fun key => (r.get? key).map fun owner => (key, owner.name)) = none ↔
      ∀ key ∈ g.keys, r.get? key = none := by
    simp only [List.findSome?_eq_none_iff, Option.map_eq_none_iff]
  rw [← hfree, register]
  split
  next hclash => simp [hclash]
  next hclash => simp [hclash, eq_comm]

/-- Into an empty registry any grammar goes. -/
theorem register_empty (g : Grammar) : register g {} = .ok ⟨[g]⟩ :=
  register_eq_ok_iff.mpr ⟨fun _ _ => rfl, rfl⟩

/-- A refusal names the first of the newcomer's names that is taken, and who has it. -/
theorem register_eq_error_iff {e : Error} :
    r.register g = .error e ↔ ∃ before key after owner, g.keys = before ++ key :: after ∧
      (∀ k ∈ before, r.get? k = none) ∧ r.get? key = some owner ∧
      e = .malformed g.name (.taken key owner.name) := by
  constructor
  · intro h
    rw [register] at h
    split at h
    next key name hclash =>
      obtain ⟨before, after, owner, hkeys, hbefore, howner, rfl⟩ := clash_eq_some_iff.mp hclash
      cases h
      exact ⟨before, key, after, owner, hkeys, hbefore, howner, rfl⟩
    next => cases h
  · rintro ⟨before, key, after, owner, hkeys, hbefore, howner, rfl⟩
    rw [register, clash_eq_some_iff.mpr ⟨before, after, owner, hkeys, hbefore, howner, rfl⟩]

/-- A grammar is refused exactly if one of its names is taken. -/
theorem register_fails_iff :
    (∃ e, r.register g = .error e) ↔ ∃ key ∈ g.keys, ∃ owner, r.get? key = some owner := by
  constructor
  · rintro ⟨e, h⟩
    obtain ⟨before, key, after, owner, hkeys, -, howner, -⟩ := register_eq_error_iff.mp h
    exact ⟨key, by simp [hkeys], owner, howner⟩
  · rintro ⟨key, hkey, owner, howner⟩
    cases h : r.register g with
    | error e => exact ⟨e, rfl⟩
    | ok r' =>
      have hfree := (register_eq_ok_iff.mp h).1 key hkey
      rw [hfree] at howner
      cases howner

theorem get?_append (r : Registry) (g : Grammar) (key : String) :
    get? ⟨r.grammars ++ [g]⟩ key = (r.get? key).or (if g.hasKey key then some g else none) := by
  rw [get?, List.find?_append, get?]
  congr 1
  by_cases h : g.hasKey key <;> simp [h]

/-- What was found before is still found. -/
theorem get?_of_register (h : r.register g = .ok r') {owner : Grammar}
    (howner : r.get? key = some owner) : r'.get? key = some owner := by
  obtain ⟨-, rfl⟩ := register_eq_ok_iff.mp h
  rw [get?_append, howner, Option.some_or]

/-- A newcomer is found by all that it goes by. -/
theorem get?_newcomer (h : r.register g = .ok r') (hkey : g.hasKey key = true) :
    r'.get? key = some g := by
  obtain ⟨hfree, rfl⟩ := register_eq_ok_iff.mp h
  rw [get?_append, get?_eq_none_of_hasKey hfree hkey, Option.none_or, if_pos hkey]

theorem register_distinct (hr : r.Distinct) (h : r.register g = .ok r') : r'.Distinct := by
  obtain ⟨hfree, rfl⟩ := register_eq_ok_iff.mp h
  refine List.pairwise_append.mpr ⟨hr, List.pairwise_singleton _ _, ?_⟩
  intro old hold g' hg' key ⟨hkeyOld, hkey⟩
  rw [List.mem_singleton] at hg'
  subst hg'
  have hnone := get?_eq_none_iff.mp (get?_eq_none_of_hasKey hfree hkey) old hold
  rw [hnone] at hkeyOld
  cases hkeyOld

/-! ## Calls -/

/-- A call that adds a grammar to a registry. -/
inductive Call where
  | register (g : Grammar)
  | loadFile (path : String) (content : Option String)

namespace Call

/-- The grammar that is to be added. -/
def newcomer : Call → Except Error Grammar
  | register g => .ok g
  | loadFile path content => Grammar.loadFile path content

def run (r : Registry) : Call → Except Error Registry
  | register g => r.register g
  | loadFile path content => r.loadFile path content

theorem run_eq (r : Registry) (c : Call) : c.run r = c.newcomer >>= (Registry.register · r) := by
  cases c with
  | register g => rfl
  | loadFile path content => rfl

variable {c : Call}

theorem run_eq_ok_iff : c.run r = .ok r' ↔ ∃ g, c.newcomer = .ok g ∧ r.register g = .ok r' := by
  rw [run_eq, bind_eq_ok]

/-- A call fails if its grammar cannot be loaded, or if one of the grammar's names is taken. -/
theorem run_fails_iff : (∃ e, c.run r = .error e) ↔ (∃ e, c.newcomer = .error e) ∨
    ∃ g, c.newcomer = .ok g ∧ ∃ key ∈ g.keys, ∃ owner, r.get? key = some owner := by
  simp only [run_eq, bind_eq_error, exists_or]
  refine or_congr_right ⟨?_, ?_⟩
  · rintro ⟨e, g, hnew, hregister⟩
    exact ⟨g, hnew, register_fails_iff.mp ⟨e, hregister⟩⟩
  · rintro ⟨g, hnew, htaken⟩
    obtain ⟨e, hregister⟩ := register_fails_iff.mpr htaken
    exact ⟨e, g, hnew, hregister⟩

theorem run_distinct (hr : r.Distinct) (h : c.run r = .ok r') : r'.Distinct := by
  obtain ⟨g, -, hregister⟩ := run_eq_ok_iff.mp h
  exact register_distinct hr hregister

end Call

/-- The registry behind a call, which is the one before it if the call fails. -/
def after (r : Registry) (c : Call) : Registry :=
  match c.run r with
  | .ok r' => r'
  | .error _ => r

/-- The registry behind calls that come one after another, whether they fail or not. -/
def afterAll (r : Registry) (cs : List Call) : Registry := cs.foldl after r

theorem after_distinct (hr : r.Distinct) (c : Call) : (r.after c).Distinct := by
  rw [after]
  split
  next hrun => exact Call.run_distinct hr hrun
  next => exact hr

theorem afterAll_distinct (hr : r.Distinct) (cs : List Call) : (r.afterAll cs).Distinct := by
  induction cs generalizing r with
  | nil => exact hr
  | cons c cs ih => exact ih (after_distinct hr c)

/-- What is found stays found, whatever is added or refused later. -/
theorem get?_afterAll (howner : r.get? key = some g) (cs : List Call) :
    (r.afterAll cs).get? key = some g := by
  induction cs generalizing r with
  | nil => exact howner
  | cons c cs ih =>
    refine ih ?_
    rw [after]
    split
    next hrun =>
      obtain ⟨g', -, hregister⟩ := Call.run_eq_ok_iff.mp hrun
      exact get?_of_register hregister howner
    next => exact howner

/-! ## The registries of a program -/

theorem bundled_distinct (h : bundled = .ok r) : r.Distinct := by
  rw [bundled] at h
  refine foldlM_preserves ?_ distinct_empty h
  intro r d r' hr hstep
  obtain ⟨g, -, hregister⟩ := bind_eq_ok.mp hstep
  exact register_distinct hr hregister

end Registry

/-- On the command line no language name belongs to two grammars. -/
theorem Command.registry_distinct {content? : String → Option String} {paths : List String}
    {r : Registry} (h : Command.registry content? paths = .ok r) : r.Distinct := by
  rw [Command.registry, mapError_eq_ok, bind_eq_ok] at h
  obtain ⟨start, hstart, hloads⟩ := h
  refine foldlM_preserves ?_ (Registry.bundled_distinct hstart) hloads
  intro r path r' hr hload
  exact Registry.Call.run_distinct (c := .loadFile path (content? path)) hr hload

namespace Registry

/-- A registry that begins empty or with the bundled grammars and is then called to add grammars,
however often and whether or not the calls fail, answers a name with the only grammar that goes by
it. The next call puts its grammar behind the others, where it is found by all of its names, and
what was found is found as before; or it fails, for a grammar that cannot be loaded or a name
that is taken, and nothing changes. -/
theorem afterAll_resolves {start : Registry} (hstart : start = {} ∨ bundled = .ok start)
    (cs : List Call) :
    let r := start.afterAll cs
    (∀ (i j : Nat) (g g' : Grammar) key, r.grammars[i]? = some g → r.grammars[j]? = some g' →
      g.hasKey key = true → g'.hasKey key = true → i = j) ∧
    (∀ key g, r.get? key = some g ↔ g ∈ r.grammars ∧ g.hasKey key = true) ∧
    (∀ key, r.get? key = none ↔ ∀ g ∈ r.grammars, g.hasKey key = false) ∧
    (∀ (c : Call) r', c.run r = .ok r' → r.after c = r' ∧ ∃ g, c.newcomer = .ok g ∧
      r'.grammars = r.grammars ++ [g] ∧
      (∀ k ∈ g.keys, ∀ key, sameName key k = true → r'.get? key = some g) ∧
      ∀ key owner, r.get? key = some owner → r'.get? key = some owner) ∧
    (∀ (c : Call) e, c.run r = .error e → r.after c = r) ∧
    (∀ c : Call, (∃ e, c.run r = .error e) ↔ (∃ e, c.newcomer = .error e) ∨
      ∃ g, c.newcomer = .ok g ∧ ∃ key ∈ g.keys, ∃ owner, r.get? key = some owner) ∧
    ∀ g : Grammar, (∃ e, r.register g = .error e) ↔
      ∃ key ∈ g.keys, ∃ owner, r.get? key = some owner := by
  intro r
  have hr : r.Distinct := by
    refine afterAll_distinct ?_ cs
    rcases hstart with rfl | hbundled
    · exact distinct_empty
    · exact bundled_distinct hbundled
  refine ⟨fun i j g g' key => hr.index_eq, fun key g => get?_eq_some_iff hr,
    fun key => get?_eq_none_iff, ?_, ?_, fun c => Call.run_fails_iff, fun g => register_fails_iff⟩
  · intro c r' hrun
    obtain ⟨g, hnew, hregister⟩ := Call.run_eq_ok_iff.mp hrun
    have happend : r' = ⟨r.grammars ++ [g]⟩ := (register_eq_ok_iff.mp hregister).2
    refine ⟨by rw [after, hrun], g, hnew, by rw [happend], ?_, fun key owner =>
      get?_of_register hregister⟩
    intro k hk key hsame
    exact get?_newcomer hregister (List.any_eq_true.mpr ⟨k, hk, hsame⟩)
  · intro c e hrun
    rw [after, hrun]

/-- A grammar is found in capitals, and keeps another from taking its name as an alias. -/
theorem afterAll_resolves_parentheses :
    (afterAll {} [.register parentheses]).get? "PARENTHESES" = some parentheses ∧
      ∃ e, register { parentheses with name := "brackets", aliases := ["Parentheses"] }
        (afterAll {} [.register parentheses]) = .error e := by
  -- The names are compared by letters: `String.map` is slow to evaluate.
  have hcapitals : sameName "PARENTHESES" parentheses.name = true := by
    rw [sameName_iff]
    decide +kernel
  have halias : sameName "Parentheses" parentheses.name = true := by
    rw [sameName_iff]
    decide +kernel
  generalize parentheses = g at hcapitals halias ⊢
  have hstart : ({} : Registry) = {} ∨ bundled = .ok {} := .inl rfl
  obtain ⟨-, -, -, hadds, -⟩ := afterAll_resolves hstart []
  obtain ⟨-, -, -, -, -, -, hfails⟩ := afterAll_resolves hstart [.register g]
  obtain ⟨hafter, g', hnew, -, hfound, -⟩ := hadds (.register g) ⟨[g]⟩ (register_empty g)
  cases hnew
  have hname : g.name ∈ g.keys := List.mem_cons_self ..
  have hr : afterAll {} [.register g] = ⟨[g]⟩ := hafter
  rw [hr] at hfails ⊢
  exact ⟨hfound g.name hname "PARENTHESES" hcapitals, (hfails _).mpr
    ⟨"Parentheses", by simp [Grammar.keys], g, hfound g.name hname "Parentheses" halias⟩⟩

end Registry
end Tinct
