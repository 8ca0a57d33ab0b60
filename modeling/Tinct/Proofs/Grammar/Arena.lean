import Tinct.Proofs.Grammar.Faults
import Tinct.Proofs.Grammar.Layout

/-!
# Compiled grammars

A grammar that has been compiled has one mode for each site of its definition, at a place of its own
that the mode knows:

* `compileMode_yields`, `placeOf_resolves`, `compileModes_yields`: what is compiled gets its places,
  and all under each key that it comes upon first;
* `Grammar.Arranged`: the modes of a grammar stand at the places of the sites of a definition;
* `Grammar.compile_numbered`: every mode carries the number of its place;
* `Grammar.compile_arranges`: the compiler comes to an end, and what it gives is arranged.
-/

namespace Tinct
variable {d : GrammarDef} {b b' : Build} {sites sites' : List Site}

/-! ## Compiling modes -/

section
variable {n : Nat} {resolve : String → Compiling Nat}

/-- Where no more than `n` keys are without a place, the place of a key is its own. -/
def Resolves (d : GrammarDef) (n : Nat) (resolve : String → Compiling Nat) : Prop :=
  ∀ name b sites, Layout d b sites → d.unplaced b ≤ n →
    Yields d (resolve name) b fun id b' => ∃ sites', Grows d [] b b' sites sites' ∧
      sites'[id]? = some (.named name)

theorem listAt?_inner {site : Site} {front es : List (ModeEntry ModeDef)} {m : ModeDef}
    (h : d.listAt? site = some (front ++ .inline m :: es)) :
    d.listAt? (site.inner front.length) = some m.contains := by
  simp [GrammarDef.listAt?, h]

mutual

theorem compileMode_yields (hresolve : Resolves d n resolve) {site : Site} (hroot : site ≠ .root)
    {id : Nat} : ∀ (m : ModeDef) {b : Build} {sites : List Site}, Layout d b sites →
    d.unplaced b ≤ n → sites[id]? = some site → d.listAt? site = some m.contains →
    Yields d (d.compileMode resolve id site.key? m) b fun _ b' => ∃ sites',
      Grows d (sitesFrom site 0 m.contains) b b' sites sites' ∧ ¬ b'.IsOpen id
  | ⟨_, _, _, _, _, _, _, _, contains, _, _, _, _, _, _, _, _, _⟩,
      b, sites, hb, hn, hid, hlist => by
    unfold GrammarDef.compileMode
    refine Yields.bind_lift (d.variants_blames _ _) fun variants hvariants => ?_
    refine Yields.bind_lift (d.ownKeywords_blames _) fun keywords _ => ?_
    have hparent : ∀ j ∈ some id, site ≠ .root ∧ j = id := by
      rintro j ⟨⟩
      exact ⟨hroot, rfl⟩
    refine Yields.bind (compileEntries_yields hresolve hparent [] contains hb hn hlist) ?_
    rintro ids b₁ ⟨sites₁, hgrows, hnames⟩
    refine Yields.bind_mapM_lift (fun p => d.matcher_blames p) _ fun illegal => ?_
    have hid₁ := getElem?_of_prefix hgrows.prefix_sites hid
    have hvariants : variants = [] ↔ site = .root :=
      ⟨fun h => absurd h (d.variants_ne_nil hvariants), fun h => absurd h hroot⟩
    exact Yields.fill ⟨sites₁, hgrows.fill hid₁ ⟨rfl, rfl, hvariants, contains, hlist, hnames⟩⟩

theorem compileEntries_yields (hresolve : Resolves d n resolve) {site : Site} {i : Nat}
    {parent : Option Nat} (hparent : ∀ j ∈ parent, site ≠ .root ∧ j = i) :
    ∀ (front es : List (ModeEntry ModeDef)) {b : Build} {sites : List Site}, Layout d b sites →
    d.unplaced b ≤ n → d.listAt? site = some (front ++ es) →
    Yields d (d.compileEntries resolve parent es) b fun ids b' => ∃ sites',
      Grows d (sitesFrom site front.length es) b b' sites sites' ∧
        NamesFrom sites' i site front.length es ids
  | front, [], b, sites, hb, hn, hlist => by
    unfold GrammarDef.compileEntries
    rw [sitesFrom]
    exact Yields.pure ⟨sites, .refl hb, .nil⟩
  | front, e :: es, b, sites, hb, hn, hlist => by
    unfold GrammarDef.compileEntries
    rw [sitesFrom]
    refine Yields.bind (compileEntry_yields hresolve hparent e hb hn hlist) ?_
    rintro id b₁ ⟨sites₁, hgrows, hnames⟩
    have hn₁ := Nat.le_trans (hgrows.unplaced_le hb) hn
    have hlist₁ : d.listAt? site = some ((front ++ [e]) ++ es) := by simpa using hlist
    refine Yields.bind (compileEntries_yields hresolve hparent (front ++ [e]) es hgrows.layout hn₁
      hlist₁) ?_
    rintro ids b₂ ⟨sites₂, hgrows', hnames'⟩
    rw [List.length_append] at hgrows' hnames'
    refine Yields.pure ⟨sites₂, hgrows.trans hgrows', ?_⟩
    exact .cons (hnames.mono hgrows'.prefix_sites) hnames'

theorem compileEntry_yields (hresolve : Resolves d n resolve) {site : Site} {i : Nat}
    {parent : Option Nat} (hparent : ∀ j ∈ parent, site ≠ .root ∧ j = i)
    {front es : List (ModeEntry ModeDef)} : ∀ (e : ModeEntry ModeDef) {b : Build}
    {sites : List Site}, Layout d b sites → d.unplaced b ≤ n →
    d.listAt? site = some (front ++ e :: es) →
    Yields d (d.compileEntry resolve parent e) b fun id b' => ∃ sites',
      Grows d (sitesOf (site.inner front.length) e) b b' sites sites' ∧
        Names sites' i site front.length e id
  | .ref name, b, sites, hb, hn, hlist => by
    unfold GrammarDef.compileEntry
    rw [sitesOf]
    split
    · rename_i hself
      split
      · rename_i j
        exact Yields.pure ⟨sites, .refl hb, by rw [Names, if_pos hself]; exact hparent j rfl⟩
      · exact Yields.throw trivial
    · rename_i hself
      refine (hresolve name b sites hb hn).mono ?_
      rintro id b' ⟨sites', hgrows, hid⟩
      exact ⟨sites', hgrows, by rw [Names, if_neg hself]; exact hid⟩
  | .inline m, b, sites, hb, hn, hlist => by
    unfold GrammarDef.compileEntry
    rw [sitesOf]
    refine Yields.bind_reserve ?_
    have hpush : Layout d ⟨b.slots.push none, b.named⟩ (sites ++ [site.inner front.length]) :=
      hb.push fun key id => by simp
    have hid := Layout.getElem?_length_append sites (site.inner front.length)
    have hroot : site.inner front.length ≠ .root := nofun
    rw [← hb.length]
    refine Yields.bind (compileMode_yields hresolve hroot m hpush hn hid (listAt?_inner hlist)) ?_
    rintro - b' ⟨sites', hgrows, hclosed⟩
    refine Yields.pure ⟨sites', ?_, getElem?_of_prefix hgrows.prefix_sites hid⟩
    rw [sitesIn_eq]
    exact .of_inline hb rfl hgrows hclosed

end

/-- Entering a key, in a build where it has no place. -/
theorem Layout.push_named (h : Layout d b sites) {name : String}
    (hname : b.named.get? name = none) :
    Layout d ⟨b.slots.push none, b.named.put name sites.length⟩ (sites ++ [.named name]) := by
  refine h.push fun key id => ?_
  rw [Entries.get?_put]
  split
  · rename_i hkey
    rw [hkey, hname]
    simp [eq_comm]
  · rename_i hkey
    simp [Ne.symm hkey]

/-- One key more may be without a place if modes are asked for one step deeper. -/
theorem placeStep_resolves (hresolve : Resolves d n resolve) :
    Resolves d (n + 1) (d.placeStep resolve) := by
  intro name b sites hb hn
  unfold Yields
  rw [GrammarDef.placeStep_run]
  cases hname : b.named.get? name with
  | some id => exact ⟨sites, .refl hb, (hb.named name id).mp hname⟩
  | none =>
    cases hm : d.modes.get? name with
    | none => exact hm
    | some m =>
      have hlt := GrammarDef.unplaced_put_lt hm hname (b.slots.push none) sites.length
      have hlist : d.listAt? (.named name) = some m.contains := by simp [GrammarDef.listAt?, hm]
      have hid := Layout.getElem?_length_append sites (.named name)
      have hmode := compileMode_yields hresolve (show Site.named name ≠ .root from nofun) m
        (hb.push_named hname) (by omega) hid hlist
      have hdone : Yields d (do d.compileMode resolve sites.length (some name) m
                                return sites.length : Compiling Nat)
          ⟨b.slots.push none, b.named.put name sites.length⟩
          fun id b' => ∃ sites', Grows d [] b b' sites sites' ∧
            sites'[id]? = some (.named name) := by
        refine Yields.bind hmode ?_
        rintro - b' ⟨sites', hgrows, hclosed⟩
        have hlistOf : d.listOf name = m.contains := by simp [GrammarDef.listOf, hm]
        rw [← hlistOf] at hgrows
        exact Yields.pure ⟨sites', .of_named hb hgrows hclosed,
          getElem?_of_prefix hgrows.prefix_sites hid⟩
      rw [hb.length] at hdone
      exact hdone

/-- As many steps deep as there are keys without a place, every key is found. -/
theorem placeOf_resolves (d : GrammarDef) (n : Nat) : Resolves d n (d.placeOf n) := by
  induction n with
  | zero =>
    intro name b sites hb hn
    unfold Yields
    rw [GrammarDef.placeOf_zero_run]
    cases hname : b.named.get? name with
    | some id => exact ⟨sites, .refl hb, (hb.named name id).mp hname⟩
    | none =>
      cases hm : d.modes.get? name with
      | none => exact hm
      | some m =>
        have := GrammarDef.unplaced_pos hm hname
        omega
  | succ n ih => exact placeStep_resolves ih

/-- Keys in a row, each of which gets its place. -/
theorem forM_yields (hresolve : Resolves d d.modes.length resolve) (entries : Entries ModeDef)
    (hb : Layout d b sites) :
    Yields d (entries.forM fun (name, _) => do let _ ← resolve name) b fun _ b' => ∃ sites',
      Grows d [] b b' sites sites' ∧ ∀ e ∈ entries, .named e.1 ∈ sites' := by
  induction entries generalizing b sites with
  | nil => exact Yields.pure ⟨sites, .refl hb, nofun⟩
  | cons e entries ih =>
    have hname := hresolve e.1 b sites hb (d.unplaced_le_length b)
    have hstep : Yields d (do let _ ← resolve e.1) b fun _ b' => ∃ sites',
        Grows d [] b b' sites sites' ∧ .named e.1 ∈ sites' := by
      refine Yields.bind hname ?_
      rintro id b' ⟨sites', hgrows, hid⟩
      exact Yields.pure ⟨sites', hgrows, List.mem_of_getElem? hid⟩
    refine Yields.bind hstep ?_
    rintro - b₁ ⟨sites₁, hgrows, hmem⟩
    refine (ih hgrows.layout).mono ?_
    rintro - b₂ ⟨sites₂, hgrows', hmem'⟩
    refine ⟨sites₂, hgrows.trans hgrows', List.forall_mem_cons.mpr ⟨?_, hmem'⟩⟩
    exact hgrows'.prefix_sites.subset hmem

/-! ## All sites -/

/-- Compiles what the root reaches, `resolve` giving the places of modes by name. -/
def GrammarDef.compileRoot (d : GrammarDef) (resolve : String → Compiling Nat) :
    Compiling Unit := do
  let root ← Build.reserve
  let illegal ← d.illegal.mapM fun p => d.matcher p
  let contains ← compileEntries d resolve none d.contains
  Build.fill { Mode.root contains illegal with id := root }

/-- What the root reaches is compiled before all else. -/
theorem GrammarDef.compileModes_eq (d : GrammarDef) :
    d.compileModes = (do
      d.compileRoot (d.placeOf d.modes.length)
      d.modes.forM fun (name, _) => do
        let _ ← d.placeOf d.modes.length name) := by
  simp only [compileModes, compileRoot, bind_assoc]

/-- Keys have one place each. -/
theorem Layout.nodup_keys (h : Layout d b sites) : (sites.filterMap Site.key?).Nodup := by
  refine List.pairwise_filterMap.mpr (List.pairwise_iff_getElem.mpr fun i j hi hj hlt => ?_)
  intro key hkey key' hkey' heq
  subst heq
  have hnamed : ∀ (k : Nat) (hk : k < sites.length), key ∈ sites[k].key? →
      b.named.get? key = some k := by
    intro k hk hmem
    refine (h.named key k).mpr ?_
    rw [List.getElem?_eq_getElem hk]
    cases hsite : sites[k] with
    | named key' => rw [hsite] at hmem; cases hmem; rfl
    | root => rw [hsite] at hmem; cases hmem
    | inner outer index => rw [hsite] at hmem; cases hmem
  have hi' := hnamed i hi hkey
  rw [hnamed j hj hkey'] at hi'
  cases hi'
  omega

theorem mem_filterMap_key? {key : String} {sites : List Site} :
    key ∈ sites.filterMap Site.key? ↔ .named key ∈ sites := by
  rw [List.mem_filterMap]
  constructor
  · rintro ⟨site, hsite, hkey⟩
    cases site <;> cases hkey
    exact hsite
  · exact fun h => ⟨_, h, rfl⟩

/-- A key with a place that is filled is a key of the definition. -/
theorem Layout.mem_modeKeys (h : Layout d b sites) (hclosed : ∀ i, ¬ b.IsOpen i) {key : String}
    (hkey : .named key ∈ sites) : key ∈ d.modeKeys := by
  obtain ⟨i, hi, hsite⟩ := List.getElem_of_mem hkey
  have hslot : i < b.slots.size := h.length ▸ hi
  cases hm : b.slots[i] with
  | none => exact absurd ((Array.getElem?_eq_getElem hslot).trans (congrArg some hm)) (hclosed i)
  | some m =>
    obtain ⟨site, hsite', hfits⟩ := h.fits i m ((Array.getElem?_eq_getElem hslot).trans
      (congrArg some hm))
    rw [List.getElem?_eq_getElem hi, hsite] at hsite'
    cases hsite'
    obtain ⟨es, hes, -⟩ := hfits.contains
    obtain ⟨m', hm', -⟩ := Option.map_eq_some_iff.mp hes
    exact List.mem_dedup.mpr (List.mem_map_of_mem (GrammarDef.mem_of_get? hm'))

/-- When no place is open and every key has one, there is one for each site. -/
theorem perm_sites {new : List Site} (hlayout : Layout d b (.root :: new))
    (hclosed : ∀ i, ¬ b.IsOpen i) (hkeys : ∀ key ∈ d.modeKeys, .named key ∈ Site.root :: new)
    (hnew : new.Perm (sitesFrom .root 0 d.contains ++
      (new.filterMap Site.key?).flatMap d.sitesUnder)) :
    (Site.root :: new).Perm d.sites := by
  have hnone : Site.key? .root = none := rfl
  have hnodup := hlayout.nodup_keys
  rw [List.filterMap_cons_none hnone] at hnodup
  have hperm : (new.filterMap Site.key?).Perm d.modeKeys := by
    refine (List.perm_ext_iff_of_nodup hnodup (List.nodup_dedup _)).mpr fun key => ?_
    rw [mem_filterMap_key?]
    constructor
    · exact fun hkey => hlayout.mem_modeKeys hclosed (List.mem_cons_of_mem _ hkey)
    · exact fun hkey => (List.mem_cons.mp (hkeys key hkey)).resolve_left nofun
  exact (hnew.trans ((hperm.flatMap_right _).append_left _)).cons _

theorem layout_root (d : GrammarDef) : Layout d ⟨#[none], []⟩ [.root] := by
  refine ⟨rfl, rfl, fun key id => ?_, fun i m hm => ?_⟩
  · rw [List.getElem?_singleton]
    split <;> simp
  · rw [List.getElem?_toArray, List.getElem?_singleton] at hm
    split at hm <;> cases hm

/-- Once the root is compiled, all places that have been taken are filled. -/
theorem compileRoot_yields (hresolve : Resolves d d.modes.length resolve) :
    Yields d (d.compileRoot resolve) {} fun _ b => ∃ sites,
      Grows d (sitesFrom .root 0 d.contains) ⟨#[none], []⟩ b [.root] sites ∧
        ∀ i, ¬ b.IsOpen i := by
  have hparent : ∀ j ∈ (none : Option Nat), Site.root ≠ .root ∧ j = 0 := nofun
  have hlist : d.listAt? .root = some ([] ++ d.contains) := rfl
  unfold GrammarDef.compileRoot
  refine Yields.bind_reserve ?_
  refine Yields.bind_mapM_lift (fun p => d.matcher_blames p) _ fun illegal => ?_
  refine Yields.bind (compileEntries_yields hresolve hparent [] d.contains (layout_root d)
    (d.unplaced_le_length _) hlist) ?_
  rintro ids b ⟨sites, hgrows, hnames⟩
  have hfits : Mode.FitsAt d sites 0 .root { Mode.root ids illegal with id := 0 } :=
    ⟨rfl, rfl, ⟨fun _ => rfl, fun _ => rfl⟩, d.contains, rfl, hnames⟩
  obtain ⟨hgrows, hfilled⟩ := hgrows.fill hgrows.layout.root hfits
  refine Yields.fill ⟨sites, hgrows, fun i hi => ?_⟩
  have hzero : (#[none] : Array (Option Mode))[i]? = some none := hgrows.filled i hi
  rw [List.getElem?_toArray, List.getElem?_singleton] at hzero
  split at hzero
  · rename_i heq
    subst heq
    exact hfilled hi
  · cases hzero

/-- A compilation fills all places, and there is one for each site. -/
theorem compileModes_yields (d : GrammarDef) :
    Yields d d.compileModes {} fun _ b => ∃ sites, Layout d b sites ∧ (∀ i, ¬ b.IsOpen i) ∧
      sites.Perm d.sites := by
  have hresolve := placeOf_resolves d d.modes.length
  rw [d.compileModes_eq]
  refine Yields.bind (compileRoot_yields hresolve) ?_
  rintro - b₁ ⟨sites₁, hgrows₁, hclosed₁⟩
  refine (forM_yields hresolve d.modes hgrows₁.layout).mono ?_
  rintro - b₂ ⟨sites₂, hgrows₂, hkeys⟩
  have hclosed : ∀ i, ¬ b₂.IsOpen i := fun i hi => hclosed₁ i (hgrows₂.filled i hi)
  obtain ⟨new, rfl, hnew⟩ := (hgrows₁.trans hgrows₂).grown
  rw [List.append_nil] at hnew
  refine ⟨_, hgrows₂.layout, hclosed, perm_sites hgrows₂.layout hclosed (fun key hkey => ?_) hnew⟩
  obtain ⟨e, he, rfl⟩ := List.mem_map.mp (List.mem_dedup.mp hkey)
  exact hkeys e he

end

/-! ## A small grammar -/

/-- Parentheses that nest. -/
def parenthesesDef : GrammarDef where
  name := "parentheses"
  contains := [.ref "group"]
  modes := [("group",
    { scope := some "group", beginScope := some "open"
      begin := some (.source "\\("), finish := some (.source "\\)"), contains := [.ref "self"] })]

theorem compile_parenthesesDef : (Grammar.compile parenthesesDef).toOption.isSome = true := by
  decide +kernel

/-- The grammar of parentheses that nest. -/
def parentheses : Grammar := (Grammar.compile parenthesesDef).toOption.get compile_parenthesesDef

theorem compile_eq_parentheses : Grammar.compile parenthesesDef = .ok parentheses :=
  eq_ok_of_toOption_eq_some (Option.some_get compile_parenthesesDef).symm

/-! ## Compiled grammars -/

namespace GrammarDef

theorem finishModes_getElem? {slots : Array (Option Mode)} {modes : Array Mode}
    (h : finishModes slots = .ok modes) {i : Nat} {m : Mode} (hm : modes[i]? = some m) :
    slots[i]? = some (some m) := by
  obtain ⟨ms, hmapM, h⟩ := bind_eq_ok.mp h
  cases h
  rw [List.getElem?_toArray] at hm
  obtain ⟨⟨slot, j⟩, hslot, hok⟩ := mapM_getElem? hmapM hm
  rw [List.getElem?_zipIdx] at hslot
  cases slot with
  | none => cases hok
  | some m' =>
    cases hok
    obtain ⟨slot, hi, heq⟩ := Option.map_eq_some_iff.mp hslot
    cases heq
    rwa [Array.getElem?_toList] at hi

theorem finishModes_size {slots : Array (Option Mode)} {modes : Array Mode}
    (h : finishModes slots = .ok modes) : modes.size = slots.size := by
  obtain ⟨ms, hmapM, h⟩ := bind_eq_ok.mp h
  cases h
  rw [List.size_toArray, length_of_mapM hmapM, List.length_zipIdx, Array.length_toList]

/-- A build without open places can be finished. -/
theorem finishModes_eq_ok (h : ∀ i, ¬ b.IsOpen i) :
    ∃ modes, finishModes b.slots = .ok modes := by
  cases hfinish : finishModes b.slots with
  | ok modes => exact ⟨modes, rfl⟩
  | error e =>
    obtain hmapM | ⟨ms, -, heq⟩ := bind_eq_error.mp hfinish
    · obtain ⟨⟨slot, i⟩, hslot, he⟩ := exists_of_mapM_eq_error hmapM
      have hi := List.mem_zipIdx_iff_getElem?.mp hslot
      rw [Array.getElem?_toList] at hi
      cases slot with
      | some m => cases he
      | none => exact absurd hi (h i)
    · cases heq

end GrammarDef

namespace Grammar

/-- What a grammar is compiled from: its modes are those of a finished build. -/
theorem exists_build_of_compile {g : Grammar} (h : compile d = .ok g) :
    ∃ u b, d.compileModes.run {} = .ok (u, b) ∧ GrammarDef.finishModes b.slots = .ok g.modes ∧
      g.name = d.name ∧
      (match d.keywords with
        | some k => d.keywordTable k
        | none => .ok { ignoreCase := d.caseInsensitive }) = .ok g.keywords := by
  unfold compile at h
  split at h
  · cases h
  obtain ⟨⟨u, b⟩, hrun, h⟩ := bind_eq_ok.mp (mapError_eq_ok.mp h)
  refine ⟨u, b, hrun, ?_⟩
  have hrest {table : Except GrammarFault KeywordTable} (h : (do
      let keywords ← table
      let modes ← GrammarDef.finishModes b.slots
      return (⟨d.name, d.aliases, d.caseInsensitive, modes, keywords⟩ : Grammar)) = .ok g) :
      GrammarDef.finishModes b.slots = .ok g.modes ∧ g.name = d.name ∧ table = .ok g.keywords := by
    obtain ⟨keywords, htable, h⟩ := bind_eq_ok.mp h
    obtain ⟨modes, hmodes, h⟩ := bind_eq_ok.mp h
    cases h
    exact ⟨hmodes, rfl, htable⟩
  cases hkeywords : d.keywords with
  | none =>
    rw [hkeywords] at h
    exact hrest h
  | some k =>
    rw [hkeywords] at h
    exact hrest h

/-- A definition that is rejected is to blame. -/
theorem blames_of_compile {name : String} {fault : GrammarFault}
    (h : compile d = .error (.malformed name fault)) : d.Blames fault := by
  unfold compile at h
  split at h
  · cases h
    exact trivial
  refine OnlyBlames.mapError ?_ h
  have hmodes := compileModes_yields d
  cases hrun : d.compileModes.run {} with
  | error e => exact .error (hmodes.error hrun)
  | ok p =>
    obtain ⟨u, b⟩ := p
    obtain ⟨sites, -, hclosed, -⟩ := hmodes.ok hrun
    obtain ⟨modes, hfinish⟩ := GrammarDef.finishModes_eq_ok hclosed
    have hdone : ∀ keywords : KeywordTable, OnlyBlames d (do
        let modes ← GrammarDef.finishModes b.slots
        return (⟨d.name, d.aliases, d.caseInsensitive, modes, keywords⟩ : Grammar)) := by
      intro keywords
      rw [hfinish]
      exact .ok _
    cases hkeywords : d.keywords with
    | some k =>
      show OnlyBlames d (d.keywordTable k >>= _)
      exact .bind (d.keywordTable_blames k) hdone
    | none => exact hdone { ignoreCase := d.caseInsensitive }

/-- The modes of a grammar stand at the places of the sites, which are the sites of a definition,
each of them once and the root first. -/
structure Arranged (g : Grammar) (d : GrammarDef) (sites : List Site) : Prop where
  perm : sites.Perm d.sites
  length : sites.length = g.modes.size
  root : sites[0]? = some .root
  fits : ∀ i (m : Mode), g.modes[i]? = some m → ∃ site, sites[i]? = some site ∧
    m.FitsAt d sites i site

theorem exists_arranged {g : Grammar} (h : compile d = .ok g) : ∃ sites, g.Arranged d sites := by
  obtain ⟨u, b, hrun, hmodes, -⟩ := exists_build_of_compile h
  obtain ⟨sites, hlayout, -, hperm⟩ := (compileModes_yields d).ok hrun
  have hsize := GrammarDef.finishModes_size hmodes
  refine ⟨sites, hperm, hlayout.length.trans hsize.symm, hlayout.root, fun i m hm => ?_⟩
  exact hlayout.fits i m (GrammarDef.finishModes_getElem? hmodes hm)

/-- Every mode carries the number of its place. -/
def Numbered (g : Grammar) : Prop := ∀ i (m : Mode), g.modes[i]? = some m → m.id = i

theorem modes_getElem? {g : Grammar} {id : Nat} (hid : id < g.modes.size) :
    g.modes[id]? = some (g.mode id) := by
  rw [mode, Array.getD_eq_getD_getElem?, Array.getElem?_eq_getElem hid, Option.getD_some]

theorem Numbered.mode_id {g : Grammar} (h : g.Numbered) {id : Nat}
    (hid : id < g.modes.size) : (g.mode id).id = id := h id _ (modes_getElem? hid)

/-- Every mode of a compiled grammar carries its own number. -/
theorem compile_numbered {g : Grammar} (h : compile d = .ok g) : g.Numbered := by
  obtain ⟨sites, harranged⟩ := exists_arranged h
  intro i m hm
  obtain ⟨site, -, hfits⟩ := harranged.fits i m hm
  exact hfits.id

namespace Arranged
variable {g : Grammar}

theorem nodup (h : g.Arranged d sites) : sites.Nodup := h.perm.nodup_iff.mpr d.sites_nodup

theorem eq_of_site (h : g.Arranged d sites) {i j : Nat} {site : Site}
    (hi : sites[i]? = some site) (hj : sites[j]? = some site) : i = j :=
  (List.getElem?_inj (List.getElem?_eq_some_iff.mp hi).1 h.nodup).mp (hi.trans hj.symm)

/-- Only the root has no variants. -/
theorem variants_eq_nil_iff (h : g.Arranged d sites) {i : Nat} {m : Mode}
    (hm : g.modes[i]? = some m) : m.variants = [] ↔ i = 0 := by
  obtain ⟨site, hsite, hfits⟩ := h.fits i m hm
  rw [hfits.variants]
  constructor
  · rintro rfl
    exact h.eq_of_site hsite h.root
  · rintro rfl
    rw [h.root] at hsite
    cases hsite
    rfl

/-- What a mode contains are places of other modes than the root. -/
theorem contains_ne_root (h : g.Arranged d sites) {i id : Nat} {m : Mode}
    (hm : g.modes[i]? = some m) (hid : id ∈ m.contains) : id ≠ 0 ∧ id < g.modes.size := by
  obtain ⟨site, hsite, hfits⟩ := h.fits i m hm
  obtain ⟨es, -, hnames⟩ := hfits.contains
  obtain ⟨s, hs, hroot⟩ := hnames.exists_site hsite hid
  refine ⟨?_, h.length ▸ (List.getElem?_eq_some_iff.mp hs).1⟩
  rintro rfl
  rw [h.root] at hs
  cases hs
  exact hroot rfl

/-- Each key has one place. -/
theorem existsUnique_of_key (h : g.Arranged d sites) {key : String} (hkey : key ∈ d.modeKeys) :
    ∃! i : Nat, ∃ m : Mode, g.modes[i]? = some m ∧ m.name = some key := by
  have hmem : .named key ∈ sites := by
    refine h.perm.mem_iff.mpr (List.mem_cons_of_mem _ (List.mem_append_right _ ?_))
    exact List.mem_flatMap.mpr ⟨key, hkey, List.mem_cons_self⟩
  obtain ⟨i, hi, hsite⟩ := List.getElem_of_mem hmem
  have hplace : sites[i]? = some (.named key) := (List.getElem?_eq_getElem hi).trans (hsite ▸ rfl)
  have hlt : i < g.modes.size := h.length ▸ hi
  have hmode : g.modes[i]? = some g.modes[i] := Array.getElem?_eq_getElem hlt
  refine ⟨i, ⟨_, hmode, ?_⟩, ?_⟩
  · obtain ⟨site, hs, hfits⟩ := h.fits i _ hmode
    rw [hplace] at hs
    cases hs
    exact hfits.name
  · rintro j ⟨m, hm, hname⟩
    obtain ⟨site, hs, hfits⟩ := h.fits j m hm
    rw [hfits.name] at hname
    cases site <;> cases hname
    exact h.eq_of_site hs hplace

end Arranged

/-- The compiler comes to an end whichever modes refer to each other: the bound on its recursion is
one that deeper recursion does not pass, and it never takes a mode that is there for an unknown
one. No place is left unfilled. A grammar that compiles has one mode for the root, one for each key
and one for each mode that is written in place, each at a place of its own, and what a mode contains
are the places of what its list names. -/
theorem compile_arranges (d : GrammarDef) :
    (∀ n, d.modes.length ≤ n → d.placeOf n = d.placeOf d.modes.length ∧
      d.placeOf n = d.placeStep (d.placeOf n)) ∧
    (∀ name key, compile d = .error (.malformed name (.unknownMode key)) →
      d.modes.get? key = none) ∧
    (∀ name i, compile d ≠ .error (.malformed name (.uncompiledMode i))) ∧
    ∀ g, compile d = .ok g → ∃ sites, g.Arranged d sites ∧
      (∀ i (m : Mode), g.modes[i]? = some m → m.id = i ∧ (m.variants = [] ↔ i = 0) ∧
        ∀ id ∈ m.contains, id ≠ 0 ∧ id < g.modes.size) ∧
      (∀ key ∈ d.modeKeys, ∃! i : Nat, ∃ m : Mode, g.modes[i]? = some m ∧ m.name = some key) ∧
      g.modes.size = 1 + d.modeKeys.length + d.inlineCount := by
  refine ⟨fun n hn => ⟨d.placeOf_eq hn, ?_⟩, fun name key h => blames_of_compile h,
    fun name i h => blames_of_compile h, fun g hg => ?_⟩
  · rw [← GrammarDef.placeOf_succ, d.placeOf_eq hn, d.placeOf_eq (Nat.le_succ_of_le hn)]
  obtain ⟨sites, harranged⟩ := exists_arranged hg
  refine ⟨sites, harranged, fun i m hm => ⟨?_, ?_, ?_⟩, ?_, ?_⟩
  · exact compile_numbered hg i m hm
  · exact harranged.variants_eq_nil_iff hm
  · exact fun id hid => harranged.contains_ne_root hm hid
  · exact fun key hkey => harranged.existsUnique_of_key hkey
  · rw [← harranged.length, harranged.perm.length_eq, d.length_sites]

theorem compile_arranges_parentheses : ∃ sites, parentheses.Arranged parenthesesDef sites ∧
    parentheses.modes.size = 2 := by
  obtain ⟨sites, harranged, -, -, hsize⟩ :=
    (compile_arranges parenthesesDef).2.2.2 parentheses compile_eq_parentheses
  exact ⟨sites, harranged, hsize.trans (by decide)⟩

end Grammar
end Tinct
