import Tinct.Regex.Parser

/-!
# The names of properties

A name that `\p` accepts holds no character that means anything in the structure of a source:

* `isInert`: the characters that mean nothing in it;
* `Unicode.property?_inert`, `Unicode.propertyValue?_inert`: the names and the values of properties
  are made of these;
* `Flags.propertyClass?_inert`: so is what stands in the braces behind `\p`.
-/

namespace Tinct

/-- A character that opens or closes no group and no class, separates no branches, and escapes
nothing. -/
def isInert (c : Char) : Bool := !"\\[]()\x7b|".toList.contains c

theorem inert_of_all {cs : List Char} (h : cs.all isInert = true) : ∀ c ∈ cs, isInert c = true :=
  List.all_eq_true.mp h

/-- What holds of no character that means something holds of inert ones only. -/
theorem isInert_of {p : Char → Bool} (hp : ("\\[]()\x7b|".toList.all fun c => !p c) = true)
    {c : Char}
    (hc : p c = true) : isInert c = true := by
  rw [isInert, Bool.not_eq_true', Bool.eq_false_iff]
  intro hmem
  have hnot := List.all_eq_true.mp hp c (List.contains_iff_mem.mp hmem)
  rw [hc] at hnot
  cases hnot

theorem isInert_of_toLower {c : Char} (h : isInert c.toLower = true) : isInert c = true :=
  isInert_of (p := fun c => isInert c.toLower) (by decide) h

theorem isInert_ne {c d : Char} (h : isInert c = true) (hd : isInert d = false) : c ≠ d := by
  rintro rfl
  rw [h] at hd
  cases hd

namespace Unicode

/-! ## Names in tables -/

/-- Whether no byte of a name is that of a character that means something. -/
def inertName (name : String) : Bool :=
  name.toByteArray.data.toList.all fun b =>
    !("\\[]()\x7b|".toList.map fun c => UInt8.ofNat c.toNat).contains b

theorem inert_of_inertName {name : String} (h : inertName name = true) :
    ∀ c ∈ name.toList, isInert c = true := by
  intro c hc
  refine Decidable.byContradiction fun hmark => ?_
  have hmem : c ∈ "\\[]()\x7b|".toList := by
    rw [isInert, Bool.not_eq_true', Bool.not_eq_false] at hmark
    exact List.contains_iff_mem.mp hmark
  have hbyte : String.utf8EncodeChar c = [UInt8.ofNat c.toNat] := by
    have hsize : ("\\[]()\x7b|".toList.all fun c => decide (c.val.toNat ≤ 127)) = true := by decide
    rw [String.utf8EncodeChar, if_pos (of_decide_eq_true (List.all_eq_true.mp hsize c hmem))]
    rfl
  have hin : UInt8.ofNat c.toNat ∈ name.toByteArray.data.toList := by
    rw [← String.utf8Encode_toList, List.utf8Encode, List.toList_data_toByteArray]
    exact List.mem_flatMap.mpr ⟨c, hc, hbyte ▸ List.mem_singleton_self _⟩
  have hnot := List.all_eq_true.mp h _ hin
  rw [Bool.not_eq_true', Bool.eq_false_iff] at hnot
  exact hnot (List.contains_iff_mem.mpr (List.mem_map_of_mem hmem))

/-- Whether all names of a table are made of inert characters. -/
def inertNames (table : List (List String × CharSet)) : Bool := table.all (·.1.all inertName)

/-- The tables in which the names of properties and of their values are looked up. -/
def nameTables : List (List (List String × CharSet)) :=
  [scripts, scriptExtensions, graphemeClusterBreaks, wordBreaks, sentenceBreaks, categories,
    properties, ages]

-- One decision for all tables: the kernel takes them one after another anyway.
theorem inertNames_nameTables : nameTables.all inertNames = true := by decide +kernel

theorem inert_of_mem_table {table : List (List String × CharSet)} (htable : table ∈ nameTables)
    {e : List String × CharSet} (he : e ∈ table) {name : String} (hname : name ∈ e.1) :
    ∀ c ∈ name.toList, isInert c = true := by
  have hnames := List.all_eq_true.mp inertNames_nameTables table htable
  exact inert_of_inertName (List.all_eq_true.mp (List.all_eq_true.mp hnames e he) name hname)

theorem findIn_inert {table : List (List String × CharSet)} (htable : table ∈ nameTables)
    {name : String} {s : CharSet} (h : findIn table name = some s) :
    ∀ c ∈ name.toList, isInert c = true := by
  obtain ⟨e, he, -⟩ := Option.map_eq_some_iff.mp h
  have hname : name ∈ e.1 := by simpa using List.find?_some he
  exact inert_of_mem_table htable (List.mem_of_find?_eq_some he) hname

theorem category?_inert {name : String} {s : CharSet} (h : category? name = some s) :
    ∀ c ∈ name.toList, isInert c = true := by
  unfold category? at h
  split at h
  · subst name
    exact inert_of_all (by decide)
  split at h
  · subst name
    exact inert_of_all (by decide)
  split at h
  · subst name
    exact inert_of_all (by decide)
  exact findIn_inert (by simp [nameTables]) h

theorem age?_inert {name : String} {s : CharSet} (h : age? name = some s) :
    ∀ c ∈ name.toList, isInert c = true := by
  obtain ⟨e, he, hname⟩ : ∃ e ∈ ages, name ∈ e.1 := by
    refine Classical.byContradiction fun hnone => ?_
    have hall : ∀ e ∈ ages, (!e.1.contains name) = true := by
      intro e he
      rw [Bool.not_eq_true', Bool.eq_false_iff]
      exact fun hname => hnone ⟨e, he, List.contains_iff_mem.mp hname⟩
    have htake : ages.takeWhile (!·.1.contains name) = ages := by
      have happend := @List.takeWhile_append_of_pos _ _ ages [] hall
      rwa [List.append_nil, List.takeWhile_nil, List.append_nil] at happend
    unfold age? at h
    dsimp only at h
    rw [htake, List.drop_length] at h
    cases h
  exact inert_of_mem_table (by simp [nameTables]) he hname

/-! ## Loose names -/

/-- Whether a character counts where names are compared. -/
def counts (c : Char) : Bool := c.toNat < 0x80 && c != ' ' && c != '_' && c != '-'

/-- The characters of a name without a leading `is`, and whether it has one. -/
def withoutIs : List Char → List Char × Bool
  | a :: b :: rest =>
    if a.toLower == 'i' && b.toLower == 's' then (rest, true) else (a :: b :: rest, false)
  | cs => (cs, false)

/-- A name that has lost its leading `is` in the form in which the tables list it. -/
def loosened (p : List Char × Bool) : String :=
  let kept := (p.1.filter counts).map Char.toLower
  if p.2 && kept == ['c'] then "isc" else .ofList kept

theorem looseName_eq (name : String) : looseName name = loosened (withoutIs name.toList) := by
  unfold looseName
  generalize name.toList = cs
  match cs with
  | [] | [_] | _ :: _ :: _ => rfl

theorem inert_of_withoutIs {cs : List Char} (h : ∀ c ∈ (withoutIs cs).1, isInert c = true) :
    ∀ c ∈ cs, isInert c = true := by
  unfold withoutIs at h
  split at h
  · split at h
    · rename_i his
      obtain ⟨hi, hs⟩ := (Bool.and_eq_true _ _).mp his
      refine List.forall_mem_cons.mpr ⟨isInert_of_toLower ?_, List.forall_mem_cons.mpr
        ⟨isInert_of_toLower ?_, h⟩⟩
      · rw [beq_iff_eq.mp hi]
        decide
      · rw [beq_iff_eq.mp hs]
        decide
    · exact h
  · exact h

theorem inert_of_loosened {p : List Char × Bool}
    (h : ∀ c ∈ (loosened p).toList, isInert c = true) : ∀ c ∈ p.1, isInert c = true := by
  intro c hc
  by_cases hcounts : counts c = true
  · have hmem := List.mem_map_of_mem (f := Char.toLower) (List.mem_filter.mpr ⟨hc, hcounts⟩)
    refine isInert_of_toLower ?_
    unfold loosened at h
    dsimp only at h
    split at h
    · rename_i hisc
      rw [beq_iff_eq.mp ((Bool.and_eq_true _ _).mp hisc).2] at hmem
      rw [List.mem_singleton.mp hmem]
      decide
    · rw [String.toList_ofList] at h
      exact h _ hmem
  · refine isInert_of (p := fun c => !counts c) (by decide) ?_
    rwa [Bool.not_eq_true', ← Bool.not_eq_true]

/-- A loose name leaves out inert characters only. -/
theorem inert_of_looseName {name : String} (h : ∀ c ∈ (looseName name).toList, isInert c = true) :
    ∀ c ∈ name.toList, isInert c = true := by
  rw [looseName_eq] at h
  exact inert_of_withoutIs (inert_of_loosened h)

theorem property?_inert {name : String} {s : CharSet} (h : property? name = some s) :
    ∀ c ∈ name.toList, isInert c = true := by
  refine inert_of_looseName ?_
  obtain h | ⟨-, h⟩ := Option.or_eq_some_iff.mp h
  · exact findIn_inert (by simp [nameTables]) h
  obtain h | ⟨-, h⟩ := Option.or_eq_some_iff.mp h
  · exact category?_inert h
  · exact findIn_inert (by simp [nameTables]) h

/-- The value of a property is looked up in a table, or is a category or a version. -/
theorem propertyValue?_cases {name value : String} {s : CharSet}
    (h : propertyValue? name value = some s) : inertName (looseName name) = true ∧
      (category? (looseName value) = some s ∨ age? (looseName value) = some s ∨
        ∃ table ∈ nameTables, findIn table (looseName value) = some s) := by
  have hvalue {known : String} (hname : looseName name = known) (hknown : inertName known = true)
      {table : List (List String × CharSet)} (htable : table ∈ nameTables)
      (h : findIn table (looseName value) = some s) : inertName (looseName name) = true ∧
        (category? (looseName value) = some s ∨ age? (looseName value) = some s ∨
          ∃ table ∈ nameTables, findIn table (looseName value) = some s) :=
    ⟨hname ▸ hknown, .inr (.inr ⟨table, htable, h⟩)⟩
  unfold propertyValue? at h
  dsimp only at h
  split at h
  · rename_i hname
    exact ⟨hname ▸ by decide, .inl h⟩
  · rename_i hname
    exact ⟨hname ▸ by decide, .inl h⟩
  · exact hvalue ‹_› (by decide) (by simp [nameTables]) h
  · exact hvalue ‹_› (by decide) (by simp [nameTables]) h
  · exact hvalue ‹_› (by decide) (by simp [nameTables]) h
  · exact hvalue ‹_› (by decide) (by simp [nameTables]) h
  · rename_i hname
    exact ⟨hname ▸ by decide, .inr (.inl h)⟩
  · exact hvalue ‹_› (by decide) (by simp [nameTables]) h
  · exact hvalue ‹_› (by decide) (by simp [nameTables]) h
  · exact hvalue ‹_› (by decide) (by simp [nameTables]) h
  · exact hvalue ‹_› (by decide) (by simp [nameTables]) h
  · exact hvalue ‹_› (by decide) (by simp [nameTables]) h
  · exact hvalue ‹_› (by decide) (by simp [nameTables]) h
  · cases h

theorem propertyValue?_inert {name value : String} {s : CharSet}
    (h : propertyValue? name value = some s) :
    (∀ c ∈ name.toList, isInert c = true) ∧ ∀ c ∈ value.toList, isInert c = true := by
  obtain ⟨hname, hvalue⟩ := propertyValue?_cases h
  refine ⟨inert_of_looseName (inert_of_inertName hname), inert_of_looseName ?_⟩
  obtain hvalue | hvalue | ⟨table, htable, hvalue⟩ := hvalue
  · exact category?_inert hvalue
  · exact age?_inert hvalue
  · exact findIn_inert htable hvalue

end Unicode

namespace Regex

theorem splitAtMark?_eq_some {mark name before after : List Char}
    (h : splitAtMark? mark name = some (before, after)) : name = before ++ mark ++ after := by
  induction name generalizing before after with
  | nil =>
    unfold splitAtMark? at h
    split at h
    · rename_i hmark
      cases h
      obtain rfl := List.prefix_nil.mp (List.isPrefixOf_iff_prefix.mp hmark)
      rfl
    · cases h
  | cons c cs ih =>
    unfold splitAtMark? at h
    split at h
    · rename_i hmark
      cases h
      obtain ⟨rest, hrest⟩ := List.isPrefixOf_iff_prefix.mp hmark
      rw [← hrest, List.drop_left, List.nil_append]
    · obtain ⟨⟨before', after'⟩, hsplit, heq⟩ := Option.map_eq_some_iff.mp h
      cases heq
      rw [ih hsplit]
      rfl

/-- The name of a property is made of inert characters. -/
theorem Flags.propertyClass?_inert {f : Flags} {negated : Bool} {name : List Char} {s : CharSet}
    (h : f.propertyClass? negated name = some s) : ∀ c ∈ name, isInert c = true := by
  have hparts {mark before after : List Char} {negated : Bool}
      (hmark : ∀ c ∈ mark, isInert c = true)
      (h : splitAtMark? mark name = some (before, after))
      (hvalue : (Unicode.propertyValue? (.ofList before) (.ofList after)).bind (f.close? negated) =
        some s) : ∀ c ∈ name, isInert c = true := by
    obtain ⟨s', hs, -⟩ := Option.bind_eq_some_iff.mp hvalue
    obtain ⟨hbefore, hafter⟩ := Unicode.propertyValue?_inert hs
    rw [String.toList_ofList] at hbefore hafter
    rw [splitAtMark?_eq_some h]
    exact List.forall_mem_append.mpr ⟨List.forall_mem_append.mpr ⟨hbefore, hmark⟩, hafter⟩
  unfold propertyClass? at h
  dsimp only at h
  split at h
  · cases h
  split at h
  · rename_i parts hsplit
    exact hparts (inert_of_all rfl) hsplit h
  split at h
  · rename_i parts hsplit
    obtain hsplit | ⟨-, hsplit⟩ := Option.or_eq_some_iff.mp hsplit
    · exact hparts (inert_of_all rfl) hsplit h
    · exact hparts (inert_of_all rfl) hsplit h
  · obtain ⟨s', hs, -⟩ := Option.bind_eq_some_iff.mp h
    have hname := Unicode.property?_inert hs
    rwa [String.toList_ofList] at hname

end Regex
end Tinct
