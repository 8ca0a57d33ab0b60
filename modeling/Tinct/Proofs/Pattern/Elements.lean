import Tinct.Proofs.Pattern.Shape

/-!
# The elements of a source

The reader of elements finds one behind another:

* `Reads`, `lex_eq_ok_iff`: a source is read into elements exactly if they are found so;
* `join_of_lex`: its elements make a source up;
* `Cuts.of_lex`: with its literals cut into characters, it is cut into its elements.
-/

namespace Tinct

open LexemeKind (isPlain next?)

/-- The elements that are found one behind another, up to the end of a source. -/
inductive Reads : List Char → List Lexeme → Prop
  | nil : Reads [] []
  | cons {kind : LexemeKind} {text cs : List Char} {ls : List Lexeme}
    (hnext : next? (text ++ cs) = some (kind, text.length)) (hrest : Reads cs ls) :
    Reads (text ++ cs) (⟨kind, text⟩ :: ls)

theorem reads_of_lexFrom {fuel before : Nat} {cs : List Char} {ls : List Lexeme}
    (h : lexFrom fuel before cs = .ok ls) : Reads cs ls := by
  fun_induction lexFrom fuel before cs generalizing ls with
  | case1 =>
    cases h
    exact .nil
  | case2 => cases h
  | case3 => cases h
  | case4 fuel before cs _ kind n hnext ih =>
    obtain ⟨rest, hrest, h⟩ := bind_eq_ok.mp h
    cases h
    have hlength : (cs.take n).length = n :=
      List.length_take_of_le (LexemeKind.next?_length hnext).2
    have hcons : Reads (cs.take n ++ cs.drop n) (⟨kind, cs.take n⟩ :: rest) :=
      .cons (by rw [List.take_append_drop, hlength, hnext]) (ih hrest)
    rwa [List.take_append_drop] at hcons

namespace Reads
variable {cs : List Char} {ls : List Lexeme}

theorem flatMap_text (h : Reads cs ls) : ls.flatMap (·.text) = cs := by
  induction h with
  | nil => rfl
  | cons _ _ ih => rw [List.flatMap_cons, ih]

theorem lexFrom_eq (h : Reads cs ls) {fuel : Nat} (hfuel : cs.length ≤ fuel) (before : Nat) :
    lexFrom fuel before cs = .ok ls := by
  induction h generalizing fuel before with
  | nil => rw [lexFrom]
  | @cons kind text cs ls hnext hrest ih =>
    have hpos := (LexemeKind.next?_length hnext).1
    rw [List.length_append] at hfuel
    obtain ⟨fuel, rfl⟩ : ∃ n, fuel = n + 1 := ⟨fuel - 1, by omega⟩
    exact lexFrom_succ hnext (List.ne_nil_of_length_pos hpos) (ih (by omega) _)

theorem mem (h : Reads cs ls) {l : Lexeme} (hl : l ∈ ls) :
    ∃ behind, next? (l.text ++ behind) = some (l.kind, l.text.length) := by
  induction h with
  | nil => cases hl
  | cons hnext _ ih =>
    obtain rfl | hl := List.mem_cons.mp hl
    · exact ⟨_, hnext⟩
    · exact ih hl

theorem ne_nil (h : Reads cs ls) {l : Lexeme} (hl : l ∈ ls) : l.text ≠ [] := by
  obtain ⟨behind, hnext⟩ := h.mem hl
  exact List.ne_nil_of_length_pos (LexemeKind.next?_length hnext).1

end Reads

theorem lex_eq_ok_iff {source : String} {ls : List Lexeme} :
    lex source = .ok ls ↔ Reads source.toList ls := by
  unfold lex
  dsimp only
  constructor
  · intro h
    split at h
    · rename_i hls
      cases h
      exact reads_of_lexFrom hls
    · cases h
  · intro h
    rw [h.lexFrom_eq (Nat.le_refl _)]

/-- The elements of a source make it up. -/
theorem join_of_lex {source : String} {ls : List Lexeme} (h : lex source = .ok ls) :
    Lexeme.join ls = source := by
  rw [Lexeme.join, (lex_eq_ok_iff.mp h).flatMap_text, String.ofList_toList]

/-! ## Literals cut into characters -/

namespace Cuts
variable {cs more : List Char} {ls behind : List Lexeme}

theorem plains_append (h : ∀ c ∈ cs, isPlain c = true) (hmore : Cuts more behind) :
    Cuts (cs ++ more) (cs.map (⟨.literal, [·]⟩) ++ behind) := by
  induction cs with
  | nil => exact hmore
  | cons c cs ih =>
    obtain ⟨hc, hcs⟩ := List.forall_mem_cons.mp h
    exact .plain hc (ih hcs)

/-- A source is cut into its elements. -/
theorem of_reads (h : Reads cs ls) : Cuts cs (pieces ls) := by
  induction h with
  | nil => exact .nil
  | @cons kind text cs ls hnext _ ih =>
    have hne : text ≠ [] := List.ne_nil_of_length_pos (LexemeKind.next?_length hnext).1
    by_cases hliteral : kind = .literal
    · subst hliteral
      rw [pieces_cons_of_eq rfl]
      exact plains_append (LexemeKind.forall_isPlain_of_next? hnext) ih
    · rw [pieces_cons_of_ne hliteral]
      exact .lexeme hnext hne hliteral ih

theorem of_lex {source : String} {ls : List Lexeme} (h : lex source = .ok ls) :
    Cuts source.toList (pieces ls) :=
  .of_reads (lex_eq_ok_iff.mp h)

end Cuts
end Tinct
