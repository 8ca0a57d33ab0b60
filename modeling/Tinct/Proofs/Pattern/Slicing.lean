import Tinct.Proofs.Pattern.Fusing

/-!
# The elements of a part of a source

An element is the same where its source ends behind it, or behind some of the elements that follow:
none is told by more than the longest text that it could be.

* `LexemeKind.next?_of_append`: what is found at the front of a source is found where the source
  ends earlier;
* `Reads.slice`, `lex_join_of_slice`: some elements in a row are the elements of the text that they
  make up.
-/

namespace Tinct
namespace LexemeKind

/-- Characters that go no further than their own end go no further where the source ends earlier. -/
theorem length_takeWhile_of_append {p : Char → Bool} {as bs cs : List Char}
    (h : ((as ++ (bs ++ cs)).takeWhile p).length = as.length) :
    ((as ++ bs).takeWhile p).length = as.length := by
  induction as with
  | nil =>
    cases bs with
    | nil => rfl
    | cons b bs =>
      rw [List.nil_append, List.cons_append, List.takeWhile_cons] at h
      split at h
      · cases h
      · rename_i hb
        rw [List.nil_append, List.takeWhile_cons, if_neg hb]
  | cons a as ih =>
    rw [List.cons_append, List.takeWhile_cons] at h
    split at h
    · rename_i ha
      rw [List.cons_append, List.takeWhile_cons, if_pos ha, List.length_cons, List.length_cons,
        ih (Nat.succ.inj h)]
    · cases h

/-- What is found at the front of a source is found where the source ends earlier. -/
theorem next?_of_append {kind : LexemeKind} {text cs ds : List Char}
    (h : next? (text ++ (cs ++ ds)) = some (kind, text.length)) :
    next? (text ++ cs) = some (kind, text.length) := by
  obtain ⟨c, text, rfl⟩ := List.exists_cons_of_ne_nil (List.ne_nil_of_length_pos (next?_length h).1)
  by_cases hopen : kind = .open
  · subst hopen
    obtain ⟨rest, hrest, hgroup⟩ := exists_open h
    obtain ⟨rfl, htail⟩ := List.cons.inj hrest
    have htext : text ++ cs ++ ds = rest := by rw [List.append_assoc, ← htail]; rfl
    rw [← htext] at hgroup
    exact group?_of_append hgroup (by simp)
  by_cases hliteral : kind = .literal
  · subst hliteral
    have hplain := isPlain_of_next? h
    rw [List.cons_append, next?_plain hplain] at h ⊢
    have hlength := (Prod.mk.inj (Option.some.inj h)).2
    rw [List.length_cons] at hlength ⊢
    have htake : ((text ++ (cs ++ ds)).takeWhile isPlain).length = text.length := by omega
    rw [length_takeWhile_of_append htake, Nat.add_comm]
  generalize hl : (⟨kind, c :: text⟩ : Lexeme) = l
  have hsteady := Lexeme.Steady.of_next? h hliteral hopen
  rw [hl] at hsteady
  cases hsteady with
  | closed htext =>
    cases hl
    exact htext.next?_append cs
  | plain =>
    cases hl
    exact absurd rfl hliteral
  | @backref d more hd hzero hmore =>
    cases hl
    rw [List.cons_append, List.cons_append, next?_backref hd hzero] at h ⊢
    have hlength := (Prod.mk.inj (Option.some.inj h)).2
    rw [List.length_cons, List.length_cons] at hlength ⊢
    have htake : ((more ++ (cs ++ ds)).takeWhile Char.isDigit).length = more.length := by omega
    rw [length_takeWhile_of_append htake, Nat.add_comm]
  | brace =>
    cases hl
    refine next?_brace_iff.mpr ?_
    rintro ds' rfl
    exact nameLength_of_append (next?_brace_iff.mp h (ds' ++ ds) rfl)

end LexemeKind

open LexemeKind (next?)

namespace Reads
variable {cs : List Char} {ls : List Lexeme}

theorem steady (h : Reads cs ls) {l : Lexeme} (hl : l ∈ ls) (hliteral : l.kind ≠ .literal)
    (hopen : l.kind ≠ .open) : l.Steady := by
  obtain ⟨behind, hnext⟩ := h.mem hl
  exact .of_next? hnext hliteral hopen

variable {front inside behind : List Lexeme}

/-- The first elements of a source are those of the text that they make up. -/
theorem take (h : Reads cs (front ++ behind)) : Reads (front.flatMap (·.text)) front := by
  induction front generalizing cs with
  | nil => exact .nil
  | cons l front ih =>
    rw [List.cons_append] at h
    cases h with
    | cons hnext hrest =>
      refine .cons ?_ (ih hrest)
      rw [← hrest.flatMap_text, List.flatMap_append] at hnext
      exact LexemeKind.next?_of_append hnext

theorem drop (h : Reads cs (front ++ behind)) : Reads (behind.flatMap (·.text)) behind := by
  induction front generalizing cs with
  | nil =>
    have hcs : behind.flatMap (·.text) = cs := h.flatMap_text
    rwa [hcs]
  | cons l front ih =>
    rw [List.cons_append] at h
    cases h with
    | cons _ hrest => exact ih hrest

/-- Elements in a row are the elements of the text that they make up. -/
theorem slice (h : Reads cs (front ++ (inside ++ behind))) :
    Reads (inside.flatMap (·.text)) inside :=
  h.drop.take

end Reads

theorem lex_join_of_slice {source : String} {front inside behind : List Lexeme}
    (h : lex source = .ok (front ++ (inside ++ behind))) :
    lex (Lexeme.join inside) = .ok inside := by
  rw [lex_eq_ok_iff, Lexeme.join, String.toList_ofList]
  exact (lex_eq_ok_iff.mp h).slice

end Tinct
