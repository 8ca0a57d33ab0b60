import Mathlib.Data.List.Basic
import Mathlib.Data.List.TakeDrop
import Tinct.Json.Reader
import Tinct.Proofs.Text.Digits

/-!
# What is written reads back

A value in one line is read back as it was written, whatever stands behind it that does not go on
with a number:

* `string?_escaped`, `number?_toDigits`, `number?_minus`: for strings and integers;
* `value?_render`: for all values, where arrays and objects nest no deeper than the reader allows
  and numbers are integers of 64 bits;
* `parse?_render`: the text that is one written value.
-/

namespace Tinct.Json

/-! ## Strings -/

theorem hexFour?_append {cs : List Char} {n : Nat} (h : hexFour? cs = some (n, []))
    (rest : List Char) : hexFour? (cs ++ rest) = some (n, rest) := by
  unfold hexFour? at h
  split at h
  · rename_i a b c d cs
    obtain ⟨a', ha, h⟩ := Option.bind_eq_some_iff.mp h
    obtain ⟨b', hb, h⟩ := Option.bind_eq_some_iff.mp h
    obtain ⟨c', hc, h⟩ := Option.bind_eq_some_iff.mp h
    obtain ⟨d', hd, h⟩ := Option.bind_eq_some_iff.mp h
    cases h
    simp [hexFour?, ha, hb, hc, hd]
  · cases h

theorem hexFour?_fourDigits : ∀ n < 0x20, hexFour? (fourDigits n).toList = some (n, []) := by
  decide

/-- The escape of a character without a printed form. -/
theorem unicodeEscape?_fourDigits {c : Char} (h : c.toNat < 0x20) (rest : List Char) :
    unicodeEscape? ((fourDigits c.toNat).toList ++ rest) = some (c, rest) := by
  have hfour := hexFour?_append (hexFour?_fourDigits c.toNat h) rest
  have hlow : ¬(0xD800 ≤ c.toNat ∧ c.toNat < 0xDC00) := by omega
  have hvalid : c.toNat.isValidChar := .inl (by omega)
  rw [unicodeEscape?, hfour]
  simp [hlow, hvalid, Char.ofNat_toNat]

theorem string?_cons {c : Char} (hquote : c ≠ '"') (hbackslash : c ≠ '\\') (h : ¬c.toNat < 0x20)
    (fuel : Nat) (before rest : List Char) :
    string? (fuel + 1) before (c :: rest) = string? fuel (c :: before) rest := by
  rw [string?]
  · rw [if_neg h]
  · exact hquote
  · exact hbackslash

/-- A character is read back from what it is written as. -/
theorem string?_escapeChar (c : Char) (fuel : Nat) (before rest : List Char) :
    string? (fuel + 1) before ((escapeChar c).toList ++ rest) =
      string? fuel (c :: before) rest := by
  unfold escapeChar
  split
  · rfl
  · rfl
  · rfl
  · rfl
  · rfl
  · rfl
  · rfl
  · rename_i hquote hbackslash _ _ _ _ _
    split
    · rename_i hlow
      rw [String.toList_append]
      show string? (fuel + 1) before ('\\' :: 'u' :: ((fourDigits c.toNat).toList ++ rest)) = _
      rw [string?, escape?, unicodeEscape?_fourDigits hlow]
      rfl
    · rename_i hlow
      rw [Char.toString, String.toList_singleton, List.singleton_append,
        string?_cons hquote hbackslash hlow]

theorem string?_escaped {cs : List Char} {fuel : Nat} (h : cs.length < fuel)
    (before rest : List Char) :
    string? fuel before ((String.join (cs.map escapeChar)).toList ++ '"' :: rest) =
      some (.ofList (before.reverse ++ cs), rest) := by
  induction cs generalizing fuel before with
  | nil =>
    obtain ⟨fuel, rfl⟩ := Nat.exists_eq_add_of_lt h
    simp [string?]
  | cons c cs ih =>
    obtain ⟨fuel, rfl⟩ : ∃ n, fuel = n + 1 := ⟨fuel - 1, by omega⟩
    rw [List.map_cons, String.join_cons, String.toList_append, List.append_assoc,
      string?_escapeChar, ih (by simpa using h)]
    simp

theorem length_le_escaped (cs : List Char) :
    cs.length ≤ (String.join (cs.map escapeChar)).toList.length := by
  induction cs with
  | nil => exact Nat.zero_le _
  | cons c cs ih =>
    have hpos : 0 < (escapeChar c).toList.length := by
      unfold escapeChar
      split <;> first | decide | (split <;> simp [Char.toString])
    rw [List.map_cons, String.join_cons, String.toList_append, List.length_append,
      List.length_cons]
    omega

/-- A written string is read back. -/
theorem renderString_eq (s : String) : ∃ cs, (renderString s).toList = '"' :: cs ∧
    ∀ rest, string? ((cs ++ rest).length + 1) [] (cs ++ rest) = some (s, rest) := by
  refine ⟨(String.join (s.toList.map escapeChar)).toList ++ ['"'], by simp [renderString],
    fun rest => ?_⟩
  have hlength := length_le_escaped s.toList
  rw [List.append_assoc, List.singleton_append, string?_escaped]
  · simp
  · rw [List.length_append]
    omega

/-! ## Numbers -/

/-- Whether a number ends in front of a text. -/
def endsNumber (cs : List Char) : Bool :=
  !cs.head?.any fun c => c.isDigit || c == '.' || c == 'e' || c == 'E'

theorem digitsValue_toDigits (n : Nat) : digitsValue (Nat.toDigits 10 n) = n := by
  rw [digitsValue_eq, Nat.ofDigitChars_ten_toDigits]

theorem head?_toDigits {n : Nat} (h : n ≠ 0) : (Nat.toDigits 10 n).head? ≠ some '0' := by
  induction n using Nat.strongRecOn with
  | ind n ih =>
    by_cases hlt : n < 10
    · rw [Nat.toDigits_of_lt_base hlt]
      have hone : ∀ n < 10, n ≠ 0 → [n.digitChar].head? ≠ some '0' := by decide
      exact hone n hlt h
    · rw [Nat.toDigits_of_base_le (by decide) (by omega),
        List.head?_append_of_ne_nil _ Nat.toDigits_ne_nil]
      exact ih (n / 10) (by omega) (by omega)

section number
variable {n : Nat} {rest : List Char}

theorem leadingDigits_append {ds : List Char} (hds : ∀ c ∈ ds, c.isDigit = true)
    (hrest : endsNumber rest = true) : leadingDigits (ds ++ rest) = (ds, rest) := by
  rw [leadingDigits, List.span_eq_takeWhile_dropWhile, List.takeWhile_append_of_pos hds,
    List.dropWhile_append_of_pos hds]
  cases rest with
  | nil => simp
  | cons c rest => simp_all [endsNumber]

theorem fraction?_of_endsNumber (h : endsNumber rest = true) :
    fraction? rest = some ([], rest) := by
  unfold fraction?
  split
  · cases h
  · rfl

theorem exponent?_of_endsNumber (h : endsNumber rest = true) :
    exponent? rest = some (none, rest) := by
  cases rest with
  | nil => rfl
  | cons c rest =>
    have hletter : ¬(c = 'e' ∨ c = 'E') := by
      rintro (rfl | rfl) <;> cases h
    simp only [exponent?, if_neg hletter]

/-- The digits of a number have no zero in front, unless that is all of them. -/
theorem toDigits_leading (n : Nat) :
    ((Nat.toDigits 10 n).isEmpty ||
      ((Nat.toDigits 10 n).head? == some '0' && 1 < (Nat.toDigits 10 n).length)) = false := by
  by_cases h : n = 0
  · subst h
    rfl
  · simp [head?_toDigits h, Nat.toDigits_ne_nil]

theorem isDigit_of_mem_toDigits {c : Char} (h : c ∈ Nat.toDigits 10 n) : c.isDigit = true :=
  Nat.isDigit_of_mem_toDigits (by decide) (by decide) h

theorem number?_toDigits (h : n < Nat.pow 2 64) (hrest : endsNumber rest = true) :
    number? (Nat.toDigits 10 n ++ rest) = some (.int n, rest) := by
  have hleading := leadingDigits_append (fun _ => isDigit_of_mem_toDigits (n := n)) hrest
  unfold number?
  split
  rename_i negative unsigned heq
  split at heq
  · rename_i cs hminus
    obtain ⟨d, ds, hds⟩ := List.exists_cons_of_ne_nil (Nat.toDigits_ne_nil (n := n) (b := 10))
    rw [hds, List.cons_append] at hminus
    obtain ⟨rfl, -⟩ := List.cons.inj hminus
    have hdigit := isDigit_of_mem_toDigits (hds ▸ List.mem_cons_self ..)
    cases hdigit
  · cases heq
    simp [hleading, toDigits_leading, fraction?_of_endsNumber hrest, exponent?_of_endsNumber hrest,
      digitsValue_toDigits, h]

theorem number?_minus (hpos : n ≠ 0) (h : n ≤ Nat.pow 2 63) (hrest : endsNumber rest = true) :
    number? ('-' :: (Nat.toDigits 10 n ++ rest)) = some (.int (-n), rest) := by
  have hleading := leadingDigits_append (fun _ => isDigit_of_mem_toDigits (n := n)) hrest
  simp [number?, hleading, toDigits_leading, fraction?_of_endsNumber hrest,
    exponent?_of_endsNumber hrest, digitsValue_toDigits, hpos, h]

end number

/-! ## Values -/

mutual

/-- How deep arrays and objects nest. -/
def depth : Json → Nat
  | .arr items => depthItems items + 1
  | .obj fields => depthFields fields + 1
  | _ => 0

def depthItems : List Json → Nat
  | [] => 0
  | v :: vs => max v.depth (depthItems vs)

def depthFields : List (String × Json) → Nat
  | [] => 0
  | (_, v) :: fs => max v.depth (depthFields fs)

end

mutual

/-- Whether all numbers of a value are integers of 64 bits. -/
def isWhole : Json → Bool
  | .int n => -(Nat.pow 2 63 : Int) ≤ n && n < (Nat.pow 2 64 : Int)
  | .real _ => false
  | .arr items => areWhole items
  | .obj fields => haveWhole fields
  | _ => true

def areWhole : List Json → Bool
  | [] => true
  | v :: vs => v.isWhole && areWhole vs

def haveWhole : List (String × Json) → Bool
  | [] => true
  | (_, v) :: fs => v.isWhole && haveWhole fs

end

theorem value?_string (room : Nat) (cs : List Char) : value? room ('"' :: cs) =
    (string? (cs.length + 1) [] cs).map fun (s, rest) => (.str s, rest) := by
  cases room <;> rfl

theorem value?_array {c : Char} {cs : List Char} (hc : cs.head? = some c)
    (hspace : isSpace c = false) (hclose : c ≠ ']') (room : Nat) :
    value? (room + 1) ('[' :: cs) =
      (items? (value? room) cs.length cs).map fun (vs, rest) => (.arr vs, rest) := by
  obtain ⟨cs, rfl⟩ := List.head?_eq_some_iff.mp hc
  have hopen : skipSpace ('[' :: c :: cs) = '[' :: c :: cs := rfl
  have hskip : skipSpace (c :: cs) = c :: cs :=
    List.dropWhile_cons_of_neg (by rw [hspace]; decide)
  rw [value?.eq_def]
  simp only [hopen]
  rw [hskip]
  split
  · rename_i heq
    exact absurd (List.cons.inj heq).1 hclose
  · rfl

theorem value?_object {cs : List Char} (hquote : cs.head? = some '"') (room : Nat) :
    value? (room + 1) ('\x7b' :: cs) =
      (fields? (value? room) cs.length cs).map fun (fs, rest) => (.obj fs, rest) := by
  obtain ⟨cs, rfl⟩ := List.head?_eq_some_iff.mp hquote
  rfl

section field
variable {value? : List Char → Option (Json × List Char)} {key : String} {v : Json}
  {cs rest behind : List Char}

/-- A field that is the last one. -/
theorem fields?_last (hkey : string? (cs.length + 1) [] cs = some (key, ':' :: rest))
    (hvalue : value? rest = some (v, '\x7d' :: behind)) (fuel : Nat) :
    fields? value? (fuel + 1) ('"' :: cs) = some ([(key, v)], behind) := by
  show (string? (cs.length + 1) [] cs).bind _ = _
  rw [hkey]
  show (value? rest).bind _ = _
  rw [hvalue]
  rfl

/-- A field in front of others. -/
theorem fields?_cons (hkey : string? (cs.length + 1) [] cs = some (key, ':' :: rest))
    (hvalue : value? rest = some (v, ',' :: behind)) {fuel : Nat} {fs : List (String × Json)}
    {tail : List Char} (hfields : fields? value? fuel behind = some (fs, tail)) :
    fields? value? (fuel + 1) ('"' :: cs) = some ((key, v) :: fs, tail) := by
  show (string? (cs.length + 1) [] cs).bind _ = _
  rw [hkey]
  show (value? rest).bind _ = _
  rw [hvalue]
  show (fields? value? fuel behind).bind _ = _
  rw [hfields]
  rfl

end field

theorem isSpace_number {c : Char} (h : c.isDigit = true ∨ c = '-') : isSpace c = false := by
  refine Bool.eq_false_iff.mpr fun hc => ?_
  simp only [isSpace, Bool.or_eq_true, beq_iff_eq] at hc
  obtain ((rfl | rfl) | rfl) | rfl := hc <;> exact absurd h (by decide)

theorem value?_number {c : Char} (h : c.isDigit = true ∨ c = '-') (room : Nat) (cs : List Char) :
    value? room (c :: cs) = number? (c :: cs) := by
  have hspace : skipSpace (c :: cs) = c :: cs :=
    List.dropWhile_cons_of_neg (by rw [isSpace_number h]; decide)
  rw [value?.eq_def]
  dsimp only
  rw [hspace]
  split <;> first
    | rfl
    | (rename_i heq
       obtain ⟨rfl, -⟩ := List.cons.inj heq
       exact absurd h (by decide))

theorem toList_natural (n : Nat) : (render (.int n)).toList = Nat.toDigits 10 n := by
  show (toString (n : Int)).toList = _
  simp [toString, Int.repr, Nat.repr]

theorem toList_negative (n : Nat) :
    (render (.int (.negSucc n))).toList = '-' :: Nat.toDigits 10 (n + 1) := by
  show (toString (Int.negSucc n)).toList = _
  simp [toString, Int.repr, Nat.repr]

theorem toList_arr (items : List Json) : (render (.arr items)).toList =
    '[' :: ((",".intercalate (renderItems items)).toList ++ [']']) := by
  show ("[" ++ ",".intercalate (renderItems items) ++ "]").toList = _
  simp

theorem toList_obj (fields : List (String × Json)) : (render (.obj fields)).toList =
    '\x7b' :: ((",".intercalate (renderFields fields)).toList ++ ['\x7d']) := by
  show ("\x7b" ++ ",".intercalate (renderFields fields) ++ "\x7d").toList = _
  simp

theorem toList_commas (a b : String) (parts : List String) :
    (",".intercalate (a :: b :: parts)).toList =
      a.toList ++ ',' :: (",".intercalate (b :: parts)).toList := by
  simp [String.toList_intercalate]

theorem length_le_commas (a : String) (parts : List String) :
    parts.length ≤ (",".intercalate (a :: parts)).toList.length := by
  induction parts generalizing a with
  | nil => exact Nat.zero_le _
  | cons b parts ih =>
    have hle := ih b
    rw [toList_commas, List.length_append, List.length_cons, List.length_cons]
    omega

theorem head?_commas {a : String} {c : Char} (h : a.toList.head? = some c) (parts : List String)
    (behind : List Char) : ((",".intercalate (a :: parts)).toList ++ behind).head? = some c := by
  cases parts with
  | nil => simp [h]
  | cons b parts => simp [h]

theorem length_renderItems (vs : List Json) : (renderItems vs).length = vs.length := by
  induction vs with
  | nil => rfl
  | cons v vs ih => rw [renderItems, List.length_cons, List.length_cons, ih]

theorem length_renderFields (fs : List (String × Json)) : (renderFields fs).length = fs.length := by
  induction fs with
  | nil => rfl
  | cons f fs ih => rw [renderFields, List.length_cons, List.length_cons, ih]

/-- What a written value begins with. -/
theorem head?_render {v : Json} (h : v.isWhole = true) :
    ∃ c, v.render.toList.head? = some c ∧ isSpace c = false ∧ c ≠ ']' := by
  cases v with
  | null => exact ⟨'n', rfl, by decide⟩
  | bool b => cases b <;> exact ⟨_, rfl, by decide⟩
  | int n =>
    cases n with
    | ofNat n =>
      obtain ⟨d, ds, hds⟩ := List.exists_cons_of_ne_nil (Nat.toDigits_ne_nil (n := n) (b := 10))
      have hd := isDigit_of_mem_toDigits (hds ▸ List.mem_cons_self ..)
      refine ⟨d, ?_, isSpace_number (.inl hd), ?_⟩
      · rw [Int.ofNat_eq_natCast, toList_natural, hds]
        rfl
      · rintro rfl
        exact absurd hd (by decide)
    | negSucc n => exact ⟨'-', by rw [toList_negative]; rfl, by decide⟩
  | real digits => cases h
  | str s =>
    obtain ⟨cs, hcs, -⟩ := renderString_eq s
    exact ⟨'"', by rw [render, hcs]; rfl, by decide⟩
  | arr items => exact ⟨'[', by rw [toList_arr]; rfl, by decide⟩
  | obj fields => exact ⟨'\x7b', by rw [toList_obj]; rfl, by decide⟩

/-- A reader gives back what a value is written as, where a number would end behind it. -/
def ReadsBack (read? : List Char → Option (Json × List Char)) (v : Json) : Prop :=
  ∀ rest, endsNumber rest = true → read? (v.render.toList ++ rest) = some (v, rest)

theorem items?_render {read? : List Char → Option (Json × List Char)} {v : Json} {vs : List Json}
    (h : ∀ w ∈ v :: vs, ReadsBack read? w) {fuel : Nat} (hfuel : vs.length < fuel)
    (rest : List Char) :
    items? read? fuel ((",".intercalate (renderItems (v :: vs))).toList ++ ']' :: rest) =
      some (v :: vs, rest) := by
  induction vs generalizing v fuel with
  | nil =>
    obtain ⟨fuel, rfl⟩ : ∃ n, fuel = n + 1 := ⟨fuel - 1, by omega⟩
    have hvalue := h v (List.mem_cons_self ..) (']' :: rest) rfl
    rw [renderItems, renderItems, String.intercalate_singleton, items?, hvalue]
    rfl
  | cons w ws ih =>
    obtain ⟨fuel, rfl⟩ : ∃ n, fuel = n + 1 := ⟨fuel - 1, by omega⟩
    obtain ⟨hv, hvs⟩ := List.forall_mem_cons.mp h
    have hitems := ih hvs (Nat.lt_of_succ_lt_succ hfuel)
    rw [renderItems, renderItems, toList_commas, List.append_assoc, List.cons_append, items?,
      ← renderItems, hv _ rfl]
    show (items? read? fuel _).bind _ = _
    rw [hitems]
    rfl

theorem fields?_render {read? : List Char → Option (Json × List Char)} {key : String} {v : Json}
    {fs : List (String × Json)} (h : ∀ f ∈ (key, v) :: fs, ReadsBack read? f.2) {fuel : Nat}
    (hfuel : fs.length < fuel) (rest : List Char) :
    fields? read? fuel
        ((",".intercalate (renderFields ((key, v) :: fs))).toList ++ '\x7d' :: rest) =
      some ((key, v) :: fs, rest) := by
  have hfield (key : String) (v : Json) : ∃ cs, ∀ rest,
      (renderString key ++ ":" ++ v.render).toList ++ rest =
        '"' :: (cs ++ ':' :: (v.render.toList ++ rest)) ∧
      string? ((cs ++ ':' :: (v.render.toList ++ rest)).length + 1) []
        (cs ++ ':' :: (v.render.toList ++ rest)) =
          some (key, ':' :: (v.render.toList ++ rest)) := by
    obtain ⟨cs, hkey, hread⟩ := renderString_eq key
    exact ⟨cs, fun rest => ⟨by simp [hkey], hread _⟩⟩
  induction fs generalizing key v fuel with
  | nil =>
    obtain ⟨fuel, rfl⟩ : ∃ n, fuel = n + 1 := ⟨fuel - 1, by omega⟩
    obtain ⟨cs, hcs⟩ := hfield key v
    have hvalue := h (key, v) (List.mem_cons_self ..) ('\x7d' :: rest) rfl
    rw [renderFields, renderFields, String.intercalate_singleton, (hcs _).1]
    exact fields?_last (hcs _).2 hvalue fuel
  | cons f fs ih =>
    obtain ⟨fuel, rfl⟩ : ∃ n, fuel = n + 1 := ⟨fuel - 1, by omega⟩
    obtain ⟨key', w⟩ := f
    obtain ⟨cs, hcs⟩ := hfield key v
    obtain ⟨hv, hfs⟩ := List.forall_mem_cons.mp h
    have hfields := ih hfs (Nat.lt_of_succ_lt_succ hfuel)
    rw [renderFields, renderFields, toList_commas, List.append_assoc, List.cons_append, (hcs _).1,
      ← renderFields]
    exact fields?_cons (hcs _).2 (hv _ rfl) hfields

/-- A value that holds no others is read back wherever it stands. -/
theorem value?_scalar {v : Json} (hwhole : v.isWhole = true) (hdepth : v.depth = 0) (room : Nat) :
    ReadsBack (value? room) v := by
  intro rest hrest
  cases v with
  | null => cases room <;> rfl
  | bool b => cases b <;> cases room <;> rfl
  | int n =>
    obtain ⟨hmin, hmax⟩ : -(Nat.pow 2 63 : Int) ≤ n ∧ n < (Nat.pow 2 64 : Int) := by
      simpa [isWhole] using hwhole
    cases n with
    | ofNat n =>
      obtain ⟨d, ds, hds⟩ := List.exists_cons_of_ne_nil (Nat.toDigits_ne_nil (n := n) (b := 10))
      have hd := isDigit_of_mem_toDigits (hds ▸ List.mem_cons_self ..)
      have hnumber := number?_toDigits (Int.ofNat_lt.mp hmax) hrest
      rw [Int.ofNat_eq_natCast, toList_natural]
      rw [hds, List.cons_append] at hnumber ⊢
      rw [value?_number (.inl hd), hnumber]
    | negSucc n =>
      have hnumber := number?_minus (n := n + 1) (Nat.succ_ne_zero n) (by omega) hrest
      rw [toList_negative, List.cons_append, value?_number (.inr rfl), hnumber]
      rfl
  | real digits => cases hwhole
  | str s =>
    obtain ⟨cs, hcs, hread⟩ := renderString_eq s
    rw [render, hcs, List.cons_append, value?_string, hread]
    rfl
  | arr items => cases hdepth
  | obj fields => cases hdepth

theorem mem_items {v : Json} {vs : List Json} (h : v ∈ vs) (hwhole : areWhole vs = true) :
    v.isWhole = true ∧ v.depth ≤ depthItems vs := by
  induction vs with
  | nil => cases h
  | cons w vs ih =>
    obtain ⟨hw, hvs⟩ := (Bool.and_eq_true _ _).mp hwhole
    obtain rfl | h := List.mem_cons.mp h
    · exact ⟨hw, Nat.le_max_left ..⟩
    · exact (ih h hvs).imp_right fun hle => Nat.le_trans hle (Nat.le_max_right ..)

theorem mem_fields {f : String × Json} {fs : List (String × Json)} (h : f ∈ fs)
    (hwhole : haveWhole fs = true) : f.2.isWhole = true ∧ f.2.depth ≤ depthFields fs := by
  induction fs with
  | nil => cases h
  | cons g fs ih =>
    obtain ⟨hg, hfs⟩ := (Bool.and_eq_true _ _).mp hwhole
    obtain rfl | h := List.mem_cons.mp h
    · exact ⟨hg, Nat.le_max_left ..⟩
    · exact (ih h hfs).imp_right fun hle => Nat.le_trans hle (Nat.le_max_right ..)

/-- A written value is read back. The induction is on how deep values may nest, as in the reader. -/
theorem value?_render {v : Json} {room : Nat} (hwhole : v.isWhole = true)
    (hdepth : v.depth ≤ room) :
    ReadsBack (value? room) v := by
  induction room generalizing v with
  | zero => exact value?_scalar hwhole (Nat.le_zero.mp hdepth) 0
  | succ room ih =>
    intro rest hrest
    cases v with
    | arr items =>
      match items with
      | [] => rfl
      | v :: vs =>
        have hitems (w : Json) (hw : w ∈ v :: vs) : ReadsBack (value? room) w := by
          obtain ⟨hwhole', hle⟩ := mem_items hw hwhole
          exact ih hwhole' (Nat.le_trans hle (Nat.le_of_succ_le_succ hdepth))
        obtain ⟨c, hc, hspace, hclose⟩ := head?_render ((Bool.and_eq_true _ _).mp hwhole).1
        have hhead : ((",".intercalate (renderItems (v :: vs))).toList ++
            ']' :: rest).head? = some c := head?_commas hc _ _
        have hlength := length_le_commas v.render (renderItems vs)
        rw [length_renderItems] at hlength
        rw [toList_arr, List.cons_append, List.append_assoc, List.singleton_append,
          value?_array hhead hspace hclose, items?_render hitems]
        · rfl
        · rw [List.length_append, List.length_cons, renderItems]
          omega
    | obj fields =>
      match fields with
      | [] => rfl
      | (key, v) :: fs =>
        have hfields (f : String × Json) (hf : f ∈ (key, v) :: fs) :
            ReadsBack (value? room) f.2 := by
          obtain ⟨hwhole', hle⟩ := mem_fields hf hwhole
          exact ih hwhole' (Nat.le_trans hle (Nat.le_of_succ_le_succ hdepth))
        have hhead : ((",".intercalate (renderFields ((key, v) :: fs))).toList ++
            '\x7d' :: rest).head? = some '"' := by
          obtain ⟨cs, hcs, -⟩ := renderString_eq key
          exact head?_commas (by simp [hcs]) _ _
        have hlength := length_le_commas (renderString key ++ ":" ++ v.render) (renderFields fs)
        rw [length_renderFields] at hlength
        rw [toList_obj, List.cons_append, List.append_assoc, List.singleton_append,
          value?_object hhead, fields?_render hfields]
        · rfl
        · rw [List.length_append, List.length_cons, renderFields]
          omega
    | _ => exact value?_scalar hwhole rfl _ rest hrest

/-- A written value is all that a text holds. -/
theorem parse?_render {v : Json} (hwhole : v.isWhole = true) (hdepth : v.depth ≤ depthLimit) :
    parse? v.render = some v := by
  have hvalue := value?_render hwhole hdepth [] rfl
  rw [List.append_nil] at hvalue
  rw [parse?, hvalue]
  rfl

end Tinct.Json
