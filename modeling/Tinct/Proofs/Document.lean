import Tinct.Grammar.Printer
import Tinct.Grammar.Reader

/-!
# Reading documents from JSON

What the readers of a document make of one that was written as JSON:

* `Document.settle?_ofJson`: its types are settled already;
* `Document.optional?_optionJson`, `Document.list?_ofJson`, `Document.entries?_ofJson`: a value that
  may be missing, a list and a table of names are read back if their parts are;
* `Document.record?_ofJson`: a record with all of its fields, each of them once, is read field by
  field.
-/

namespace Tinct

namespace Entries
variable {α : Type} {es : Entries α}

theorem put_of_notMem {key : String} (h : key ∉ es.map (·.1)) (a : α) :
    es.put key a = es ++ [(key, a)] := by
  induction es with
  | nil => rfl
  | cons e es ih =>
    obtain ⟨hne, hnot⟩ := not_or.mp (mt List.mem_cons.mpr h)
    rw [put, if_neg (Ne.symm hne), ih hnot]
    rfl

theorem foldl_put {front : Entries α} (h : ((front ++ es).map (·.1)).Nodup) :
    es.foldl (fun es p => put p.1 p.2 es) front = front ++ es := by
  induction es generalizing front with
  | nil => exact (List.append_nil _).symm
  | cons e es ih =>
    rw [List.map_append, List.map_cons] at h
    have hnot : e.1 ∉ front.map (·.1) := fun hmem =>
      (List.nodup_append.mp h).2.2 _ hmem _ (List.mem_cons_self ..) rfl
    rw [List.foldl_cons, put_of_notMem hnot, ih]
    · rw [List.append_assoc, List.singleton_append]
    · rwa [List.append_assoc, List.singleton_append, List.map_append, List.map_cons]

/-- Names that are all distinct keep their order and their values. -/
theorem ofPairs_eq (h : (es.map (·.1)).Nodup) : ofPairs es = es := by
  rw [ofPairs]
  exact foldl_put h

end Entries

namespace Document

theorem ofItems_eq (vs : List Json) : ofItems vs = vs.map ofJson := by
  induction vs with
  | nil => rfl
  | cons v vs ih => rw [ofItems, ih, List.map_cons]

/-- A name as a document. -/
def ofName (name : String) : Document := .scalar (.ofAtom (.text name))

theorem ofFields_eq (fs : List (String × Json)) :
    ofFields fs = fs.map fun f => (ofName f.1, ofJson f.2) := by
  induction fs with
  | nil => rfl
  | cons f fs ih => rw [ofFields, ih, List.map_cons]; rfl

mutual

/-- A document from JSON has its types settled. -/
theorem settle?_ofJson (v : Json) : (ofJson v).settle? = some (ofJson v) := by
  match v with
  | .null | .bool _ | .int _ | .real _ | .str _ => rfl
  | .arr items => rw [ofJson, settle?, settleItems_ofItems items]; rfl
  | .obj fields => rw [ofJson, settle?, settleFields_ofFields fields]; rfl

theorem settleItems_ofItems (vs : List Json) : settleItems (ofItems vs) = some (ofItems vs) := by
  match vs with
  | [] => rfl
  | v :: vs => rw [ofItems, settleItems, settle?_ofJson v, settleItems_ofItems vs]; rfl

theorem settleFields_ofFields (fs : List (String × Json)) :
    settleFields (ofFields fs) = some (ofFields fs) := by
  match fs with
  | [] => rfl
  | (k, v) :: fs =>
    rw [ofFields, settleFields, settle?_ofJson v, settleFields_ofFields fs]
    rfl

end

theorem depth_le_of_mem {d : Document} {ds : List Document} (h : d ∈ ds) :
    d.depth ≤ depthItems ds := by
  induction ds with
  | nil => cases h
  | cons d' ds ih =>
    obtain rfl | h := List.mem_cons.mp h
    · exact Nat.le_max_left ..
    · exact Nat.le_trans (ih h) (Nat.le_max_right ..)

theorem depth_le_of_mem_fields {f : Document × Document} {fs : List (Document × Document)}
    (h : f ∈ fs) : f.2.depth ≤ depthFields fs := by
  induction fs with
  | nil => cases h
  | cons f' fs ih =>
    obtain rfl | h := List.mem_cons.mp h
    · exact Nat.le_max_left ..
    · exact Nat.le_trans (ih h) (Nat.le_max_right ..)

/-- What a list in a record holds lies below the record. -/
theorem depth_lt_of_mem_list {α : Type} {write : α → Json} {a : α} {as : List α} (h : a ∈ as)
    {name : String} {fs : List (String × Json)} (hlist : (name, .arr (as.map write)) ∈ fs) :
    (ofJson (write a)).depth + 1 < (ofJson (.obj fs)).depth := by
  have hitem : ofJson (write a) ∈ ofItems (as.map write) := by
    rw [ofItems_eq]
    exact List.mem_map_of_mem (List.mem_map_of_mem h)
  have hfield : (ofName name, ofJson (.arr (as.map write))) ∈ ofFields fs := by
    rw [ofFields_eq]
    exact List.mem_map.mpr ⟨_, hlist, rfl⟩
  have hle := depth_le_of_mem hitem
  have hle' := depth_le_of_mem_fields hfield
  simp only [ofJson, depth] at hle' ⊢
  omega

section read
variable {α : Type} {read? : Document → Option α} {write : α → Json}

theorem optional?_ofJson {v : Json} (h : v ≠ .null) :
    optional? read? (ofJson v) = (read? (ofJson v)).map some := by
  cases v with
  | null => exact absurd rfl h
  | arr items => rfl
  | obj fields => rfl
  | _ => rw [Option.map_eq_bind]; rfl

/-- A value that may be missing is read back, if it is not written as null. -/
theorem optional?_optionJson {o : Option α} (hnull : ∀ a ∈ o, write a ≠ .null)
    (h : ∀ a ∈ o, read? (ofJson (write a)) = some a) :
    optional? read? (ofJson (optionJson write o)) = some o := by
  cases o with
  | none => rfl
  | some a => rw [optionJson, optional?_ofJson (hnull a rfl), h a rfl]; rfl

theorem text?_str (s : String) : text? (ofJson (.str s)) = some s := rfl

theorem optional?_text (o : Option String) :
    optional? text? (ofJson (optionJson .str o)) = some o :=
  optional?_optionJson (fun _ _ => Json.noConfusion) fun s _ => text?_str s

theorem mapM_ofJson {as : List α} (h : ∀ a ∈ as, read? (ofJson (write a)) = some a) :
    (ofItems (as.map write)).mapM read? = some as := by
  induction as with
  | nil => rfl
  | cons a as ih =>
    obtain ⟨ha, has⟩ := List.forall_mem_cons.mp h
    rw [List.map_cons, ofItems, List.mapM_cons, ha, ih has]
    rfl

theorem list?_ofJson {as : List α} (h : ∀ a ∈ as, read? (ofJson (write a)) = some a) :
    list? read? (ofJson (.arr (as.map write))) = some as := mapM_ofJson h

theorem fields?_ofFields (fs : List (String × Json)) :
    fields? text? some (ofFields fs) = some (fs.map fun f => (f.1, ofJson f.2)) := by
  induction fs with
  | nil => rfl
  | cons f fs ih =>
    rw [fields?] at ih ⊢
    rw [ofFields, List.mapM_cons, ih]
    rfl

theorem entries?_ofJson {es : Entries α} (hkeys : (es.map (·.1)).Nodup)
    (h : ∀ e ∈ es, read? (ofJson (write e.2)) = some e.2) :
    entries? read? (ofJson (.obj (es.map fun (k, a) => (k, write a)))) = some es := by
  have hfields : fields? text? read? (ofFields (es.map fun (k, a) => (k, write a))) = some es := by
    clear hkeys
    induction es with
    | nil => rfl
    | cons e es ih =>
      obtain ⟨he, hes⟩ := List.forall_mem_cons.mp h
      rw [fields?] at ih ⊢
      rw [List.map_cons, ofFields, List.mapM_cons, ih hes, he]
      rfl
  show (fields? text? read? _).map Entries.ofPairs = _
  rw [hfields, Option.map_some, Entries.ofPairs_eq hkeys]

end read

/-! ## Records -/

section record
variable {fs : List (String × Json)}

theorem lookup_eq_none {r : Record} {name : String} (h : name ∉ r.map (·.1)) :
    r.lookup name = none := by
  rw [List.lookup_eq_none_iff]
  intro f hf
  exact bne_iff_ne.mpr fun heq => h (List.mem_map.mpr ⟨f, hf, heq.symm⟩)

theorem collect?_ofFields {names : List String} {rename : String → String}
    (hrename : ∀ f ∈ fs, rename f.1 = f.1) (hnames : ∀ f ∈ fs, f.1 ∈ names) {r : Record}
    (hkeys : (fs.map (·.1) ++ r.map (·.1)).Nodup) :
    collect? names rename r (ofFields fs) =
      some ((fs.map fun f => (f.1, ofJson f.2)).reverse ++ r) := by
  induction fs generalizing r with
  | nil => rfl
  | cons f fs ih =>
    obtain ⟨hf, hfs⟩ := List.forall_mem_cons.mp hrename
    obtain ⟨hmem, hmems⟩ := List.forall_mem_cons.mp hnames
    rw [List.map_cons, List.cons_append, ← List.perm_middle.nodup_iff] at hkeys
    have hnone : r.lookup f.1 = none := lookup_eq_none fun hr =>
      (List.nodup_cons.mp (List.nodup_append.mp hkeys).2.1).1 hr
    have hrest := ih hfs hmems (r := (f.1, ofJson f.2) :: r) hkeys
    rw [ofFields, collect?]
    show (if names.contains (rename f.1) && (r.lookup (rename f.1)).isNone then
      collect? names rename ((rename f.1, ofJson f.2) :: r) (ofFields fs) else none) = _
    rw [hf, hnone, hrest]
    simp [hmem]

theorem lookup_of_mem (hkeys : (fs.map (·.1)).Nodup) {name : String} {v : Json}
    (h : (name, v) ∈ fs) :
    List.lookup name (fs.map fun f => (f.1, ofJson f.2)).reverse = some (ofJson v) := by
  obtain ⟨front, behind, rfl⟩ := List.append_of_mem h
  rw [List.map_append, List.map_cons] at hkeys
  have hnot := (List.nodup_cons.mp (List.nodup_append.mp hkeys).2.1).1
  refine List.lookup_eq_some_iff.mpr ⟨(behind.map fun f => (f.1, ofJson f.2)).reverse,
    (front.map fun f => (f.1, ofJson f.2)).reverse, by simp, fun f hf => bne_iff_ne.mpr ?_⟩
  rintro rfl
  obtain ⟨g, hg, rfl⟩ := List.mem_map.mp (List.mem_reverse.mp hf)
  exact hnot (List.mem_map.mpr ⟨g, hg, rfl⟩)

/-- A record with all of its fields written, each of them once, is read field by field. -/
theorem record?_ofJson {names : List String} (required : Nat) (rename : String → String)
    (hnames : fs.map (·.1) = names) (hkeys : names.Nodup)
    (hrename : ∀ name ∈ names, rename name = name) :
    ∃ r, record? names required (ofJson (.obj fs)) rename = some r ∧
      ∀ name v, (name, v) ∈ fs → r.lookup name = some (ofJson v) := by
  subst hnames
  have hcollect : collect? (fs.map (·.1)) rename [] (ofFields fs) =
      some ((fs.map fun f => (f.1, ofJson f.2)).reverse ++ []) :=
    collect?_ofFields (fun f hf => hrename f.1 (List.mem_map_of_mem hf))
      (fun f hf => List.mem_map_of_mem hf) (by rwa [List.map_nil, List.append_nil])
  rw [List.append_nil] at hcollect
  exact ⟨_, hcollect, fun _ _ h => lookup_of_mem hkeys h⟩

theorem get?_of_lookup {α : Type} {r : Record} {name : String} {d : Document}
    (h : r.lookup name = some d) (read? : Document → Option α) (default : α) :
    r.get? name read? default = read? d := by
  rw [Record.get?, h]

end record

end Document

end Tinct
