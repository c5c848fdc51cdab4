import ChunkLoading.Data.Assoc
import Mathlib.Data.List.Induction
import Mathlib.Data.List.Nodup

/-!
# Tables that are filled key by key

A table that pairs are put into one after the other has the keys of the pairs, each once (`Assoc.keys_setAll`),
and for each key the value that came last (`Assoc.get?_setAll`); if no key comes twice, its entries are the pairs
in their order (`Assoc.entries_setAll`).
-/

namespace ChunkLoading

/-- The value that pairs give a key last. -/
def lastValue? {κ ν : Type} [DecidableEq κ] (k : κ) (ps : List (κ × ν)) : Option ν :=
  (ps.filter (·.1 = k)).getLast?.map (·.2)

/-- What comes last counts. -/
theorem lastValue?_concat {κ ν : Type} [DecidableEq κ] (k : κ) (ps : List (κ × ν)) (p : κ × ν) :
    lastValue? k (ps ++ [p]) = if p.1 = k then some p.2 else lastValue? k ps := by
  unfold lastValue?
  rw [List.filter_append]
  by_cases same : p.1 = k
  · simp [same]
  · simp [same]

namespace Assoc

variable {κ ν μ : Type} [DecidableEq κ]

/-! ## Setting keys -/

/-- A new key comes behind the others. -/
theorem put_new {k : κ} {v : ν} {es : List (κ × ν)}
    (new : k ∉ es.map (·.1)) : put k v es = es ++ [(k, v)] := by
  induction es with
  | nil => rfl
  | cons e es ih =>
    obtain ⟨k', v'⟩ := e
    rw [List.map_cons, List.mem_cons, not_or] at new
    rw [put, if_neg (Ne.symm new.1), ih new.2]
    rfl

/-- A table whose keys are set once has the entries in their order. -/
theorem entries_setAll {a : Assoc κ ν} {ps : List (κ × ν)}
    (once : ((a.entries ++ ps).map (·.1)).Nodup) : (a.setAll ps).entries = a.entries ++ ps := by
  induction ps generalizing a with
  | nil => simp [setAll]
  | cons p ps ih =>
    have new : p.1 ∉ a.entries.map (·.1) := by
      intro old
      rw [List.map_append, List.nodup_append] at once
      exact once.2.2 p.1 old p.1 (by simp) rfl
    have set : (a.set p.1 p.2).entries = a.entries ++ [p] := put_new new
    have once' : (((a.set p.1 p.2).entries ++ ps).map (·.1)).Nodup := by simpa [set] using once
    show ((a.set p.1 p.2).setAll ps).entries = _
    rw [ih once', set, List.append_assoc]
    rfl

/-- An entry of a table was there before, or was set. -/
theorem mem_of_mem_setAll {a : Assoc κ ν} {ps : List (κ × ν)}
    {e : κ × ν} (member : e ∈ (a.setAll ps).entries) : e ∈ a.entries ∨ e ∈ ps := by
  induction ps generalizing a with
  | nil => exact .inl member
  | cons p ps ih =>
    rcases ih (a := a.set p.1 p.2) member with old | later
    · rcases mem_of_mem_set old with rfl | old
      · exact .inr List.mem_cons_self
      · exact .inl old
    · exact .inr (List.mem_cons_of_mem _ later)

/-- A key keeps its place when it gets another value. -/
theorem keys_put (k : κ) (v : ν) (es : List (κ × ν)) : (put k v es).map (·.1) =
    if k ∈ es.map (·.1) then es.map (·.1) else es.map (·.1) ++ [k] := by
  induction es with
  | nil => rfl
  | cons e es ih =>
    obtain ⟨k', v'⟩ := e
    by_cases same : k' = k
    · simp [put, same]
    · rw [put, if_neg same, List.map_cons, ih]
      by_cases later : k ∈ es.map (·.1) <;> simp [Ne.symm same, later]

/-- The keys of a table that is set key by key are the given ones, each once. -/
theorem keys_setAll (a : Assoc κ ν) (ps : List (κ × ν)) (once : a.keys.Nodup) :
    (a.setAll ps).keys.Nodup ∧ ∀ k, k ∈ (a.setAll ps).keys ↔ k ∈ a.keys ∨ k ∈ ps.map (·.1) := by
  induction ps generalizing a with
  | nil => simp [setAll, once]
  | cons p ps ih =>
    have keys : (a.set p.1 p.2).keys = if p.1 ∈ a.keys then a.keys else a.keys ++ [p.1] :=
      keys_put p.1 p.2 a.entries
    have once' : (a.set p.1 p.2).keys.Nodup := by
      rw [keys]
      split
      · exact once
      · rename_i new
        exact List.nodup_append.mpr ⟨once, List.nodup_singleton _, by simp; grind⟩
    obtain ⟨nodup, members⟩ := ih (a.set p.1 p.2) once'
    refine ⟨nodup, fun k => ?_⟩
    rw [show a.setAll (p :: ps) = (a.set p.1 p.2).setAll ps from rfl, members, keys]
    split <;> simp <;> grind

/-- Of several values that a key is set to, the last one counts. -/
theorem get?_setAll (a : Assoc κ ν) (ps : List (κ × ν)) (k : κ) :
    (a.setAll ps).get? k = (lastValue? k ps).or (a.get? k) := by
  induction ps using List.reverseRecOn with
  | nil => rfl
  | append_singleton ps p ih =>
    have last : a.setAll (ps ++ [p]) = (a.setAll ps).set p.1 p.2 := by
      simp only [setAll, List.foldl_append, List.foldl_cons, List.foldl_nil]
    rw [last, get?_set, ih, lastValue?_concat]
    split
    · rfl
    · rfl

/-- Entries are set one after the other. -/
theorem setAll_append (a : Assoc κ ν) (ps qs : List (κ × ν)) :
    a.setAll (ps ++ qs) = (a.setAll ps).setAll qs :=
  List.foldl_append

/-! ## Looking keys up -/

/-- A table is looked up as a list of entries is. -/
theorem find_eq_lookup (k : κ) (es : List (κ × ν)) :
    find k es = es.lookup k := by
  induction es with
  | nil => rfl
  | cons e es ih =>
    obtain ⟨k', v⟩ := e
    by_cases same : k = k'
    · subst same
      simp [find]
    · rw [find, if_neg (Ne.symm same), List.lookup_cons, beq_eq_false_iff_ne.mpr same]
      exact ih

/-- A table whose keys are set once is looked up like the list that it was made from. -/
theorem get?_ofList {ps : List (κ × ν)}
    (once : (ps.map (·.1)).Nodup) (k : κ) : (ofList ps).get? k = ps.lookup k := by
  have entries : (ofList ps).entries = ps := entries_setAll once
  rw [get?, find_eq_lookup, entries]

/-! ## Mapping values -/

def mapValues (f : ν → μ) (a : Assoc κ ν) : Assoc κ μ := ⟨a.entries.map fun e => (e.1, f e.2)⟩

/-- A key has the value that was made from its own. -/
@[simp] theorem get?_mapValues (f : ν → μ) (a : Assoc κ ν) (k : κ) :
    (a.mapValues f).get? k = (a.get? k).map f := by
  obtain ⟨es⟩ := a
  simp only [get?, mapValues]
  induction es with
  | nil => rfl
  | cons e es ih =>
    simp only [List.map_cons, find]
    split
    · rfl
    · exact ih

/-- A key may get its value before or after the values are mapped. -/
theorem set_mapValues (f : ν → μ) (a : Assoc κ ν) (k : κ) (v : ν) :
    (a.set k v).mapValues f = (a.mapValues f).set k (f v) := by
  obtain ⟨es⟩ := a
  have entries : (put k v es).map (fun e => (e.1, f e.2)) =
      put k (f v) (es.map fun e => (e.1, f e.2)) := by
    induction es with
    | nil => rfl
    | cons e es ih =>
      simp only [put, List.map_cons]
      split
      · rfl
      · rw [List.map_cons, ih]
  exact congrArg Assoc.mk entries

omit [DecidableEq κ] in
@[simp] theorem isEmpty_mapValues (f : ν → μ) (a : Assoc κ ν) :
    (a.mapValues f).isEmpty = a.isEmpty := by
  simp [isEmpty, mapValues]

end Assoc

end ChunkLoading
