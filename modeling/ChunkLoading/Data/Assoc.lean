/-!
# Association tables

Finite tables from keys to values, in the order in which keys were first set. A table is known by
what `get?` gives.
-/

namespace ChunkLoading

structure Assoc (κ ν : Type) where
  entries : List (κ × ν)
  deriving DecidableEq

namespace Assoc

variable {κ ν : Type} [DecidableEq κ]

def empty : Assoc κ ν := ⟨[]⟩

instance : Inhabited (Assoc κ ν) := ⟨⟨[]⟩⟩

/-- The value of the first entry with a key. -/
def find (k : κ) : List (κ × ν) → Option ν
  | [] => none
  | (k', v) :: rest => if k' = k then some v else find k rest

/-- Gives a key a value in place, or adds it at the end. -/
def put (k : κ) (v : ν) : List (κ × ν) → List (κ × ν)
  | [] => [(k, v)]
  | (k', v') :: rest => if k' = k then (k, v) :: rest else (k', v') :: put k v rest

def get? (a : Assoc κ ν) (k : κ) : Option ν := find k a.entries

def set (a : Assoc κ ν) (k : κ) (v : ν) : Assoc κ ν := ⟨put k v a.entries⟩

def erase (a : Assoc κ ν) (k : κ) : Assoc κ ν := ⟨a.entries.filter (·.1 ≠ k)⟩

def contains (a : Assoc κ ν) (k : κ) : Bool := (a.get? k).isSome

def keys (a : Assoc κ ν) : List κ := a.entries.map (·.1)

/-- Sets keys in the order of a list, so that the last value of a key counts. -/
def setAll (a : Assoc κ ν) (ps : List (κ × ν)) : Assoc κ ν :=
  ps.foldl (fun a p => a.set p.1 p.2) a

def ofList (ps : List (κ × ν)) : Assoc κ ν := setAll ⟨[]⟩ ps

def isEmpty (a : Assoc κ ν) : Bool := a.entries.isEmpty

theorem find_put (k k' : κ) (v : ν) (es : List (κ × ν)) :
    find k' (put k v es) = if k = k' then some v else find k' es := by
  induction es with
  | nil => simp [find, put]
  | cons e es ih =>
    obtain ⟨k₀, v₀⟩ := e
    by_cases h : k₀ = k
    · subst h
      by_cases h' : k₀ = k' <;> simp [find, put, h']
    · by_cases h' : k₀ = k'
      · subst h'
        simp [find, put, h, Ne.symm h]
      · simp [find, put, h, h', ih]

/-- Setting a key changes the value of that key alone. -/
@[simp] theorem get?_set (a : Assoc κ ν) (k k' : κ) (v : ν) :
    (a.set k v).get? k' = if k = k' then some v else a.get? k' :=
  find_put k k' v a.entries

/-- Erasing a key takes away the value of that key alone. -/
@[simp] theorem get?_erase (a : Assoc κ ν) (k k' : κ) :
    (a.erase k).get? k' = if k = k' then none else a.get? k' := by
  obtain ⟨es⟩ := a
  simp only [get?, erase]
  induction es with
  | nil => simp [find]
  | cons e es ih =>
    obtain ⟨k₀, v₀⟩ := e
    by_cases h : k₀ = k
    · subst h
      by_cases h' : k₀ = k'
      · subst h'
        simpa using ih
      · simpa [find, h'] using ih
    · by_cases h' : k₀ = k'
      · subst h'
        simp [find, h, Ne.symm h]
      · simpa [find, h, h'] using ih

/-- What a key is found to have is an entry of the table. -/
theorem mem_of_get? {a : Assoc κ ν} {k : κ} {v : ν} (h : a.get? k = some v) :
    (k, v) ∈ a.entries := by
  obtain ⟨es⟩ := a
  simp only [get?] at h
  induction es with
  | nil => simp [find] at h
  | cons e es ih =>
    obtain ⟨k', v'⟩ := e
    by_cases same : k' = k
    · simp_all [find]
    · simp only [find, same, if_false] at h
      exact List.mem_cons_of_mem _ (ih h)

theorem mem_of_mem_put {k : κ} {v : ν} {e : κ × ν} {es : List (κ × ν)} (h : e ∈ put k v es) :
    e = (k, v) ∨ e ∈ es := by
  induction es with
  | nil => simpa [put] using h
  | cons e' es ih =>
    obtain ⟨k', v'⟩ := e'
    by_cases same : k' = k
    · simp only [put, same, if_true] at h
      rcases List.mem_cons.mp h with h | h
      · exact .inl h
      · exact .inr (List.mem_cons_of_mem _ h)
    · simp only [put, same, if_false] at h
      rcases List.mem_cons.mp h with h | h
      · exact .inr (h ▸ List.mem_cons_self)
      · exact (ih h).imp id (List.mem_cons_of_mem _)

/-- Setting a key adds at most the entry of that key. -/
theorem mem_of_mem_set {a : Assoc κ ν} {k : κ} {v : ν} {e : κ × ν}
    (h : e ∈ (a.set k v).entries) : e = (k, v) ∨ e ∈ a.entries :=
  mem_of_mem_put h

theorem mem_of_mem_erase {a : Assoc κ ν} {k : κ} {e : κ × ν} (h : e ∈ (a.erase k).entries) :
    e ∈ a.entries :=
  (List.mem_filter.mp h).1

end Assoc

end ChunkLoading
