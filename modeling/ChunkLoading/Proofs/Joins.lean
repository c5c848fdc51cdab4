import ChunkLoading.Page.Future

/-!
# How joins end

A join of a few loads looks at all of them, a join of many takes them in order. Both end well if all loads do.
They differ when a load fails behind one that is pending: a join of a few fails at once, a join of many goes
on. A join that has failed stays failed.
-/

namespace ChunkLoading.Join

theorem firstFailure?_eq_none {results : List (Option LoadResult)} :
    firstFailure? results = none ↔ ∀ e, some (.failed e) ∉ results := by
  unfold firstFailure?
  rw [List.findSome?_eq_none_iff]
  constructor
  · intro none e member
    cases none _ member
  · intro none result member
    cases result with
    | none => rfl
    | some result =>
      cases result with
      | ok => rfl
      | failed e => exact absurd member (none e)

theorem inOrder_eq_ok {results : List (Option LoadResult)} :
    inOrder results = some .ok ↔ ∀ result ∈ results, result = some .ok := by
  induction results with
  | nil => simp [inOrder]
  | cons result results ih =>
    cases result with
    | none => simp [inOrder]
    | some result => cases result <;> simp [inOrder, ih]

/-- Looked at all together, loads end well when each of them has. -/
theorem together_eq_ok {results : List (Option LoadResult)} :
    together results = some .ok ↔ ∀ result ∈ results, result = some .ok := by
  unfold together
  cases failure : firstFailure? results with
  | some e =>
    -- One failure is enough for the join to fail.
    have failed : ¬ ∀ e, some (.failed e) ∉ results := by
      rw [← firstFailure?_eq_none, failure]
      exact Option.some_ne_none e
    simp only [Option.some.injEq, reduceCtorEq, false_iff]
    intro ok
    refine failed fun e member => ?_
    cases ok _ member
  | none =>
    have unfailed := firstFailure?_eq_none.mp failure
    constructor
    · intro all result member
      -- Without a failure the join waits until all have ended.
      have ended : results.all Option.isSome := by
        by_cases ended : results.all Option.isSome
        · exact ended
        · rw [if_neg ended] at all
          cases all
      cases result with
      | none => cases List.all_eq_true.mp ended _ member
      | some result =>
        cases result with
        | ok => rfl
        | failed e => exact absurd member (unfailed e)
    · intro all
      refine if_pos (List.all_eq_true.mpr fun result member => ?_)
      rw [all result member]
      rfl

/-- **A join ends well if all that it joins do**, however many they are. -/
theorem all_eq_ok {results : List (Option LoadResult)} :
    all results = some .ok ↔ ∀ result ∈ results, result = some .ok := by
  unfold all
  split
  · exact together_eq_ok
  · exact inOrder_eq_ok

/-! ## The first failure -/

variable {before after : List (Option LoadResult)} {e : LoadError}

/-- If any of the loads failed, one of them is the first that did. -/
theorem exists_first {α : Type} (stands : α → Option LoadResult) {loads : List α}
    (failed : ∃ a ∈ loads, ∃ e, stands a = some (.failed e)) :
    ∃ before a after e, loads = before ++ a :: after ∧ stands a = some (.failed e) ∧
      ∀ b ∈ before, ∀ e, stands b ≠ some (.failed e) := by
  induction loads with
  | nil => exact absurd failed (by simp)
  | cons b loads ih =>
    by_cases now : ∃ e, stands b = some (.failed e)
    · obtain ⟨e, now⟩ := now
      exact ⟨[], b, loads, e, rfl, now, by simp⟩
    · have later : ∃ a ∈ loads, ∃ e, stands a = some (.failed e) := by
        obtain ⟨a, member, e, failed⟩ := failed
        rcases List.mem_cons.mp member with rfl | member
        · exact absurd ⟨e, failed⟩ now
        · exact ⟨a, member, e, failed⟩
      -- This one has not failed, so it comes before the first that has.
      obtain ⟨before, a, after, e, rfl, failed, none⟩ := ih later
      refine ⟨b :: before, a, after, e, rfl, failed, ?_⟩
      exact List.forall_mem_cons.mpr ⟨fun e failed => now ⟨e, failed⟩, none⟩

/-- Looked at all together, the first failure in the list counts. -/
theorem together_of_first (unfailed : ∀ e, some (.failed e) ∉ before) :
    together (before ++ some (.failed e) :: after) = some (.failed e) := by
  have first : firstFailure? (before ++ some (.failed e) :: after) = some e := by
    have none : before.findSome? _ = none := firstFailure?_eq_none.mpr unfailed
    rw [firstFailure?, List.findSome?_append, none]
    rfl
  rw [together, first]

/-- Loads that ended well are passed over. -/
theorem inOrder_append (rest : List (Option LoadResult)) (ok : ∀ x ∈ before, x = some .ok) :
    inOrder (before ++ rest) = inOrder rest := by
  induction before with
  | nil => rfl
  | cons x before ih =>
    obtain ⟨rfl, later⟩ := List.forall_mem_cons.mp ok
    exact ih later

/-- Looked at in order, a load that is under way hides those behind it. -/
theorem inOrder_of_pending (rest : List (Option LoadResult)) (unfailed : ∀ e, some (.failed e) ∉ before)
    (pending : none ∈ before) : inOrder (before ++ rest) = none := by
  induction before with
  | nil => cases pending
  | cons x before ih =>
    cases x with
    | none => rfl
    | some result =>
      cases result with
      | failed e => exact absurd List.mem_cons_self (unfailed e)
      | ok =>
        refine ih (fun e member => unfailed e (List.mem_cons_of_mem _ member)) ?_
        exact (List.mem_cons.mp pending).resolve_left nofun

/-- **A join fails with the first failure in its list**, if it looks at all loads, or all before that one
ended well. -/
theorem all_of_first (unfailed : ∀ e, some (.failed e) ∉ before)
    (seen : (before ++ some (.failed e) :: after).length ≤ small ∨ ∀ x ∈ before, x = some .ok) :
    all (before ++ some (.failed e) :: after) = some (.failed e) := by
  unfold all
  split
  · exact together_of_first unfailed
  · rename_i many
    exact inOrder_append _ (seen.resolve_left many)

/-- A join of many goes on while a load is pending before the first that failed. -/
theorem all_of_pending (unfailed : ∀ e, some (.failed e) ∉ before) (pending : none ∈ before)
    (many : small < (before ++ some (.failed e) :: after).length) :
    all (before ++ some (.failed e) :: after) = none := by
  rw [all, if_neg (Nat.not_le.mpr many)]
  exact inOrder_of_pending _ unfailed pending

/-! ## Joins that have failed -/

theorem mem_of_firstFailure? {results : List (Option LoadResult)}
    (failure : firstFailure? results = some e) : some (.failed e) ∈ results := by
  obtain ⟨result, member, failed⟩ := List.exists_of_findSome?_eq_some failure
  cases result with
  | none => cases failed
  | some result =>
    cases result with
    | ok => cases failed
    | failed e' =>
      obtain rfl := Option.some.inj failed
      exact member

theorem together_failed_iff {results : List (Option LoadResult)} :
    (∃ e, together results = some (.failed e)) ↔ ∃ e, some (.failed e) ∈ results := by
  constructor
  · intro ⟨e, failed⟩
    cases failure : firstFailure? results with
    | some e' => exact ⟨e', mem_of_firstFailure? failure⟩
    | none =>
      rw [together, failure] at failed
      simp only at failed
      split at failed <;> cases failed
  · intro ⟨e, member⟩
    cases failure : firstFailure? results with
    | none => exact absurd member (firstFailure?_eq_none.mp failure e)
    | some e' => exact ⟨e', by rw [together, failure]⟩

variable {α : Type} {stands stands' : α → Option LoadResult} {loads : List α}

theorem inOrder_failed_of_kept
    (kept : ∀ a ∈ loads, ∀ result, stands a = some result → stands' a = some result)
    (failed : inOrder (loads.map stands) = some (.failed e)) :
    inOrder (loads.map stands') = some (.failed e) := by
  induction loads with
  | nil => cases failed
  | cons a loads ih =>
    obtain ⟨here, later⟩ := List.forall_mem_cons.mp kept
    rw [List.map_cons] at failed ⊢
    cases now : stands a with
    | none =>
      rw [now] at failed
      cases failed
    | some result =>
      rw [now] at failed
      rw [here result now]
      cases result with
      | ok => exact ih later failed
      | failed e' => exact failed

/-- **A join that has failed stays failed**, as long as the loads that have ended stay as they are. -/
theorem all_failed_of_kept
    (kept : ∀ a ∈ loads, ∀ result, stands a = some result → stands' a = some result)
    (failed : all (loads.map stands) = some (.failed e)) :
    ∃ e', all (loads.map stands') = some (.failed e') := by
  unfold all at failed ⊢
  rw [List.length_map] at failed ⊢
  split at failed
  · rename_i few
    rw [if_pos few]
    -- Some load failed, and it is still among those that did.
    obtain ⟨e', member⟩ := together_failed_iff.mp ⟨e, failed⟩
    obtain ⟨a, among, failed⟩ := List.mem_map.mp member
    exact together_failed_iff.mpr ⟨e', List.mem_map.mpr ⟨a, among, kept a among _ failed⟩⟩
  · rename_i many
    rw [if_neg many]
    exact ⟨e, inOrder_failed_of_kept kept failed⟩

end ChunkLoading.Join
