import ChunkLoading.Proofs.Deliveries

/-!
# The order of deliveries

A runtime merges the deliveries of a queue in the order in which they were pushed exactly if none of
them is pushed while an earlier one is still on its way to that runtime (`merges_inOrder`). Pushes
that come while nothing is being merged keep the order (`merges_inOrder_of_calm`). A push from an
entry does not: the newest runtime ends its merge, entries included, before an older one begins, and
so the older one may merge the second delivery before the first (`merges_overtaken`).
-/

namespace ChunkLoading.Page

variable {p : Page} {onInject onHint : List (ChunkId × Script)} {ms : List Move} {q : String}
  {r : RuntimeId}

/-- An errand of a run is that of one of its moves. -/
theorem errands_eq_append {before later : List Errand} {e : Errand} :
    p.errands ms = before ++ e :: later ↔ ∃ ms₁ m ms₂, ms = ms₁ ++ m :: ms₂ ∧
      p.errands ms₁ = before ∧ (p.follow ms₁).errand m = e ∧
      ((p.follow ms₁).make m).errands ms₂ = later := by
  constructor
  · intro split
    induction before generalizing p ms with
    | nil =>
      cases ms with
      | nil => cases split
      | cons m ms =>
        obtain ⟨first, others⟩ := List.cons.inj split
        exact ⟨[], m, ms, rfl, rfl, first, others⟩
    | cons e' before ih =>
      cases ms with
      | nil => cases split
      | cons m' ms =>
        obtain ⟨first, others⟩ := List.cons.inj split
        obtain ⟨ms₁, m, ms₂, moves, rfl, rfl, rfl⟩ := ih others
        refine ⟨m' :: ms₁, m, ms₂, by rw [moves, List.cons_append], ?_, rfl, rfl⟩
        rw [errands, first]
  · rintro ⟨ms₁, m, ms₂, rfl, rfl, rfl, rfl⟩
    induction ms₁ generalizing p with
    | nil => rfl
    | cons m' ms₁ ih => simp [errands, ih]

/-- **Deliveries come to a runtime in order exactly as long as none overtakes another.** -/
theorem post_inOrder (p : Page) (ms : List Move) (q : String) (r : RuntimeId) :
    (p.post ms).InOrder q r ↔ ∀ before m later, ms = before ++ m :: later →
      ¬ (p.post before).Overtakes q r ((p.follow before).errand m) := by
  unfold post
  rw [Post.inOrder_after]
  constructor
  · intro never before m later moves
    exact never _ _ _ (errands_eq_append.mpr ⟨before, m, later, moves, rfl, rfl, rfl⟩)
  · intro never before e later moves
    obtain ⟨ms₁, m, ms₂, split, rfl, rfl, rfl⟩ := errands_eq_append.mp moves
    exact never ms₁ m ms₂ split

/-- When nothing is going on, the deliveries that came in order are all that were pushed. -/
theorem arrived_eq_range_iff (run : (fresh onInject onHint).follow ms = p) (quiet : p.agenda = [])
    (consumer : r ∈ (fresh onInject onHint).installed q ms) :
    Parcel.numbers q r ((fresh onInject onHint).post ms).arrived =
        List.range ((fresh onInject onHint).pushed q ms).length ↔
      ((fresh onInject onHint).post ms).InOrder q r := by
  have none : ((fresh onInject onHint).follow ms).agenda.flatMap Task.merges = [] := by
    rw [run, quiet]
    rfl
  have once := arrived_perm consumer none
  rw [Post.InOrder, Post.numbers, coming_eq_nil none, List.append_nil]
  constructor
  · intro same
    rw [same]
    exact List.pairwise_lt_range
  · intro increasing
    -- Both lists hold the same numbers, and both are increasing.
    exact once.eq_of_pairwise (fun _ _ _ _ below above => absurd above (Nat.lt_asymm below))
      increasing List.pairwise_lt_range

/-- **When nothing is going on, a runtime has merged the deliveries of a queue as they were pushed
exactly if no delivery was pushed to that queue while another was on its way to the runtime.** -/
theorem merges_inOrder (run : (fresh onInject onHint).follow ms = p) (quiet : p.agenda = [])
    (consumer : r ∈ (fresh onInject onHint).installed q ms) :
    Parcel.numbers q r ((fresh onInject onHint).post ms).arrived =
        List.range ((fresh onInject onHint).pushed q ms).length ↔
      ∀ before m later, ms = before ++ m :: later →
        ¬ ((fresh onInject onHint).post before).Overtakes q r
          (((fresh onInject onHint).follow before).errand m) :=
  (arrived_eq_range_iff run quiet consumer).trans (post_inOrder ..)

/-- Deliveries that are pushed while nothing is being merged keep the order. -/
theorem merges_inOrder_of_calm (run : (fresh onInject onHint).follow ms = p)
    (quiet : p.agenda = []) (consumer : r ∈ (fresh onInject onHint).installed q ms)
    (calm : ∀ before m later, ms = before ++ m :: later →
      ((((fresh onInject onHint).follow before).errand m).pushed? q).isSome →
      ((fresh onInject onHint).follow before).agenda.flatMap Task.merges = []) :
    Parcel.numbers q r ((fresh onInject onHint).post ms).arrived =
      List.range ((fresh onInject onHint).pushed q ms).length := by
  rw [arrived_eq_range_iff run quiet consumer, post_inOrder]
  rintro before m later moves ⟨pushes, coming⟩
  rw [coming_eq_nil (calm before m later moves pushes)] at coming
  exact coming rfl

/-- Two runtimes are installed, of which the older one runs no entries, and a delivery whose entry
pushes another one is pushed. -/
def overtaking : List Move :=
  List.flatMap (fun x => .call x.1 false :: List.replicate x.2 .task)
    [(.create "old" (.ok { Blueprint.standard with entryDeferral := false }) none, 2),
      (.install "old" "chunks", 2),
      (.create "new" (.ok .standard) none, 2), (.install "new" "chunks", 2),
      (.push "chunks" ⟨[.number 7], [⟨.number 5, none, [.push "chunks" ⟨[.number 8], [], [], []⟩]⟩],
        [⟨.number 5, [.number 7]⟩], []⟩, 18)]

/-- The newer runtime merges the two deliveries in order, and the older one the second one first. -/
theorem merges_overtaken : ((fresh [] []).follow overtaking).agenda = [] ∧
    (fresh [] []).installed "chunks" overtaking = [0, 1] ∧
    ((fresh [] []).pushed "chunks" overtaking).map Delivery.chunks = [[.number 7], [.number 8]] ∧
    Parcel.numbers "chunks" 1 ((fresh [] []).post overtaking).arrived = [0, 1] ∧
    Parcel.numbers "chunks" 0 ((fresh [] []).post overtaking).arrived = [1, 0] :=
  ⟨rfl, rfl, rfl, rfl, rfl⟩

/-- A delivery overtakes another one on its way to the older runtime, and none on its way to the
newer one. -/
theorem overtaken_older :
    (∀ before m later, overtaking = before ++ m :: later →
      ¬ ((fresh [] []).post before).Overtakes "chunks" 1 (((fresh [] []).follow before).errand m)) ∧
    ¬ ∀ before m later, overtaking = before ++ m :: later →
      ¬ ((fresh [] []).post before).Overtakes "chunks" 0
        (((fresh [] []).follow before).errand m) := by
  have consumers : (fresh [] []).installed "chunks" overtaking = [0, 1] := rfl
  have newer : Parcel.numbers "chunks" 1 ((fresh [] []).post overtaking).arrived = [0, 1] := rfl
  have older : Parcel.numbers "chunks" 0 ((fresh [] []).post overtaking).arrived = [1, 0] := rfl
  have pushed : List.range ((fresh [] []).pushed "chunks" overtaking).length = [0, 1] := rfl
  have run : (fresh [] []).follow overtaking = (fresh [] []).follow overtaking := rfl
  have quiet : ((fresh [] []).follow overtaking).agenda = [] := rfl
  have kept (r : RuntimeId) (consumer : r ∈ [0, 1]) :=
    merges_inOrder run quiet (consumers ▸ consumer : r ∈ (fresh [] []).installed "chunks" overtaking)
  constructor
  · exact (kept 1 (by simp)).mp (newer.trans pushed.symm)
  · intro never
    have same := older.symm.trans (((kept 0 (by simp)).mpr never).trans pushed)
    cases same

end ChunkLoading.Page
