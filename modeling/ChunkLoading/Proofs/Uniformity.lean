import ChunkLoading.Proofs.History
import ChunkLoading.Proofs.Order

/-!
# Runtimes of one queue

What a runtime gains follows from the deliveries that it merges, in their order. So runtimes that get their
deliveries through one queue, and in order, have the same module table and the same loaded chunks
(`runtimes_agree`): it does not matter when they were installed, nor what else happens to them.
-/

namespace ChunkLoading.Page

variable {p : Page} {onInject onHint : List (ChunkId × Script)} {ms : List Move} {q : String}
  {r r' : RuntimeId}

/-- Nothing is pushed to a queue while a delivery is still to be merged. -/
def Orderly (q : String) (p : Page) (ms : List Move) : Prop :=
  p.Always (fun p m => ((p.errand m).pushed? q).isSome → p.agenda.flatMap Task.merges = []) ms

/-- The parcels of a runtime that is installed on one queue only come through that queue. -/
theorem goes_of_arrived (only : ∀ q', r ∈ (fresh onInject onHint).installed q' ms → q' = q)
    {y : Parcel} (arrived : y ∈ ((fresh onInject onHint).post ms).arrived) :
    y.goes q r = true ↔ y.runtime = r := by
  simp only [Parcel.goes, Bool.and_eq_true, decide_eq_true_eq, and_iff_right_iff_imp]
  intro own
  by_contra other
  have absent : r ∉ (fresh onInject onHint).installed y.queue ms := fun installed => other (only _ installed)
  have none := ((deliveries_follow rfl).2.2 y.queue r).2 absent
  have some : y.number ∈ Parcel.numbers y.queue r ((fresh onInject onHint).post ms).arrived :=
    List.mem_map_of_mem (List.mem_filter.mpr ⟨arrived, by simp [Parcel.goes, own]⟩)
  rw [none] at some
  cases some

/-- What a queue of a page holds is what the run has put there. -/
theorem queue_follow (run : (fresh onInject onHint).follow ms = p) (q : String) :
    (p.queue q).delivered = (fresh onInject onHint).pushed q ms ∧
      ∀ r, r ∈ (p.queue q).consumers ↔ r ∈ (fresh onInject onHint).installed q ms := by
  have posted := posted_follow onInject onHint ms
  rw [run] at posted
  exact ⟨(posted.delivered q).trans (Post.delivered_after ..), fun r => by
    rw [show (p.queue q).consumers = _ from posted.consumers q, Post.mem_consumers_after]
    rfl⟩

/-- A runtime that is installed on one queue merges what is pushed there, in order, if nothing is pushed
while deliveries are being merged. -/
theorem mergedBy_eq_delivered (run : (fresh onInject onHint).follow ms = p) (quiet : p.agenda = [])
    (installed : ∀ q', r ∈ (p.queue q').consumers ↔ q' = q)
    (orderly : (fresh onInject onHint).Orderly q ms) : p.mergedBy r = (p.queue q).delivered := by
  obtain ⟨delivered, consumers⟩ := queue_follow run q
  have order := merges_inOrder_of_calm run quiet ((consumers r).mp ((installed q).mpr rfl))
    fun _ _ _ split => orderly.at split
  have only (q' : String) (found : r ∈ (fresh onInject onHint).installed q' ms) : q' = q :=
    (installed q').mp (((queue_follow run q').2 r).mpr found)
  rw [delivered]
  obtain ⟨merges, content, -⟩ := deliveries_follow run
  let ys := ((fresh onInject onHint).post ms).arrived.filter (Parcel.goes q r)
  have merged : p.mergedBy r = ys.map Parcel.delivery := by
    unfold mergedBy
    rw [merges, List.filterMap_map, ← List.filterMap_eq_map, List.filterMap_filter]
    refine List.filterMap_congr fun y arrived => ?_
    have goes := goes_of_arrived only arrived
    by_cases own : y.runtime = r
    · simp [Parcel.content, own, goes.mpr own]
    · simp [Parcel.content, own, mt goes.mp own]
  -- What is held under the numbers of all that was pushed is all that was pushed.
  have held : ys.map (fun y => some y.delivery) =
      ((fresh onInject onHint).pushed q ms).map some := by
    have each : ys.map (fun y => some y.delivery) =
        (ys.map Parcel.number).map fun n => ((fresh onInject onHint).pushed q ms)[n]? := by
      rw [List.map_map]
      refine List.map_congr_left fun y member => ?_
      obtain ⟨arrived, goes⟩ := List.mem_filter.mp member
      have queue : y.queue = q := by
        simp only [Parcel.goes, Bool.and_eq_true, decide_eq_true_eq] at goes
        exact goes.1
      rw [← queue]
      exact (content y arrived).symm
    rw [each, show ys.map Parcel.number = _ from order]
    exact List.ext_getElem (by simp) fun n _ _ => by simp
  rw [merged]
  refine List.map_injective_iff.mpr (fun _ _ => Option.some.inj) ?_
  rw [List.map_map]
  exact held

/-- **The runtimes of a page agree.** Take two runtimes that are each installed on one and the same queue, at
any two points of a run in which nothing is pushed to that queue while deliveries are being merged. When
nothing is going on, both have the same factory for every module, and a chunk is loaded in both or in
neither, unless it shipped with one of them and was never pushed. -/
theorem runtimes_agree (run : (fresh onInject onHint).follow ms = p) (quiet : p.agenda = [])
    (installed : ∀ q', r ∈ (p.queue q').consumers ↔ q' = q)
    (installed' : ∀ q', r' ∈ (p.queue q').consumers ↔ q' = q)
    (orderly : (fresh onInject onHint).Orderly q ms) :
    (∀ m, (p.store r).factory? m = (p.store r').factory? m) ∧
    ∀ c, ((p.store r).isLoaded c ↔ (p.store r').isLoaded c) ∨
      (∀ d ∈ (p.queue q).delivered, c ∉ d.chunks) ∧
        ((fresh onInject onHint).BuiltWith ms r c ∨ (fresh onInject onHint).BuiltWith ms r' c) := by
  obtain ⟨loaded, factories⟩ := history_follow run r
  obtain ⟨loaded', factories'⟩ := history_follow run r'
  rw [mergedBy_eq_delivered run quiet installed orderly] at loaded factories
  rw [mergedBy_eq_delivered run quiet installed' orderly] at loaded' factories'
  refine ⟨fun m => (factories m).trans (factories' m).symm, fun c => ?_⟩
  rw [loaded, loaded']
  by_cases delivered : ∃ d ∈ (p.queue q).delivered, c ∈ d.chunks
  · exact .inl (iff_of_true (.inr delivered) (.inr delivered))
  by_cases shipped : (fresh onInject onHint).BuiltWith ms r c ∨ (fresh onInject onHint).BuiltWith ms r' c
  · exact .inr ⟨fun d member brought => delivered ⟨d, member, brought⟩, shipped⟩
  · obtain ⟨not, not'⟩ := not_or.mp shipped
    exact .inl (iff_of_false (not_or.mpr ⟨not, delivered⟩) (not_or.mpr ⟨not', delivered⟩))

/-- A runtime gets a delivery live, and a later one gets it by replay. A load of the first one fails, a chunk
is hinted by the second one, and the two deliveries have factories for one module that clash. -/
def replayed : List Move :=
  List.flatMap (fun x => .call x.1 false :: List.replicate x.2 .task)
    [(.create "main" (.ok { Blueprint.standard with initialChunks := [.number 1] }) none, 2),
      (.install "main" "chunks", 2), (.push "chunks" ⟨[.number 7], [⟨.number 5, none, []⟩], [], []⟩, 5),
      (.ensure "main" (.number 8) none, 4), (.create "late" (.ok .standard) none, 2),
      (.install "late" "chunks", 5), (.complete (.number 0) .error, 2),
      (.hint "late" (.number 9) .prefetch, 3),
      (.push "chunks" ⟨[.number 8], [⟨.number 5, none, []⟩, ⟨.number 6, none, []⟩], [], []⟩, 8)]

theorem runtimes_agree_replayed : ((fresh [] []).follow replayed).agenda = [] ∧
    (fresh [] []).BuiltWith replayed 0 (.number 1) ∧
    (((fresh [] []).follow replayed).store 0).factory? (.number 5) = some 0 ∧
    (∀ m, (((fresh [] []).follow replayed).store 0).factory? m =
      (((fresh [] []).follow replayed).store 1).factory? m) ∧
    ((((fresh [] []).follow replayed).store 0).isLoaded (.number 8) ↔
      (((fresh [] []).follow replayed).store 1).isLoaded (.number 8)) := by
  have quiet : ((fresh [] []).follow replayed).agenda = [] := rfl
  have orderly : (fresh [] []).Orderly "chunks" replayed := by
    unfold Orderly
    decide
  have queues : ((fresh [] []).follow replayed).queues = ⟨[("chunks",
      ⟨[⟨[.number 7], [(.number 5, 0)], [], []⟩, ⟨[.number 8], [(.number 5, 1), (.number 6, 2)], [], []⟩],
        [0, 1]⟩)]⟩ := rfl
  have installed {r : RuntimeId} (both : r ∈ [0, 1]) (q : String) :
      r ∈ (((fresh [] []).follow replayed).queue q).consumers ↔ q = "chunks" := by
    by_cases same : "chunks" = q
    · simpa [queue, queues, Assoc.get?, Assoc.find, same] using both
    · simp [queue, queues, Assoc.get?, Assoc.find, same, Ne.symm same, Queue.empty]
  obtain ⟨tables, loaded⟩ :=
    runtimes_agree rfl quiet (installed (r := 0) (by simp)) (installed (r := 1) (by simp)) orderly
  have pushed : (((fresh [] []).follow replayed).queue "chunks").delivered.any
      (·.chunks.contains (.number 8)) := rfl
  refine ⟨quiet, ?_, rfl, tables, (loaded (.number 8)).resolve_right ?_⟩
  · exact ⟨replayed.take 1, .task, replayed.drop 2, { Blueprint.standard with initialChunks := [.number 1] },
      rfl, rfl, rfl, rfl, List.mem_singleton_self _⟩
  · rintro ⟨none, -⟩
    obtain ⟨d, member, brought⟩ := List.any_eq_true.mp pushed
    exact none d member (by simpa using brought)

end ChunkLoading.Page
