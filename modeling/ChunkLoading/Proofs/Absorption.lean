import ChunkLoading.Page.Loading
import ChunkLoading.Proofs.Store

/-!
# Absorbing a delivery

What a merge comes to for one runtime when nobody calls back meanwhile: `Runtime.absorb` is the
runtime afterwards, and `Runtime.news` lists what has happened to it. A runtime that absorbs a
delivery once more only gets the entries of the delivery again (`Runtime.absorb_again`).
-/

namespace ChunkLoading

namespace Store

variable {s : Store}

/-- Hints chunks in order; gives those that accepted the hint. -/
def hintAll (s : Store) : List ChunkId → List ChunkId × Store
  | [] => ([], s)
  | c :: cs =>
    let (accepted, s) := s.markHinted c
    let (hinted, s) := s.hintAll cs
    (if accepted then c :: hinted else hinted, s)

/-- Chunks are hinted one after the other. -/
theorem hintAll_cons (s : Store) (c : ChunkId) (cs : List ChunkId) : s.hintAll (c :: cs) =
    (if (s.markHinted c).1 then c :: ((s.markHinted c).2.hintAll cs).1
      else ((s.markHinted c).2.hintAll cs).1, ((s.markHinted c).2.hintAll cs).2) := rfl

/-- A hint marks a chunk that nobody asked for, and no other one. -/
theorem state_markHinted (s : Store) (c c' : ChunkId) : (s.markHinted c).2.state c' =
    if s.state c' = .notRequested ∧ c' = c then .hintOnly else s.state c' := by
  rw [markHinted_eq]
  by_cases same : c = c'
  · subst same
    by_cases idle : s.state c = .notRequested <;> simp [idle]
  · by_cases idle : s.state c = .notRequested <;> simp [idle, same, Ne.symm same]

theorem factories_markHinted (s : Store) (c : ChunkId) :
    (s.markHinted c).2.factories = s.factories := by
  rw [markHinted_eq]
  split <;> rfl

/-- Of several chunks, those are marked that nobody asked for. -/
theorem state_hintAll (s : Store) (cs : List ChunkId) (c : ChunkId) : (s.hintAll cs).2.state c =
    if s.state c = .notRequested ∧ c ∈ cs then .hintOnly else s.state c := by
  induction cs generalizing s with
  | nil => simp [hintAll]
  | cons c' cs ih =>
    rw [hintAll_cons, ih, state_markHinted]
    by_cases idle : s.state c = .notRequested
    · by_cases same : c = c'
      · subst same
        simp [idle]
      · simp [idle, same]
    · simp [idle]

/-- Hints have nothing to do with factories. -/
theorem factories_hintAll (s : Store) (cs : List ChunkId) :
    (s.hintAll cs).2.factories = s.factories := by
  induction cs generalizing s with
  | nil => rfl
  | cons c cs ih => rw [hintAll_cons, ih, factories_markHinted]

/-! What was done already leaves a store as it is. -/

/-- Chunks that somebody asked for accept no hint. -/
theorem hintAll_again {cs : List ChunkId} (requested : ∀ c ∈ cs, s.state c ≠ .notRequested) :
    s.hintAll cs = ([], s) := by
  induction cs with
  | nil => rfl
  | cons c cs ih =>
    have first : s.markHinted c = (false, s) := by
      rw [markHinted_eq, if_neg (requested c List.mem_cons_self)]
    rw [hintAll_cons, first, ih fun c' member => requested c' (List.mem_cons_of_mem _ member)]
    rfl

/-- Chunks that are loaded stay as they are. -/
theorem markAll_again {cs : List ChunkId} (loaded : ∀ c ∈ cs, s.state c = .loaded) :
    s.markAll cs = ([], s) := by
  induction cs with
  | nil => rfl
  | cons c cs ih =>
    have first : s.markLoaded c = (none, s) := by
      simp [markLoaded, isLoaded, loaded c List.mem_cons_self]
    rw [markAll_cons, first, ih fun c' member => loaded c' (List.mem_cons_of_mem _ member)]
    rfl

/-- Modules that have a factory keep it. -/
theorem registerAll_again {fs : List (ModuleId × FactoryId)}
    (registered : ∀ x ∈ fs, (s.factory? x.1).isSome) : (s.registerAll fs).2 = s := by
  induction fs with
  | nil => rfl
  | cons x fs ih =>
    obtain ⟨f, held⟩ := Option.isSome_iff_exists.mp (registered x List.mem_cons_self)
    have first : (s.register x.1 x.2).2 = s := by simp [register, held]
    rw [registerAll_cons, first]
    exact ih fun x' member => registered x' (List.mem_cons_of_mem _ member)

/-- A store that has all of a delivery is not changed by it. -/
theorem merge_again {d : Delivery} (loaded : ∀ c ∈ d.chunks, s.state c = .loaded)
    (registered : ∀ x ∈ d.modules, (s.factory? x.1).isSome) : s.merge d = ⟨s, [], [], []⟩ := by
  have all : d.chunks.all s.isLoaded := by
    simpa [isLoaded_iff] using loaded
  have none : d.chunks.filter (!s.isLoaded ·) = [] := by
    simpa [isLoaded] using loaded
  simp [merge, markAll_again loaded, registerAll_again registered, all, none]

end Store

/-- The hint of a chunk under given options. -/
def Options.hint (o : Options) (r : RuntimeId) (c : ChunkId) (kind : HintKind) : Event :=
  .hinted r c kind (o.address c) o.nonce o.crossOrigin

namespace Runtime

variable {rt : Runtime} {d : Delivery}

/-- The chunks of a delivery that a runtime hints. -/
def prefetched (rt : Runtime) (d : Delivery) : List ChunkId := if rt.prefetch then d.prefetch else []

/-- The hints of a delivery that its runtime gives once the delivery is merged, and the store then. -/
def hinting (rt : Runtime) (d : Delivery) : List ChunkId × Store :=
  (rt.store.merge d).store.hintAll (rt.prefetched d)

/-- A runtime after a merge during which nobody calls back. -/
def absorb (rt : Runtime) (d : Delivery) : Runtime :=
  let m := rt.store.merge d
  { rt with
    store := (rt.hinting d).2
    outcomes := m.waiting.foldl (fun o w => o.set w.2 (Page.mergeResult d m.clashes)) rt.outcomes
    worklist := rt.worklist.map fun w => Worklist.waiting (rt.hinting d).2.isLoaded (w ++ d.entries) }

/-- The entries that a merge runs. -/
def runs (rt : Runtime) (d : Delivery) : List DeferredEntry :=
  match rt.worklist with
  | none => []
  | some w => Worklist.ready (rt.hinting d).2.isLoaded (w ++ d.entries)

/-- What happens to chunks, attempts and entries in a merge during which nobody calls back. -/
def news (rt : Runtime) (r : RuntimeId) (d : Delivery) : List Event :=
  let m := rt.store.merge d
  .merged r d :: m.loaded.map (.loaded r ·) ++
    (rt.hinting d).1.map (rt.options.hint r · .prefetch) ++
    m.waiting.map (fun w => .resolved r w.1 w.2 (Page.mergeResult d m.clashes)) ++
    (if rt.worklist.isSome then [.registered r d.entries] else []) ++
    (rt.runs d).map (.entered r ·)

/-! ## Once more -/

/-- A runtime that registers entries of which those that wait are added to its worklist. -/
def enlist (rt : Runtime) (d : Delivery) : Runtime :=
  { rt with worklist := rt.worklist.map (· ++ Worklist.waiting rt.store.isLoaded d.entries) }

/-- What happens when a runtime gets a delivery that it has absorbed. -/
def newsAgain (rt : Runtime) (r : RuntimeId) (d : Delivery) : List Event :=
  .merged r d :: if rt.worklist.isSome then
    .registered r d.entries :: (Worklist.ready rt.store.isLoaded d.entries).map (.entered r ·)
  else []

/-- The chunks of a delivery are loaded afterwards. -/
theorem loaded_absorb (unfailed : rt.store.NoneFailed) (d : Delivery) :
    ∀ c ∈ d.chunks, (rt.absorb d).store.state c = .loaded := by
  intro c member
  have merged : (rt.store.merge d).store.state c = .loaded := by
    rw [(Store.merge_spec unfailed d).state, if_pos member]
  show (rt.hinting d).2.state c = .loaded
  rw [hinting, Store.state_hintAll, merged]
  simp

/-- Hints leave the factories of the merge. -/
theorem factory?_absorb (rt : Runtime) (d : Delivery) (m : ModuleId) :
    (rt.absorb d).store.factory? m = (rt.store.merge d).store.factory? m := by
  show (rt.hinting d).2.factory? m = _
  unfold hinting Store.factory?
  rw [Store.factories_hintAll]

/-- A runtime that has absorbed a delivery has all of it. -/
theorem merge_absorb (unfailed : rt.store.NoneFailed) (d : Delivery) :
    (rt.absorb d).store.merge d = ⟨(rt.absorb d).store, [], [], []⟩ := by
  refine Store.merge_again (loaded_absorb unfailed d) fun x member => ?_
  rw [factory?_absorb]
  exact (Store.merge_spec unfailed d).carried x member

/-- A runtime that has absorbed a delivery gives no hint for it. -/
theorem hinting_absorb (unfailed : rt.store.NoneFailed) (d : Delivery) :
    (rt.absorb d).hinting d = ([], (rt.absorb d).store) := by
  unfold hinting
  rw [merge_absorb unfailed]
  apply Store.hintAll_again
  intro c member
  have member : c ∈ rt.prefetched d := member
  show (rt.hinting d).2.state c ≠ .notRequested
  rw [hinting, Store.state_hintAll]
  split
  · simp
  · rename_i other
    exact fun idle => other ⟨idle, member⟩

/-- The entries that wait afterwards cannot run. -/
theorem waiting_absorb {w : Worklist} (waits : (rt.absorb d).worklist = some w) :
    ∀ e ∈ w, e.isReady (rt.absorb d).store.isLoaded = false := by
  obtain ⟨before, -, rfl⟩ := Option.map_eq_some_iff.mp waits
  intro e member
  show e.isReady (rt.hinting d).2.isLoaded = false
  simpa using (List.mem_filter.mp member).2

/-- **A runtime that absorbs a delivery again only gets its entries again.** -/
theorem absorb_again (unfailed : rt.store.NoneFailed) (d : Delivery) :
    (rt.absorb d).absorb d = (rt.absorb d).enlist d := by
  have worklist : (rt.absorb d).worklist.map (fun w =>
      Worklist.waiting (rt.absorb d).store.isLoaded (w ++ d.entries)) =
      (rt.absorb d).worklist.map (· ++ Worklist.waiting (rt.absorb d).store.isLoaded d.entries) := by
    apply Option.map_congr
    intro w waits
    -- Those that waited before still wait.
    have still : w.filter (fun e => !e.isReady (rt.absorb d).store.isLoaded) = w :=
      List.filter_eq_self.mpr fun e member => by simp [waiting_absorb waits e member]
    unfold Worklist.waiting
    rw [List.filter_append, still]
  rw [absorb, merge_absorb unfailed, hinting_absorb unfailed, worklist]
  rfl

/-- The entries of a delivery that is absorbed again run again if they can. -/
theorem runs_absorb (unfailed : rt.store.NoneFailed) (d : Delivery) : (rt.absorb d).runs d =
    if (rt.absorb d).worklist.isSome then
      Worklist.ready (rt.absorb d).store.isLoaded d.entries else [] := by
  cases waits : (rt.absorb d).worklist with
  | none => simp [runs, waits]
  | some w =>
    have none : w.filter (fun e => e.isReady (rt.absorb d).store.isLoaded) = [] :=
      List.filter_eq_nil_iff.mpr fun e member => by simp [waiting_absorb waits e member]
    simp only [runs, waits, hinting_absorb unfailed, Worklist.ready, List.filter_append, none]
    simp

/-- The entries that run the second time are among those that ran the first time. -/
theorem runs_subset (unfailed : rt.store.NoneFailed) (d : Delivery) :
    ∀ e ∈ (rt.absorb d).runs d, e ∈ rt.runs d := by
  intro e member
  rw [runs_absorb unfailed] at member
  cases before : rt.worklist with
  | none => simp [absorb, before] at member
  | some w =>
    split at member
    · have member : e ∈ Worklist.ready (rt.hinting d).2.isLoaded d.entries := member
      simp only [runs, before, Worklist.ready, List.filter_append]
      exact List.mem_append_right _ member
    · cases member

/-- **What happens when a delivery is absorbed again** is that its entries are registered again, and
those that can run do so. -/
theorem news_absorb (unfailed : rt.store.NoneFailed) (r : RuntimeId) (d : Delivery) :
    (rt.absorb d).news r d = (rt.absorb d).newsAgain r d := by
  unfold news newsAgain
  rw [merge_absorb unfailed, hinting_absorb unfailed, runs_absorb unfailed]
  cases (rt.absorb d).worklist <;> simp

end Runtime

end ChunkLoading
