import ChunkLoading.Proofs.Absorption
import ChunkLoading.Proofs.Ledger
import ChunkLoading.Proofs.Roster
import Mathlib.Data.List.Perm.Basic

/-!
# Deliveries one after the other

A runtime that absorbs deliveries one after the other, while nobody calls back (`Runtime.absorbAll`).
What it comes to is told by formulas that name the deliveries without their order: the state of a chunk,
the factory of a module, the attempts that end, the entries that run and those that wait. They hold as
long as the factories of the deliveries agree.
-/

namespace ChunkLoading

namespace Store

theorem mem_of_mem_hintAll {s : Store} {cs : List ChunkId} {c : ChunkId} (h : c ∈ (s.hintAll cs).1) :
    c ∈ cs := by
  induction cs generalizing s with
  | nil => cases h
  | cons c' cs ih =>
    rw [hintAll_cons] at h
    split at h
    · rcases List.mem_cons.mp h with rfl | h
      · exact List.mem_cons_self
      · exact List.mem_cons_of_mem _ (ih h)
    · exact List.mem_cons_of_mem _ (ih h)

end Store

namespace Runtime

variable {rt : Runtime} {d : Delivery} {ds : List Delivery}

/-- The factories of deliveries agree: no module comes with two of them, or with another one than the
runtime has. -/
structure Agrees (rt : Runtime) (ds : List Delivery) : Prop where
  carried : ∀ d ∈ ds, ∀ d' ∈ ds, ∀ m f f', (m, f) ∈ d.modules → (m, f') ∈ d'.modules → f = f'
  held : ∀ d ∈ ds, ∀ m f f', (m, f) ∈ d.modules → rt.store.factory? m = some f' → f = f'

/-! ## One delivery -/

/-- What one delivery does to a chunk. -/
theorem state_absorb (unfailed : rt.store.NoneFailed) (d : Delivery) (c : ChunkId) :
    (rt.absorb d).store.state c = if c ∈ d.chunks then .loaded
      else if rt.store.state c = .notRequested ∧ c ∈ rt.prefetched d then .hintOnly
      else rt.store.state c := by
  show (rt.hinting d).2.state c = _
  rw [hinting, Store.state_hintAll, (Store.merge_spec unfailed d).state]
  by_cases delivered : c ∈ d.chunks <;> simp [delivered]

theorem unfailed_absorb (unfailed : rt.store.NoneFailed) (d : Delivery) :
    (rt.absorb d).store.NoneFailed := by
  intro c
  rw [state_absorb unfailed]
  split
  · simp
  · split
    · simp
    · exact unfailed c

/-- An attempt is under way afterwards if it was before and the delivery does not end it. -/
theorem loading_absorb (unfailed : rt.store.NoneFailed) (d : Delivery) {c : ChunkId} {n : Attempt} :
    (rt.absorb d).store.state c = .loading n ↔ rt.store.state c = .loading n ∧ c ∉ d.chunks := by
  rw [state_absorb unfailed]
  by_cases delivered : c ∈ d.chunks
  · simp [delivered]
  · by_cases hinted : rt.store.state c = .notRequested ∧ c ∈ rt.prefetched d
    · simp [delivered, hinted]
    · simp [delivered, hinted]

theorem isLoaded_absorb (unfailed : rt.store.NoneFailed) {c : ChunkId} (loaded : rt.store.isLoaded c) :
    (rt.absorb d).store.isLoaded c := by
  rw [Store.isLoaded_iff] at loaded ⊢
  rw [state_absorb unfailed, loaded]
  simp

/-- A factory was there before, or the delivery brings it. -/
theorem source_absorb (unfailed : rt.store.NoneFailed) {m : ModuleId} {f : FactoryId}
    (found : (rt.absorb d).store.factory? m = some f) :
    rt.store.factory? m = some f ∨ (m, f) ∈ d.modules := by
  rw [factory?_absorb] at found
  exact (Store.merge_spec unfailed d).source m f found

theorem Agrees.factory?_absorb (agrees : rt.Agrees (d :: ds)) (unfailed : rt.store.NoneFailed)
    {m : ModuleId} {f : FactoryId} : (rt.absorb d).store.factory? m = some f ↔
      rt.store.factory? m = some f ∨ (m, f) ∈ d.modules := by
  have merged := Store.merge_spec unfailed d
  refine ⟨source_absorb unfailed, ?_⟩
  rw [Runtime.factory?_absorb]
  rintro (held | carried)
  · exact merged.stays m f held
  · -- The module has some factory then, which can only be this one.
    obtain ⟨f', found⟩ := Option.isSome_iff_exists.mp (merged.carried (m, f) carried)
    have same : f = f' := by
      rcases merged.source m f' found with held | carried'
      · exact agrees.held d List.mem_cons_self m f f' carried held
      · exact agrees.carried d List.mem_cons_self d List.mem_cons_self m f f' carried carried'
    exact same ▸ found

theorem Agrees.absorb (agrees : rt.Agrees (d :: ds)) (unfailed : rt.store.NoneFailed) :
    (rt.absorb d).Agrees ds where
  carried d₁ first d₂ second :=
    agrees.carried d₁ (List.mem_cons_of_mem _ first) d₂ (List.mem_cons_of_mem _ second)
  held d' member m f f' carried found := by
    have member := List.mem_cons_of_mem d member
    rcases (agrees.factory?_absorb unfailed).mp found with held | first
    · exact agrees.held d' member m f f' carried held
    · exact agrees.carried d' member d List.mem_cons_self m f f' carried first

/-- Nothing clashes, so that all attempts that end do so without a failure. -/
theorem Agrees.mergeResult_eq (agrees : rt.Agrees (d :: ds)) (unfailed : rt.store.NoneFailed) :
    Page.mergeResult d (rt.store.merge d).clashes = .ok := by
  have none : (rt.store.merge d).clashes = [] := by
    rw [(Store.merge_spec unfailed d).clashes]
    split
    · rfl
    · rw [List.map_eq_nil_iff, List.filter_eq_nil_iff]
      rintro ⟨m, f⟩ carried
      have found := (agrees.factory?_absorb unfailed).mpr (.inr carried)
      rw [Runtime.factory?_absorb] at found
      simp [found]
  simp [Page.mergeResult, none]

/-- Several attempts get one result. -/
theorem get?_setEach (o : Assoc Attempt LoadResult) (ws : List Trial) (result : LoadResult)
    (n : Attempt) : (ws.foldl (fun o w => o.set w.2 result) o).get? n =
      if n ∈ ws.map (·.2) then some result else o.get? n := by
  induction ws generalizing o with
  | nil => rfl
  | cons w ws ih =>
    simp only [List.foldl_cons, ih, Assoc.get?_set, List.map_cons, List.mem_cons]
    by_cases same : w.2 = n
    · simp [same]
    · simp only [same, Ne.symm same, if_false, false_or]

/-! ## All deliveries -/

/-- A runtime after it has absorbed deliveries in order. -/
def absorbAll (rt : Runtime) (ds : List Delivery) : Runtime := ds.foldl absorb rt

/-- What is read off each delivery as it is absorbed. -/
def along {β : Type} (f : Runtime → Delivery → List β) (rt : Runtime) : List Delivery → List β
  | [] => []
  | d :: ds => f rt d ++ (rt.absorb d).along f ds

/-- The attempts that a delivery ends. -/
def ends (rt : Runtime) (d : Delivery) : List Trial := (rt.store.merge d).waiting

@[simp] theorem absorbAll_cons (rt : Runtime) (d : Delivery) (ds : List Delivery) :
    rt.absorbAll (d :: ds) = (rt.absorb d).absorbAll ds := rfl

/-- **A chunk is loaded in the end if any delivery brings it.** Otherwise a hint of any delivery is
recorded if nobody had asked for the chunk. -/
theorem state_absorbAll (unfailed : rt.store.NoneFailed) (ds : List Delivery) (c : ChunkId) :
    (rt.absorbAll ds).store.state c = if ∃ d ∈ ds, c ∈ d.chunks then .loaded
      else if rt.store.state c = .notRequested ∧ ∃ d ∈ ds, c ∈ rt.prefetched d then .hintOnly
      else rt.store.state c := by
  induction ds generalizing rt with
  | nil => simp [absorbAll]
  | cons d ds ih =>
    -- Which hints a delivery gives does not depend on the ones before it.
    have same (d' : Delivery) : (rt.absorb d).prefetched d' = rt.prefetched d' := rfl
    rw [absorbAll_cons, ih (unfailed_absorb unfailed d), state_absorb unfailed]
    simp only [same, List.exists_mem_cons_iff]
    -- The first delivery decides only for a chunk that no later one brings.
    by_cases later : ∃ d ∈ ds, c ∈ d.chunks
    · simp [later]
    · by_cases first : c ∈ d.chunks
      · simp [first]
      · by_cases idle : rt.store.state c = .notRequested
        · by_cases hinted : c ∈ rt.prefetched d <;> simp [later, first, idle, hinted]
        · simp [later, first, idle]

/-- A module has a factory in the end if it had it, or any delivery brings it. -/
theorem Agrees.factory?_absorbAll (agrees : rt.Agrees ds) (unfailed : rt.store.NoneFailed)
    {m : ModuleId} {f : FactoryId} : (rt.absorbAll ds).store.factory? m = some f ↔
      rt.store.factory? m = some f ∨ ∃ d ∈ ds, (m, f) ∈ d.modules := by
  induction ds generalizing rt with
  | nil => simp [absorbAll]
  | cons d ds ih =>
    rw [absorbAll_cons, ih (agrees.absorb unfailed) (unfailed_absorb unfailed d),
      agrees.factory?_absorb unfailed, List.exists_mem_cons_iff, or_assoc]

/-! ### Attempts -/

/-- The attempts that end are those of the delivered chunks that were under way at the start. -/
theorem mem_ends (unfailed : rt.store.NoneFailed) (ds : List Delivery) {w : Trial} :
    w ∈ rt.along ends ds ↔ rt.store.state w.1 = .loading w.2 ∧ ∃ d ∈ ds, w.1 ∈ d.chunks := by
  induction ds generalizing rt with
  | nil => simp [along]
  | cons d ds ih =>
    have first : w ∈ rt.ends d ↔ w.1 ∈ d.chunks ∧ rt.store.state w.1 = .loading w.2 :=
      (Store.merge_spec unfailed d).ended w
    rw [along, List.mem_append, first, ih (unfailed_absorb unfailed d), loading_absorb unfailed,
      List.exists_mem_cons_iff]
    tauto

/-- No attempt ends twice. -/
theorem nodup_ends (unfailed : rt.store.NoneFailed) (ds : List Delivery) :
    (rt.along ends ds).Nodup := by
  induction ds generalizing rt with
  | nil => exact List.nodup_nil
  | cons d ds ih =>
    have merged := Store.merge_spec unfailed d
    rw [along, List.nodup_append]
    refine ⟨merged.once.of_map, ih (unfailed_absorb unfailed d), ?_⟩
    -- A chunk that ended its attempt is loaded when the others come.
    rintro w first w' later rfl
    have delivered := ((merged.ended w).mp first).1
    have loading := ((mem_ends (unfailed_absorb unfailed d) ds).mp later).1
    exact ((loading_absorb unfailed d).mp loading).2 delivered

/-- An attempt that a delivery ends ends well. -/
theorem Agrees.outcome_absorb (agrees : rt.Agrees (d :: ds)) (unfailed : rt.store.NoneFailed)
    (n : Attempt) : (rt.absorb d).outcomes.get? n =
      if n ∈ (rt.ends d).map (·.2) then some .ok else rt.outcomes.get? n := by
  show ((rt.ends d).foldl (fun o w => o.set w.2 (Page.mergeResult d (rt.store.merge d).clashes))
    rt.outcomes).get? n = _
  rw [agrees.mergeResult_eq unfailed, get?_setEach]

/-- An attempt that any delivery ends ends well. -/
theorem Agrees.outcome_absorbAll (agrees : rt.Agrees ds) (unfailed : rt.store.NoneFailed)
    (n : Attempt) : (rt.absorbAll ds).outcomes.get? n =
      if n ∈ (rt.along ends ds).map (·.2) then some .ok else rt.outcomes.get? n := by
  induction ds generalizing rt with
  | nil => rfl
  | cons d ds ih =>
    rw [absorbAll_cons, ih (agrees.absorb unfailed) (unfailed_absorb unfailed d),
      agrees.outcome_absorb unfailed, along, List.map_append]
    by_cases later : n ∈ ((rt.absorb d).along ends ds).map (·.2)
    · rw [if_pos later, if_pos (List.mem_append_right _ later)]
    · simp only [List.mem_append, later, or_false, if_false]

/-! ### Entries -/

/-- The entries that a runtime has or gets by deliveries. -/
def pool (rt : Runtime) (ds : List Delivery) : List DeferredEntry :=
  rt.worklist.getD [] ++ ds.flatMap (·.entries)

/-- No entry waits that could run. -/
def Awake (rt : Runtime) : Prop :=
  ∀ e ∈ rt.worklist.getD [], e.isReady rt.store.isLoaded = false

/-- What can run after a delivery runs with it. -/
theorem awake_absorb (rt : Runtime) (d : Delivery) : (rt.absorb d).Awake := by
  intro e member
  cases waits : (rt.absorb d).worklist with
  | none =>
    rw [waits] at member
    cases member
  | some w =>
    rw [waits] at member
    exact waiting_absorb waits e member

theorem ready_append (loaded : ChunkId → Bool) (es es' : List DeferredEntry) :
    Worklist.ready loaded (es ++ es') = Worklist.ready loaded es ++ Worklist.ready loaded es' :=
  List.filter_append ..

theorem waiting_append (loaded : ChunkId → Bool) (es es' : List DeferredEntry) :
    Worklist.waiting loaded (es ++ es') = Worklist.waiting loaded es ++ Worklist.waiting loaded es' :=
  List.filter_append ..

/-- Who waits with more chunks waits with fewer. -/
theorem waiting_waiting {loaded loaded' : ChunkId → Bool} (grows : ∀ c, loaded c → loaded' c)
    (es : List DeferredEntry) :
    Worklist.waiting loaded' (Worklist.waiting loaded es) = Worklist.waiting loaded' es := by
  unfold Worklist.waiting
  rw [List.filter_filter]
  refine List.filter_congr fun e _ => ?_
  cases ready : e.isReady loaded with
  | false => simp
  | true => simp [Roster.isReady_of_grows grows ready]

/-- Those that can run at once, and later those of the others that can run then, are in the end all that
can run. -/
theorem ready_waiting {loaded loaded' : ChunkId → Bool} (grows : ∀ c, loaded c → loaded' c)
    (es : List DeferredEntry) : (Worklist.ready loaded es ++
      Worklist.ready loaded' (Worklist.waiting loaded es)).Perm (Worklist.ready loaded' es) := by
  have kept : Worklist.ready loaded' (Worklist.ready loaded es) = Worklist.ready loaded es :=
    List.filter_eq_self.mpr fun _ member =>
      Roster.isReady_of_grows grows (Roster.mem_ready.mp member).2
  have split := (List.filter_append_perm (·.isReady loaded) es).filter (·.isReady loaded')
  rw [List.filter_append] at split
  unfold Worklist.ready at kept ⊢
  rwa [kept] at split

/-- Loaded chunks stay loaded. -/
theorem isLoaded_absorbAll (unfailed : rt.store.NoneFailed) (ds : List Delivery) {c : ChunkId}
    (loaded : rt.store.isLoaded c) : (rt.absorbAll ds).store.isLoaded c := by
  induction ds generalizing rt with
  | nil => exact loaded
  | cons d ds ih => exact ih (unfailed_absorb unfailed d) (isLoaded_absorb unfailed loaded)

/-- With a worklist, those entries wait after a delivery that lack a chunk then. -/
theorem worklist_absorb {w : Worklist} (waits : rt.worklist = some w) (d : Delivery) :
    (rt.absorb d).worklist =
      some (Worklist.waiting (rt.absorb d).store.isLoaded (w ++ d.entries)) := by
  show rt.worklist.map _ = _
  rw [waits]
  rfl

/-- **The entries that wait in the end** are those of all that lack a chunk then. -/
theorem worklist_absorbAll (unfailed : rt.store.NoneFailed) (awake : rt.Awake) (ds : List Delivery) :
    (rt.absorbAll ds).worklist =
      rt.worklist.map fun _ => Worklist.waiting (rt.absorbAll ds).store.isLoaded (rt.pool ds) := by
  induction ds generalizing rt with
  | nil =>
    cases waits : rt.worklist with
    | none => exact waits
    | some w =>
      have all : Worklist.waiting rt.store.isLoaded w = w := by
        refine List.filter_eq_self.mpr fun e member => ?_
        simp [awake e (by rwa [waits])]
      simp [absorbAll, pool, waits, all]
  | cons d ds ih =>
    have grows (c : ChunkId) := isLoaded_absorbAll (unfailed_absorb unfailed d) ds (c := c)
    rw [absorbAll_cons, ih (unfailed_absorb unfailed d) (awake_absorb rt d)]
    cases waits : rt.worklist with
    | none => simp [absorb, waits]
    | some w =>
      have first := worklist_absorb waits d
      simp only [pool, first, waits, Option.map_some, Option.getD_some, List.flatMap_cons]
      -- Who waits in the end waits after the first delivery.
      rw [waiting_append, waiting_waiting grows, ← waiting_append, List.append_assoc]

/-- **The entries that run** are those of all that have their chunks in the end, in some order. -/
theorem runs_absorbAll (unfailed : rt.store.NoneFailed) (awake : rt.Awake) (ds : List Delivery) :
    (rt.along runs ds).Perm (if rt.worklist.isSome then
      Worklist.ready (rt.absorbAll ds).store.isLoaded (rt.pool ds) else []) := by
  induction ds generalizing rt with
  | nil =>
    have none : Worklist.ready rt.store.isLoaded (rt.worklist.getD []) = [] :=
      List.filter_eq_nil_iff.mpr fun e member => by simp [awake e member]
    simp [along, absorbAll, pool, none]
  | cons d ds ih =>
    have grows (c : ChunkId) := isLoaded_absorbAll (unfailed_absorb unfailed d) ds (c := c)
    have rest := ih (unfailed_absorb unfailed d) (awake_absorb rt d)
    cases waits : rt.worklist with
    | none =>
      -- Without a worklist no entry is kept, and none runs.
      have still : (rt.absorb d).worklist = none := by simp [absorb, waits]
      have now : rt.runs d = [] := by simp [runs, waits]
      rw [still] at rest
      rw [along, now]
      exact rest
    | some w =>
      -- What runs now is ready with the chunks that are loaded now.
      have now : rt.runs d = Worklist.ready (rt.absorb d).store.isLoaded (w ++ d.entries) := by
        simp only [runs, waits]
        rfl
      simp only [pool, worklist_absorb waits d, Option.isSome_some, if_true, Option.getD_some,
        ready_append] at rest
      simp only [along, now, pool, waits, Option.isSome_some, if_true, Option.getD_some,
        List.flatMap_cons, absorbAll_cons]
      -- Those that run now and those that waited for others are all that can run in the end.
      refine (rest.append_left _).trans ?_
      rw [← List.append_assoc]
      refine ((ready_waiting grows _).append_right _).trans ?_
      rw [← ready_append, List.append_assoc]

/-! ## In another order -/

/-- Whether deliveries agree does not depend on their order. -/
theorem Agrees.perm {ds' : List Delivery} (agrees : rt.Agrees ds) (perm : ds.Perm ds') :
    rt.Agrees ds' where
  carried d first d' second :=
    agrees.carried d (perm.mem_iff.mpr first) d' (perm.mem_iff.mpr second)
  held d member := agrees.held d (perm.mem_iff.mpr member)

/-- **Absorbing deliveries in another order comes to the same.** -/
theorem absorbAll_perm {ds' : List Delivery} (unfailed : rt.store.NoneFailed) (awake : rt.Awake)
    (agrees : rt.Agrees ds) (perm : ds.Perm ds') :
    (∀ c, (rt.absorbAll ds).store.state c = (rt.absorbAll ds').store.state c) ∧
    (∀ m, (rt.absorbAll ds).store.factory? m = (rt.absorbAll ds').store.factory? m) ∧
    (∀ n, (rt.absorbAll ds).outcomes.get? n = (rt.absorbAll ds').outcomes.get? n) ∧
    (rt.along ends ds).Perm (rt.along ends ds') ∧ (rt.along runs ds).Perm (rt.along runs ds') ∧
    ((rt.absorbAll ds).worklist.getD []).Perm ((rt.absorbAll ds').worklist.getD []) := by
  -- The formulas ask only whether there is such a delivery.
  have any (P : Delivery → Prop) : (∃ d ∈ ds, P d) ↔ ∃ d ∈ ds', P d := by
    simp only [perm.mem_iff]
  have state (c : ChunkId) :
      (rt.absorbAll ds).store.state c = (rt.absorbAll ds').store.state c := by
    simp only [state_absorbAll unfailed, any]
  have loaded : (rt.absorbAll ds).store.isLoaded = (rt.absorbAll ds').store.isLoaded := by
    funext c
    simp only [Store.isLoaded, state]
  have ended : (rt.along ends ds).Perm (rt.along ends ds') := by
    refine (List.perm_ext_iff_of_nodup (nodup_ends unfailed ds) (nodup_ends unfailed ds')).mpr ?_
    intro w
    rw [mem_ends unfailed, mem_ends unfailed, any]
  have pool : (rt.pool ds).Perm (rt.pool ds') := (perm.flatMap_right _).append_left _
  refine ⟨state, ?_, ?_, ended, ?_, ?_⟩
  · -- A module has the factory that it had, or the one that all deliveries of it agree on.
    intro m
    refine Option.ext fun f => ?_
    rw [agrees.factory?_absorbAll unfailed, (agrees.perm perm).factory?_absorbAll unfailed, any]
  · -- The same attempts end, all of them well.
    intro n
    rw [agrees.outcome_absorbAll unfailed, (agrees.perm perm).outcome_absorbAll unfailed]
    simp only [(ended.map (·.2)).mem_iff]
  · -- What can run in the end is read off the same pool, with the same chunks loaded.
    refine (runs_absorbAll unfailed awake ds).trans (.trans ?_ (runs_absorbAll unfailed awake ds').symm)
    rw [loaded]
    split
    · exact pool.filter _
    · exact .nil
  · -- Likewise for those that still wait.
    rw [worklist_absorbAll unfailed awake, worklist_absorbAll unfailed awake, loaded]
    cases rt.worklist with
    | none => exact .nil
    | some w => exact pool.filter _

end Runtime

end ChunkLoading
