import ChunkLoading.Proofs.Deliveries
import ChunkLoading.Proofs.Soundness

/-!
# What the merges of a runtime come to

Whatever else happens to a runtime, two things about it follow from the deliveries that it merged, in
their order: its module table, in which the first factory of a module stays, and the chunks that are
loaded, which are those that it was built with and those that came with a delivery (`history_follow`).
-/

namespace ChunkLoading

/-! ## Stores -/

namespace Store

variable {s t : Store} {ds : List Delivery}

/-- Of several factories for a module the first one stays. -/
theorem factory?_registerAll (s : Store) (fs : List (ModuleId × FactoryId)) (m : ModuleId) :
    (s.registerAll fs).2.factory? m = (s.factory? m).or (fs.lookup m) := by
  induction fs generalizing s with
  | nil => exact Option.or_none.symm
  | cons x fs ih =>
    rw [registerAll_cons, ih, factory?_register, List.lookup_cons]
    by_cases same : x.1 = m
    · subst same
      cases s.factory? x.1 <;> simp
    · have other : (m == x.1) = false := by simpa using Ne.symm same
      rw [if_neg same, other]

/-- A module that has a factory keeps it; one that has none gets the first one that the delivery brings. -/
theorem factory?_merge (unfailed : s.NoneFailed) (d : Delivery) (m : ModuleId) :
    (s.merge d).store.factory? m = (s.factory? m).or (d.modules.lookup m) := by
  have marked : (s.markAll d.chunks).2.factory? m = s.factory? m := by
    simp only [factory?, (markAll_spec unfailed d.chunks).factories]
  show ((s.markAll d.chunks).2.registerAll d.modules).2.factory? m = _
  rw [factory?_registerAll, marked]

/-- A merge loads the chunks of its delivery and no others. -/
theorem isLoaded_merge (unfailed : s.NoneFailed) (d : Delivery) (c : ChunkId) :
    (s.merge d).store.isLoaded c ↔ s.isLoaded c ∨ c ∈ d.chunks := by
  rw [isLoaded_iff, isLoaded_iff, (merge_spec unfailed d).state]
  split <;> simp [*]

/-- The same chunks are loaded, and the module tables are the same. -/
structure Keeps (s t : Store) : Prop where
  loaded : ∀ c, t.isLoaded c ↔ s.isLoaded c
  factories : ∀ m, t.factory? m = s.factory? m

theorem Keeps.refl (s : Store) : s.Keeps s := ⟨fun _ => Iff.rfl, fun _ => rfl⟩

/-- The chunk of a load or of a hint was not loaded before, and is not loaded afterwards. -/
theorem keeps_assign {c : ChunkId} {next : ChunkState} (before : s.state c ≠ .loaded)
    (after : next ≠ .loaded) : s.Keeps (s.assign c next) := by
  refine ⟨fun c' => ?_, fun _ => rfl⟩
  rw [isLoaded_iff, isLoaded_iff, state_assign]
  split
  · rename_i same
    subst same
    simp [before, after]
  · rfl

/-- To start an attempt loads nothing. -/
theorem keeps_start {c : ChunkId} (idle : (s.state c).isIdle) : s.Keeps (s.start c) := by
  have before : s.state c ≠ .loaded := by
    intro loaded
    simp [loaded, ChunkState.isIdle] at idle
  have started : ({ s with attempts := s.attempts + 1 } : Store).Keeps (s.start c) :=
    keeps_assign before (by simp)
  exact ⟨started.loaded, started.factories⟩

/-- To give up an attempt takes away nothing that was loaded. -/
theorem keeps_reset {c : ChunkId} {n : Attempt} (loading : s.state c = .loading n) :
    s.Keeps (s.reset c) := by
  refine ⟨fun c' => ?_, fun _ => rfl⟩
  rw [isLoaded_iff, isLoaded_iff, state_reset]
  split
  · rename_i same
    subst same
    simp [loading]
  · rfl

/-- A store is what another one comes to by merging deliveries, as far as loaded chunks and factories go. -/
structure Gains (s : Store) (ds : List Delivery) (t : Store) : Prop where
  loaded : ∀ c, t.isLoaded c ↔ s.isLoaded c ∨ ∃ d ∈ ds, c ∈ d.chunks
  factories : ∀ m, t.factory? m = (s.factory? m).or ((ds.flatMap (·.modules)).lookup m)

theorem Keeps.gains (keeps : s.Keeps t) : s.Gains [] t where
  loaded c := by simp [keeps.loaded c]
  factories m := by simp [keeps.factories m]

/-- A merge gains one delivery. -/
theorem gains_merge (unfailed : s.NoneFailed) (d : Delivery) : s.Gains [d] (s.merge d).store where
  loaded c := by simp [isLoaded_merge unfailed]
  factories m := by simp [factory?_merge unfailed]

end Store

/-- Marking the chunks that ship with a runtime loads these chunks. -/
theorem Store.isLoaded_markInitials {s : Store}
    (plain : ∀ c, s.state c = .notRequested ∨ s.state c = .loaded) (cs : List ChunkId) (c : ChunkId) :
    (cs.foldl markInitial s).isLoaded c ↔ s.isLoaded c ∨ c ∈ cs := by
  induction cs generalizing s with
  | nil => simp
  | cons c' cs ih =>
    -- A chunk that was only hinted or is being loaded could not turn up in a new store.
    have marked (c : ChunkId) : (s.markInitial c').state c = if c' = c then .loaded else s.state c := by
      rcases plain c' with idle | loaded
      · simp [markInitial, isLoaded, idle, become, ChunkState.canBecome]
      · by_cases same : c' = c
        · simp [markInitial, isLoaded, loaded, ← same]
        · simp [markInitial, isLoaded, loaded, same]
    have still (c : ChunkId) : (s.markInitial c').state c = .notRequested ∨
        (s.markInitial c').state c = .loaded := by
      rw [marked]
      split
      · exact .inr rfl
      · exact plain c
    rw [List.foldl_cons, ih still, isLoaded_iff, isLoaded_iff, marked, List.mem_cons]
    by_cases same : c' = c
    · simp [same]
    · simp [same, Ne.symm same]

/-- A runtime is built with its initial chunks, and no others are loaded. -/
theorem Blueprint.isLoaded_build {b : Blueprint} {x : Option ExtensionId} {rt : Runtime}
    (built : b.build x = .ok rt) (c : ChunkId) : rt.store.isLoaded c ↔ c ∈ b.initialChunks := by
  unfold build at built
  split at built
  · cases built
  · obtain rfl := Except.ok.inj built
    have marked := Store.isLoaded_markInitials (s := .empty) (fun _ => .inl rfl) b.initialChunks c
    simpa [Store.isLoaded] using marked

/-- A new runtime has no factories. -/
theorem Blueprint.factory?_build {b : Blueprint} {x : Option ExtensionId} {rt : Runtime}
    (built : b.build x = .ok rt) (m : ModuleId) : rt.store.factory? m = none :=
  (Page.built_of_build built).factories m

namespace Page

variable {p : Page} {m : Move} {r : RuntimeId}

theorem merges_core (p : Page) : p.merges = p.core.log.reverse.filterMap Event.merge? :=
  (filterMap_core (fun e beside => by cases e <;> first | rfl | cases beside) p.log).symm

/-- What a move does to merges and stores: a delivery is merged, or a runtime is built, or neither. -/
inductive Intake (p : Page) (m : Move) : Prop where
  | merged (r : RuntimeId) (d : Delivery) (inRange : r < p.core.count)
      (merges : (p.make m).merges = p.merges ++ [(r, d)])
      (count : (p.make m).core.count = p.core.count)
      (store : (p.make m).core.store = Function.update p.core.store r ((p.core.store r).merge d).store)
  | built (b : Blueprint) (x : Option ExtensionId) (rt : Runtime) (planned : p.plan? m = some b)
      (built : b.build x = .ok rt) (merges : (p.make m).merges = p.merges)
      (count : (p.make m).core.count = p.core.count + 1)
      (store : (p.make m).core.store = Function.update p.core.store p.core.count rt.store)
  | kept (merges : (p.make m).merges = p.merges) (count : (p.make m).core.count = p.core.count)
      (stores : ∀ r, (p.core.store r).Keeps ((p.make m).core.store r))

/-- Of all that a move can do, three things matter for what a runtime has: it is built, it merges a delivery, or
neither. -/
theorem Turn.intake (turn : Turn p m) : p.Intake m := by
  have same (log : (p.make m).core.log.reverse.filterMap Event.merge? =
      p.core.log.reverse.filterMap Event.merge?) : (p.make m).merges = p.merges := by
    rw [merges_core, merges_core, log]
  have elsewhere {r : RuntimeId} {s : Store} (keeps : (p.core.store r).Keeps s) (r' : RuntimeId) :
      (p.core.store r').Keeps (Function.update p.core.store r s r') := by
    by_cases own : r' = r
    · subst own
      simpa using keeps
    · simpa [own] using Store.Keeps.refl (p.core.store r')
  cases turn with
  -- Two turns bring chunks or modules.
  | created b x rt built core offers planned =>
    exact .built b x rt planned built (same (by rw [core]; rfl)) (by rw [core]; rfl) (by rw [core]; rfl)
  | merged r d inRange core =>
    refine .merged r d inRange ?_ (by rw [core]; rfl) (by rw [core]; rfl)
    have loaded (cs : List ChunkId) : (cs.map (Event.loaded r ·)).filterMap Event.merge? = [] :=
      List.filterMap_eq_nil_iff.mpr fun e member => by
        obtain ⟨c, -, rfl⟩ := List.mem_map.mp member
        rfl
    rw [merges_core, merges_core, core]
    simp [Core.note, Core.call, Core.setStore, Event.merge?, loaded]
  -- Three turns change the state of a chunk that is not loaded, and do not load it.
  | hinted r c kind address nonce crossOrigin inRange idle core =>
    refine .kept (same ?_) (by rw [core]; rfl) ?_
    · simp [core, Core.note, Core.setStore, Event.merge?]
    · rw [core]
      exact elsewhere (Store.keeps_assign (by simp [idle]) (by simp))
  | started r c number q inRange idle request core =>
    refine .kept (same ?_) (by rw [core]; rfl) ?_
    · simp [core, Core.note, Core.setStore, Event.merge?]
    · rw [core]
      exact elsewhere (Store.keeps_start idle)
  | rejected r c n e inRange loading own alive core =>
    refine .kept (same ?_) (by rw [core]; rfl) ?_
    · simp [core, Core.note, Core.setStore, Core.settleAttempt, Event.merge?]
    · rw [core]
      exact elsewhere (Store.keeps_reset loading)
  | resolved r d waiting clashes k inRange pending core =>
    refine .kept (same ?_) (by rw [core, pending]; simp [Core.call]) fun r' => ?_
    · rw [core, pending, Core.log_resolve]
      simp [Core.call, Event.merge?]
    · rw [core, pending]
      simpa [Core.call] using Store.Keeps.refl (k.store r')
  -- No other turn touches a store or tells of a merge.
  | _ =>
    refine .kept (same ?_) ?_ fun r => ?_
    · simp [*, Core.note, Core.call, Core.runReady, Core.setWorklist, Event.merge?]
    · simp [*, Core.note, Core.call, Core.runReady, Core.setWorklist]
    · simpa [*, Core.note, Core.call, Core.runReady, Core.setWorklist] using Store.Keeps.refl _

/-! ## Runs -/

/-- The deliveries that a runtime merged, in order. -/
def mergedBy (p : Page) (r : RuntimeId) : List Delivery :=
  p.merges.filterMap fun x => if x.1 = r then some x.2 else none

/-- What a runtime merged later comes last. -/
theorem mergedBy_append {q : Page} {xs : List (RuntimeId × Delivery)} (merges : q.merges = p.merges ++ xs)
    (r : RuntimeId) : q.mergedBy r =
      p.mergedBy r ++ xs.filterMap fun x => if x.1 = r then some x.2 else none := by
  unfold mergedBy
  rw [merges, List.filterMap_append]

/-- What a move does to the merges and to the store of a runtime that is there. -/
theorem Intake.gains (intake : p.Intake m) (unfailed : (p.store r).NoneFailed)
    (inRange : r < p.core.count) : ∃ new, (p.make m).mergedBy r = p.mergedBy r ++ new ∧
      (p.store r).Gains new ((p.make m).store r) := by
  cases intake with
  | merged r' d inRange merges count store =>
    have store : (p.make m).store r = _ := congrFun store r
    by_cases own : r' = r
    · subst own
      refine ⟨[d], by simp [mergedBy_append merges], ?_⟩
      rw [store, Function.update_self]
      exact Store.gains_merge unfailed d
    · refine ⟨[], by simp [mergedBy_append merges, own], ?_⟩
      rw [store, Function.update_of_ne (Ne.symm own)]
      exact (Store.Keeps.refl _).gains
  | built b x rt planned built merges count store =>
    have store : (p.make m).store r = _ := congrFun store r
    refine ⟨[], by simp [mergedBy, merges], ?_⟩
    rw [store, Function.update_of_ne (Nat.ne_of_lt inRange)]
    exact (Store.Keeps.refl _).gains
  | kept merges count stores =>
    exact ⟨[], by simp [mergedBy, merges], (stores r).gains⟩

/-- What a move does about a runtime that was not there before: it may build it. -/
theorem Intake.outside (intake : p.Intake m) (outside : ¬ r < p.core.count) :
    (p.make m).mergedBy r = p.mergedBy r ∧
      (Store.empty.Keeps ((p.make m).store r) ∧ ¬ (p.core.count = r ∧ (p.make m).core.count = r + 1) ∨
      ∃ b, p.core.count = r ∧ (p.make m).core.count = r + 1 ∧ p.plan? m = some b ∧
        (∀ c, ((p.make m).store r).isLoaded c ↔ c ∈ b.initialChunks) ∧
        ∀ x, ((p.make m).store r).factory? x = none) := by
  have empty : p.core.store r = .empty := store_outOfRange outside
  cases intake with
  | merged r' d inRange merges count store =>
    have other : r' ≠ r := by
      rintro rfl
      exact outside inRange
    have store : (p.make m).store r = _ := congrFun store r
    refine ⟨by simp [mergedBy_append merges, other], .inl ⟨?_, by omega⟩⟩
    rw [store, Function.update_of_ne (Ne.symm other), empty]
    exact .refl _
  | built b x rt planned built merges count store =>
    have store : (p.make m).store r = _ := congrFun store r
    refine ⟨by simp [mergedBy, merges], ?_⟩
    -- A runtime that is built may be the one that was looked for, or another one.
    by_cases newest : p.core.count = r
    · rw [newest, Function.update_self] at store
      rw [store]
      exact .inr ⟨b, newest, by rw [count, newest], planned, Blueprint.isLoaded_build built,
        Blueprint.factory?_build built⟩
    · rw [store, Function.update_of_ne (Ne.symm newest), empty]
      exact .inl ⟨.refl _, fun new => newest new.1⟩
  | kept merges count stores =>
    refine ⟨by simp [mergedBy, merges], .inl ⟨?_, by omega⟩⟩
    rw [← empty]
    exact stores r

/-- In a run a runtime is built with a chunk that ships with it. -/
def BuiltWith (p : Page) (ms : List Move) (r : RuntimeId) (c : ChunkId) : Prop :=
  ∃ before m later b, ms = before ++ m :: later ∧ (p.follow before).runtimes.length = r ∧
    ((p.follow before).make m).runtimes.length = r + 1 ∧ (p.follow before).plan? m = some b ∧
      c ∈ b.initialChunks

/-- The chunks that ship with a runtime, when a move builds it. -/
def shippedAt (r : RuntimeId) (p : Page) (m : Move) : List ChunkId :=
  if p.runtimes.length = r ∧ (p.make m).runtimes.length = r + 1 then
    ((p.plan? m).map Blueprint.initialChunks).getD []
  else []

/-- A move ships a chunk with a runtime if it builds the runtime from a blueprint with that chunk. -/
theorem mem_shippedAt {c : ChunkId} : c ∈ p.shippedAt r m ↔ ∃ b, p.runtimes.length = r ∧
    (p.make m).runtimes.length = r + 1 ∧ p.plan? m = some b ∧ c ∈ b.initialChunks := by
  unfold shippedAt
  split
  · rename_i built
    cases p.plan? m <;> simp [built]
  · rename_i other
    simp only [List.not_mem_nil, false_iff]
    rintro ⟨b, before, after, -⟩
    exact other ⟨before, after⟩

/-- To be built with a chunk is to have it shipped by a move of the run. -/
theorem builtWith_iff {ms : List Move} {c : ChunkId} :
    p.BuiltWith ms r c ↔ c ∈ p.along (shippedAt r) ms := by
  simp only [mem_along, mem_shippedAt, BuiltWith, exists_and_left]

/-- It was shipped by an earlier move or by the last one. -/
theorem builtWith_concat {ms : List Move} {c : ChunkId} : p.BuiltWith (ms ++ [m]) r c ↔
    p.BuiltWith ms r c ∨ ∃ b, (p.follow ms).runtimes.length = r ∧
      ((p.follow ms).make m).runtimes.length = r + 1 ∧ (p.follow ms).plan? m = some b ∧
        c ∈ b.initialChunks := by
  rw [builtWith_iff, along_concat, List.mem_append, ← builtWith_iff]
  exact or_congr_right mem_shippedAt

variable {onInject onHint : List (ChunkId × Script)} {ms : List Move}

/-- **The table of a runtime and its loaded chunks follow from what it was built with and what it
merged.** -/
theorem history_follow (run : (fresh onInject onHint).follow ms = p) (r : RuntimeId) :
    (∀ c, (p.store r).isLoaded c ↔ (fresh onInject onHint).BuiltWith ms r c ∨
      ∃ d ∈ p.mergedBy r, c ∈ d.chunks) ∧
    ∀ m, (p.store r).factory? m = ((p.mergedBy r).flatMap (·.modules)).lookup m := by
  induction ms using List.reverseRecOn generalizing p with
  | nil =>
    subst run
    refine ⟨fun c => iff_of_false ?_ ?_, fun m => rfl⟩
    · simp [store, runtime, fresh, noRuntime, Store.isLoaded, Store.state_empty]
    · rintro (⟨before, m, later, b, split, -⟩ | ⟨d, member, -⟩)
      · simp at split
      · cases member
  | append_singleton ms m ih =>
    subst run
    obtain ⟨loaded, factories⟩ := ih rfl
    have reachable : ((fresh onInject onHint).follow ms).Reachable := (Reachable.fresh _ _).follow ms
    have intake := (reachable.turn m).intake
    have made : (fresh onInject onHint).follow (ms ++ [m]) = ((fresh onInject onHint).follow ms).make m :=
      follow_append _ ms [m]
    simp only [builtWith_concat, made]
    generalize (fresh onInject onHint).follow ms = p at reachable intake loaded factories
    -- The runtime was there before the last move, or was not.
    by_cases old : r < p.core.count
    · obtain ⟨new, merges, gains⟩ := intake.gains (reachable.sound.unfailed r) old
      have before (P : Prop) : ¬ (p.runtimes.length = r ∧ P) := fun new => Nat.ne_of_gt old new.1
      constructor
      · intro c
        simp only [gains.loaded, loaded, merges, before, List.mem_append, or_and_right, exists_or, or_assoc,
          exists_false, false_or]
      · intro x
        rw [gains.factories, factories, merges, List.flatMap_append, List.lookup_append]
    · -- The runtime was yet to be built, and had merged nothing.
      rw [store_outOfRange old] at loaded factories
      have unloaded (c : ChunkId) : Store.empty.isLoaded c = false := by simp [Store.isLoaded]
      simp only [unloaded, Bool.false_eq_true, false_iff] at loaded
      -- It still is not there, or the last move has built it.
      obtain ⟨merges, ⟨keeps, none⟩ | ⟨b, length, more, planned, shipped, none⟩⟩ := intake.outside old
      · refine ⟨fun c => ?_, fun x => ?_⟩
        · rw [keeps.loaded, unloaded, merges]
          refine iff_of_false Bool.false_ne_true ?_
          rintro ((built | ⟨b, length, more, -⟩) | merged)
          · exact loaded c (.inl built)
          · exact none ⟨length, more⟩
          · exact loaded c (.inr merged)
        · rw [keeps.factories, factories, merges]
      · refine ⟨fun c => ?_, fun x => ?_⟩
        · rw [shipped, merges]
          constructor
          · exact fun initial => .inl (.inr ⟨b, length, more, planned, initial⟩)
          · rintro ((built | ⟨b', -, -, planned', initial⟩) | merged)
            · exact absurd (.inl built) (loaded c)
            · rw [planned] at planned'
              exact Option.some.inj planned' ▸ initial
            · exact absurd (.inr merged) (loaded c)
        · rw [none, merges, ← factories]
          rfl

end Page

end ChunkLoading
