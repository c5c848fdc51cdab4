import ChunkLoading.Proofs.Turn

/-!
# Soundness along runs

Every page of a run is `Sound`, so that every move of a run is one of the listed turns
(`Reachable.turn`). From the list follows what any move does to the number of runtimes, to the store
of a runtime, to its table of factories and to the agenda of the core; loaded chunks stay loaded, and
a runtime that is gone stays so.
-/

namespace ChunkLoading.Page

variable {p : Page} {r : RuntimeId}

/-- A runtime as it is built: its initial chunks are loaded, and nothing has happened yet. -/
structure Built (rt : Runtime) : Prop where
  state : ∀ c, rt.store.state c = .notRequested ∨ rt.store.state c = .loaded
  attempts : rt.store.attempts = 0
  refusals : rt.store.refusals = 0
  factories : ∀ m, rt.store.factory? m = none
  worklist : rt.worklist = none ∨ rt.worklist = some []
  outcomes : rt.outcomes = .empty

theorem Built.markInitial {rt : Runtime} (built : Built rt) (c : ChunkId) :
    Built { rt with store := rt.store.markInitial c } := by
  by_cases loaded : rt.store.isLoaded c
  · simpa [Store.markInitial, loaded] using built
  · have idle : rt.store.state c = .notRequested :=
      (built.state c).resolve_right fun h => loaded (Store.isLoaded_iff.mpr h)
    have marked : rt.store.markInitial c = rt.store.assign c .loaded := by
      simp [Store.markInitial, loaded, Store.become, idle, ChunkState.canBecome]
    rw [marked]
    refine ⟨?_, built.attempts, built.refusals, built.factories, built.worklist, built.outcomes⟩
    intro c'
    rw [Store.state_assign]
    split
    · exact .inr rfl
    · exact built.state c'

/-- What a blueprint builds has no attempts and no factories yet. -/
theorem built_of_build {b : Blueprint} {x : Option ExtensionId} {rt : Runtime}
    (h : b.build x = .ok rt) : Built rt := by
  have marked (rt : Runtime) (built : Built rt) (cs : List ChunkId) :
      Built { rt with store := cs.foldl Store.markInitial rt.store } := by
    induction cs generalizing rt with
    | nil => exact built
    | cons c cs ih => exact ih _ (built.markInitial c)
  unfold Blueprint.build at h
  split at h
  · cases h
  · obtain rfl := Except.ok.inj h
    refine marked ⟨_, _, _, _, .empty, _, _, _, _⟩ ⟨fun _ => .inl rfl, rfl, rfl, fun _ => rfl, ?_, rfl⟩
      b.initialChunks
    cases b.entryDeferral
    · exact .inl rfl
    · exact .inr rfl

/-- What a move does to the number of runtimes. -/
theorem Turn.count {m : Move} (turn : Turn p m) : p.core.count ≤ (p.make m).core.count := by
  cases turn <;>
    simp [*, Core.setStore, Core.note, Core.call, Core.settleAttempt, Core.create, Core.runReady,
      Core.setWorklist]

/-- What a move does to the store of a runtime that is there. -/
theorem Turn.store {m : Move} (turn : Turn p m) (inRange : r < p.core.count) :
    (p.core.store r).Step ((p.make m).core.store r) := by
  cases turn with
  | created b x rt built core =>
    rw [core]
    simpa [Core.create, Function.update_of_ne (Nat.ne_of_lt inRange)] using Store.Step.same
  | hinted r' c kind address nonce crossOrigin inRange idle core =>
    rw [core]
    -- Each of these four changes the store of its own runtime by one step, and no other store.
    by_cases same : r = r'
    · subst same
      simpa [Core.setStore, Core.note] using Store.Step.hinted c idle
    · simpa [Core.setStore, Core.note, same] using Store.Step.same
  | started r' c number q inRange idle request core =>
    rw [core]
    by_cases same : r = r'
    · subst same
      simpa [Core.setStore, Core.note] using Store.Step.started c idle
    · simpa [Core.setStore, Core.note, same] using Store.Step.same
  | rejected r' c n e inRange loading own alive core =>
    rw [core]
    by_cases same : r = r'
    · subst same
      simpa [Core.setStore, Core.note, Core.settleAttempt] using Store.Step.rejected c n loading
    · simpa [Core.setStore, Core.note, Core.settleAttempt, same] using Store.Step.same
  | merged r' d inRange core =>
    rw [core]
    by_cases same : r = r'
    · subst same
      simpa [Core.setStore, Core.note, Core.call] using Store.Step.merged d
    · simpa [Core.setStore, Core.note, Core.call, same] using Store.Step.same
  | _ =>
    simpa [*, Core.note, Core.call, Core.runReady, Core.setWorklist] using Store.Step.same

/-- Factories come into a table with the deliveries that are merged. -/
theorem Turn.factory_source {m : Move} (turn : Turn p m) (sound : p.Sound)
    {x : ModuleId} {f : FactoryId}
    (held : ((p.make m).core.store r).factory? x = some f) :
    (p.core.store r).factory? x = some f ∨ ∃ d, .merge r d ∈ p.agenda ∧ (x, f) ∈ d.modules := by
  cases turn with
  | merged r' d inRange core offers pending =>
    by_cases same : r = r'
    · subst same
      -- Only a merge brings factories in: those of its delivery.
      have store : (p.make m).core.store r = ((p.store r).merge d).store := by
        rw [core]
        exact Function.update_self ..
      rw [store] at held
      rcases (Store.merge_spec (sound.unfailed r) d).source x f held with before | carried
      · exact .inl before
      · exact .inr ⟨d, pending, carried⟩
    · exact .inl (by simpa [core, Core.setStore, Core.note, Core.call, same] using held)
  | created b y rt built core =>
    by_cases newest : r = p.core.count
    · -- A runtime is built without factories.
      subst newest
      have none : ((p.make m).core.store p.core.count).factory? x = none := by
        simpa [core, Core.create] using (built_of_build built).factories x
      rw [none] at held
      cases held
    · exact .inl (by simpa [core, Core.create, newest] using held)
  | hinted r' c kind address nonce crossOrigin inRange idle core =>
    by_cases same : r = r'
    · exact .inl (by simpa [core, Core.setStore, Core.note, same] using held)
    · exact .inl (by simpa [core, Core.setStore, Core.note, same] using held)
  | started r' c number q inRange idle request core =>
    by_cases same : r = r'
    · exact .inl (by simpa [core, Core.setStore, Core.note, same] using held)
    · exact .inl (by simpa [core, Core.setStore, Core.note, same] using held)
  | rejected r' c n e inRange loading own alive core =>
    by_cases same : r = r'
    · exact .inl (by simpa [core, Core.setStore, Core.note, Core.settleAttempt, same] using held)
    · exact .inl (by simpa [core, Core.setStore, Core.note, Core.settleAttempt, same] using held)
  | _ =>
    -- The other moves change no store at all.
    have kept : (p.make m).core.store = p.core.store := by
      simp [*, Core.note, Core.call, Core.runReady, Core.setWorklist]
    exact .inl (kept ▸ held)

/-- What a move does to the tasks of the core: it merges a delivery, or leaves the tasks that were
there, the one at hand perhaps apart, behind entries that are to be run. -/
theorem Turn.agenda {m : Move} (turn : Turn p m) :
    (∃ r d, (p.make m).core = ((p.core.setStore r ((p.core.store r).merge d).store).note
      (.merged r d :: ((p.core.store r).merge d).loaded.map (.loaded r ·))).call
      [.resolve r d ((p.core.store r).merge d).waiting ((p.core.store r).merge d).clashes,
        .defer r d.entries]) ∨
    ∃ r es ts, (p.make m).core.agenda = List.map (Task.enter r ·) es ++ ts ∧
      (ts = p.core.agenda ∨ ∃ t, p.core.agenda = t :: ts) := by
  cases turn with
  | merged r d inRange core => exact .inl ⟨r, d, core⟩
  | resolved r d waiting clashes k inRange pending core =>
    -- These three take the task at hand away.
    refine .inr ⟨r, [], k.agenda, ?_, .inr ⟨_, congrArg Core.agenda pending⟩⟩
    rw [core, Core.agenda_resolve]
    rfl
  | dropped r es k pending none core =>
    refine .inr ⟨r, [], k.agenda, ?_, .inr ⟨_, congrArg Core.agenda pending⟩⟩
    rw [core]
    rfl
  | entered r e k pending core =>
    refine .inr ⟨r, [], k.agenda, ?_, .inr ⟨_, congrArg Core.agenda pending⟩⟩
    rw [core]
    rfl
  | deferred r es w k inRange pending some core =>
    -- Those that run entries put one task for each in front of what is left.
    refine .inr ⟨r, Worklist.ready (k.store r).isLoaded (w ++ es), k.agenda, ?_,
      .inr ⟨_, congrArg Core.agenda pending⟩⟩
    rw [core]
    rfl
  | startedUp r es w inRange some core =>
    refine .inr ⟨r, Worklist.ready (p.core.store r).isLoaded (w ++ es), p.core.agenda, ?_, .inl rfl⟩
    rw [core]
    rfl
  | scanned r w inRange some core =>
    refine .inr ⟨r, Worklist.ready (p.core.store r).isLoaded w, p.core.agenda, ?_, .inl rfl⟩
    rw [core]
    rfl
  | hurried r es none core =>
    refine .inr ⟨r, es, p.core.agenda, ?_, .inl rfl⟩
    rw [core]
    rfl
  | _ =>
    -- The others leave the agenda alone, as far as the core of the page goes.
    have kept : (p.make m).core.agenda = p.core.agenda := by
      simp [*, Core.create, Core.note, Core.setStore, Core.settleAttempt]
    exact .inr ⟨0, [], p.core.agenda, kept, .inl rfl⟩

/-- A runtime that was not there before is the one that the move builds. -/
theorem Turn.newest {m : Move} (turn : Turn p m) (new : ¬ r < p.core.count)
    (inRange : r < (p.make m).core.count) :
    r = p.core.count ∧ ∃ rt, Built rt ∧ (p.make m).core = p.core.create rt := by
  cases turn with
  | created b x rt built core =>
    rw [core] at inRange
    have newest : r < p.core.count + 1 := inRange
    exact ⟨Nat.le_antisymm (Nat.le_of_lt_succ newest) (Nat.le_of_not_lt new), rt,
      built_of_build built, core⟩
  | _ =>
    have kept : (p.make m).core.count = p.core.count := by
      simp [*, Core.setStore, Core.note, Core.call, Core.settleAttempt, Core.runReady,
        Core.setWorklist]
    exact absurd (kept ▸ inRange) new

theorem runtime_outOfRange (outside : ¬ r < p.runtimes.length) : p.runtime r = noRuntime := by
  simp [runtime, List.getD_eq_getElem?_getD, List.getElem?_eq_none (Nat.le_of_not_lt outside)]

theorem store_outOfRange (outside : ¬ r < p.core.count) : p.store r = .empty :=
  congrArg Runtime.store (runtime_outOfRange outside)

/-- What the core of a page is about to do keeps the runtimes that it uses alive. -/
theorem alive_of_core {t : Task} (pending : t ∈ p.core.agenda) (uses : t.uses r) : p.alive r :=
  alive_of_task (List.mem_filter.mp pending).1 uses

/-- What a move does to the store of any runtime: one step, or it builds the runtime. -/
theorem Turn.store_or_built {m : Move} (turn : Turn p m) (r : RuntimeId) :
    (p.store r).Step ((p.make m).store r) ∨ ∃ rt, Built rt ∧ (p.make m).store r = rt.store := by
  by_cases old : r < p.core.count
  · exact .inl (turn.store old)
  · by_cases inRange : r < (p.make m).core.count
    · obtain ⟨rfl, rt, built, core⟩ := turn.newest old inRange
      refine .inr ⟨rt, built, ?_⟩
      show (p.make m).core.store p.core.count = rt.store
      simp [core, Core.create]
    · -- The runtime is yet to be built.
      rw [store_outOfRange old, store_outOfRange inRange]
      exact .inl .same

/-- A move keeps a page sound. -/
theorem Sound.make (sound : p.Sound) (m : Move) : (p.make m).Sound := by
  have turn := turn sound m
  constructor
  · -- References lead to runtimes that were there, or to the new one.
    intro r alive
    rcases alive_of_alive_make alive with alive | ⟨rfl, more⟩
    · exact Nat.lt_of_lt_of_le (sound.inRange r alive) turn.count
    · rw [more]
      exact Nat.lt_succ_self _
  · -- Neither a step nor a build leaves a chunk failed.
    intro r
    rcases turn.store_or_built r with step | ⟨rt, built, store⟩
    · exact step.unfailed (sound.unfailed r)
    · rw [store]
      intro c
      rcases built.state c with state | state
      · simp [state]
      · simp [state]

theorem Reachable.sound (h : p.Reachable) : p.Sound := by
  induction h with
  | fresh onInject onHint =>
    constructor
    · intro r alive
      simp [alive_iff, Page.fresh, Assoc.empty] at alive
    · intro r c
      simp [Page.fresh, store, runtime, noRuntime]
  | make m h sound => exact sound.make m

theorem Reachable.turn (h : p.Reachable) (m : Move) : Turn p m := Page.turn h.sound m

theorem inRange_of_loaded {c : ChunkId} (loaded : (p.store r).state c = .loaded) :
    r < p.core.count := by
  by_contra outside
  rw [store_outOfRange outside] at loaded
  cases loaded

/-- A chunk that is loaded stays so. -/
theorem Reachable.loaded_follow (h : p.Reachable) {c : ChunkId}
    (loaded : (p.store r).state c = .loaded) (ms : List Move) :
    ((p.follow ms).store r).state c = .loaded := by
  induction ms generalizing p with
  | nil => exact loaded
  | cons m ms ih =>
    have step := (h.turn m).store (inRange_of_loaded loaded)
    exact ih (.make m h) (step.loaded (h.sound.unfailed r) loaded)

/-- A runtime that is gone is not referred to again. -/
theorem gone_make (inRange : r < p.runtimes.length) (gone : p.alive r = false) (m : Move) :
    (p.make m).alive r = false := by
  by_contra back
  rcases alive_of_alive_make (by simpa using back) with alive | ⟨new, -⟩
  · rw [gone] at alive
    cases alive
  · exact absurd new (Nat.ne_of_gt inRange)

end ChunkLoading.Page
