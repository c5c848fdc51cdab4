import ChunkLoading.Proofs.Core
import ChunkLoading.Proofs.References
import ChunkLoading.Proofs.Store

/-!
# What a move can do

`Page.turn` lists all that a move can do to the core of a page, with the guards of each case. Every
invariant of runs is proved by going through that list. It holds of pages that refer only to
runtimes that exist and on which no chunk is found failed (`Sound`), and a move keeps them so.
-/

namespace ChunkLoading.Page

/-- The entries that a move hands to a runtime: those of a startup, and those of a delivery. -/
def offers (p : Page) (r : RuntimeId) : Move → List DeferredEntry
  | .call .. | .poll .. => []
  | .task =>
    match p.agenda with
    | .perform (.startup name (.ok es)) _ :: _ => if p.names.get? name = some r then es else []
    | .merge r' d :: _ => if r' = r then d.entries else []
    | _ => []

/-- The entries that a startup hands to a runtime. -/
def startups (r : RuntimeId) (p : Page) : Move → List DeferredEntry
  | .call .. | .poll .. => []
  | .task =>
    match p.agenda with
    | .perform (.startup name (.ok es)) _ :: _ => if p.names.get? name = some r then es else []
    | _ => []

/-- The blueprint that a move is to build a runtime from. -/
def plan? (p : Page) : Move → Option Blueprint
  | .call .. | .poll .. => none
  | .task =>
    match p.agenda with
    | .perform (.create _ (.ok b) _) _ :: _ => some b
    | _ => none

/-- What a move does to the core of a page. -/
inductive Turn (p : Page) (m : Move) : Prop where
  /-- Nothing. -/
  | beside (core : (p.make m).core = p.core)
      (offers : ∀ r, (p.core.worklist r).isSome → p.offers r m = [])
  /-- A runtime is built. -/
  | created (b : Blueprint) (x : Option ExtensionId) (rt : Runtime) (built : b.build x = .ok rt)
      (core : (p.make m).core = p.core.create rt) (offers : ∀ r, p.offers r m = [])
      (planned : p.plan? m = some b)
  /-- A chunk is hinted to the host. -/
  | hinted (r : RuntimeId) (c : ChunkId) (kind : HintKind) (address : String)
      (nonce crossOrigin : Option String) (inRange : r < p.core.count)
      (idle : (p.core.store r).state c = .notRequested)
      (core : (p.make m).core = (p.core.setStore r ((p.core.store r).assign c .hintOnly)).note
        [.hinted r c kind address nonce crossOrigin])
      (offers : ∀ r, p.offers r m = [])
  /-- An attempt is started, and the host gets its resource request. -/
  | started (r : RuntimeId) (c : ChunkId) (number : Nat) (q : Request) (inRange : r < p.core.count)
      (idle : ((p.core.store r).state c).isIdle)
      (request : q.runtime = r ∧ q.chunk = c ∧ q.attempt = (p.core.store r).attempts + 1)
      (core : (p.make m).core = (p.core.setStore r ((p.core.store r).start c)).note
        [.injected number q])
      (offers : ∀ r, p.offers r m = [])
  /-- The attempt of a resource that ended is rejected. -/
  | rejected (r : RuntimeId) (c : ChunkId) (n : Attempt) (e : LoadError)
      (inRange : r < p.core.count) (loading : (p.core.store r).state c = .loading n)
      (own : ∀ c', e ≠ .abandoned c') (alive : (p.make m).alive r)
      (core : (p.make m).core = ((p.core.setStore r ((p.core.store r).reset c)).note
        [.rejected r c n]).settleAttempt r c n (.failed e))
      (offers : ∀ r, p.offers r m = [])
  /-- The chunks and modules of a delivery are merged. -/
  | merged (r : RuntimeId) (d : Delivery) (inRange : r < p.core.count)
      (core : (p.make m).core = ((p.core.setStore r ((p.core.store r).merge d).store).note
        (.merged r d :: ((p.core.store r).merge d).loaded.map (.loaded r ·))).call
        [.resolve r d ((p.core.store r).merge d).waiting ((p.core.store r).merge d).clashes,
          .defer r d.entries])
      (offers : ∀ r', p.offers r' m = if r = r' then d.entries else [])
      (pending : .merge r d ∈ p.agenda)
  /-- The attempts that waited for a delivery end. -/
  | resolved (r : RuntimeId) (d : Delivery) (waiting : List (ChunkId × Attempt))
      (clashes : List ModuleId) (k : Core) (inRange : r < p.core.count)
      (pending : p.core = k.call [.resolve r d waiting clashes])
      (core : (p.make m).core = k.resolve r d waiting clashes)
      (offers : ∀ r, p.offers r m = [])
  /-- Entries of a delivery are dropped by a runtime without a worklist. -/
  | dropped (r : RuntimeId) (es : List DeferredEntry) (k : Core)
      (pending : p.core = k.call [.defer r es]) (none : p.core.worklist r = none)
      (core : (p.make m).core = k) (offers : ∀ r, p.offers r m = [])
  /-- Entries of a delivery are added to a worklist, and those that can run are taken. -/
  | deferred (r : RuntimeId) (es : List DeferredEntry) (w : Worklist) (k : Core)
      (inRange : r < p.core.count) (pending : p.core = k.call [.defer r es])
      (some : p.core.worklist r = some w)
      (core : (p.make m).core = (k.note [.registered r es]).runReady r (w ++ es))
      (offers : ∀ r, p.offers r m = [])
  /-- Entries of a startup are added to a worklist, and those that can run are taken. -/
  | startedUp (r : RuntimeId) (es : List DeferredEntry) (w : Worklist) (inRange : r < p.core.count)
      (some : p.core.worklist r = some w)
      (core : (p.make m).core = (p.core.note [.registered r es]).runReady r (w ++ es))
      (offers : ∀ r', p.offers r' m = if r = r' then es else [])
  /-- The entries of a worklist that can run are taken. -/
  | scanned (r : RuntimeId) (w : Worklist) (inRange : r < p.core.count)
      (some : p.core.worklist r = some w) (core : (p.make m).core = p.core.runReady r w)
      (offers : ∀ r, p.offers r m = [])
  /-- Entries of a startup are to be run at once by a runtime without a worklist. -/
  | hurried (r : RuntimeId) (es : List DeferredEntry) (none : p.core.worklist r = none)
      (core : (p.make m).core = p.core.call (es.map (.enter r ·)))
      (offers : ∀ r', (p.core.worklist r').isSome → p.offers r' m = [])
      (given : startups r p m = es)
  /-- An entry is run. -/
  | entered (r : RuntimeId) (e : DeferredEntry) (k : Core) (pending : p.core = k.call [.enter r e])
      (core : (p.make m).core = k.note [.entered r e]) (offers : ∀ r, p.offers r m = [])

/-! ## The task at hand -/

variable {p : Page} {r : RuntimeId}

/-- The page without the task at hand. -/
def rest (p : Page) : Page := { p with agenda := p.agenda.tail }

/-- The tasks that are left once the one at hand is taken off. -/
theorem agenda_rest {t : Task} {ts : List Task} (agenda : p.agenda = t :: ts) : p.rest.agenda = ts :=
  congrArg List.tail agenda

/-- A move of the agenda does the task at hand, on the page without it. -/
theorem make_task {t : Task} {ts : List Task} (agenda : p.agenda = t :: ts) :
    p.make .task = p.rest.act t := by
  simp only [make, step, rest, agenda, List.tail_cons]

/-- A task beside the core leaves the core as it is when it is taken off the agenda. -/
theorem core_rest {t : Task} {ts : List Task} (agenda : p.agenda = t :: ts)
    (beside : t.isCore = false) : p.rest.core = p.core := by
  refine Core.ext rfl rfl rfl rfl rfl ?_
  simp [core, rest, agenda, beside]

/-- A task of the core is the first of those that the core has to do. -/
theorem core_eq_call_rest {t : Task} {ts : List Task} (agenda : p.agenda = t :: ts)
    (isCore : t.isCore) : p.core = p.rest.core.call [t] := by
  refine Core.ext rfl rfl rfl rfl rfl ?_
  simp [core, rest, agenda, isCore, Core.call]

/-! ## What tasks do to the core -/

/-- A hint marks a chunk that nobody asked for, and tells the host of it; other chunks it leaves alone. -/
theorem core_hint (inRange : r < p.runtimes.length) (c : ChunkId) (kind : HintKind) :
    ∃ address nonce crossOrigin, (p.hint r c kind).core =
      if (p.store r).state c = .notRequested then
        (p.core.setStore r ((p.store r).assign c .hintOnly)).note
          [.hinted r c kind address nonce crossOrigin]
      else p.core := by
  unfold hint
  rw [Store.markHinted_eq]
  by_cases idle : (p.store r).state c = .notRequested
  · -- The chunk is marked, and the host is called.
    simp only [idle, if_true, core_callScript, core_note, core_setStore inRange]
    exact ⟨_, _, _, rfl⟩
  · simp only [idle, if_false, core_setStore_store]
    exact ⟨"", none, none, trivial⟩

/-- To inject a script is an event, and whatever the host does then comes later. -/
theorem core_inject (p : Page) (q : Request) :
    (p.inject q).core = p.core.note [.injected p.requests.length q] := by
  unfold inject
  rw [core_callScript, core_note]
  rfl

/-- A request that reaches the script handler starts an attempt if the chunk is idle. -/
theorem gatherFrom_script {c : ChunkId} (unfailed : (p.store r).state c ≠ .failed)
    {only : Option (List ChunkId)} (serves : Handler.serves only c) (rest : List Handler)
    (got : List Awaited) (caller : Caller) :
    p.gatherFrom r c (.script only) rest got caller = match (p.store r).state c with
      | .loaded =>
        (p.call [.gather r c rest (got ++ [.ready .ok]) caller]).setStore r (p.store r)
      | .loading n =>
        (p.call [.gather r c rest (got ++ [.attempt r c n]) caller]).setStore r (p.store r)
      | _ =>
        ((p.call [.gather r c rest (got ++ [.attempt r c ((p.store r).attempts + 1)]) caller]).setStore
          r ((p.store r).start c)).inject (p.request r c ((p.store r).attempts + 1)) := by
  simp only [gatherFrom, serves, if_true]
  rw [Store.beginLoad_eq unfailed]
  cases state : (p.store r).state c with
  | failed => exact absurd state unfailed
  | notRequested => rfl
  | hintOnly => rfl
  | loading n => rfl
  | loaded => rfl

/-- For the core, a script handler that serves a chunk starts an attempt if the chunk is idle, and does nothing
otherwise: it waits for the attempt under way, or the chunk is there. -/
theorem core_gather_script (inRange : r < p.runtimes.length) {c : ChunkId}
    (unfailed : (p.store r).state c ≠ .failed) {only : Option (List ChunkId)}
    (serves : Handler.serves only c) (rest : List Handler) (got : List Awaited)
    (caller : Caller) :
    (p.gatherFrom r c (.script only) rest got caller).core =
      if ((p.store r).state c).isIdle then
        (p.core.setStore r ((p.store r).start c)).note
          [.injected p.requests.length (p.request r c ((p.store r).attempts + 1))]
      else p.core := by
  have asking (got : List Awaited) : (p.call [.gather r c rest got caller]).core = p.core := by
    simp [Task.isCore]
  have waiting (got : List Awaited) :
      ((p.call [.gather r c rest got caller]).setStore r (p.store r)).core = p.core :=
    (core_setStore_store (p.call [.gather r c rest got caller]) r).trans (asking got)
  have injecting (n : Attempt) (s : Store) :
      (((p.call [.gather r c rest (got ++ [.attempt r c n]) caller]).setStore r s).inject
        (p.request r c n)).core =
      (p.core.setStore r s).note [.injected p.requests.length (p.request r c n)] := by
    have still : r < (p.call [.gather r c rest (got ++ [.attempt r c n]) caller]).runtimes.length :=
      inRange
    rw [core_inject, core_setStore still, asking]
    rfl
  rw [gatherFrom_script unfailed serves]
  -- Only in the two idle states is a script injected; in the others the handler has something to wait for.
  cases state : (p.store r).state c with
  | failed => exact absurd state unfailed
  | notRequested => exact injecting ..
  | hintOnly => exact injecting ..
  | loading n => exact waiting ..
  | loaded => exact waiting ..

/-- All other handlers are beside the core: they do not serve the chunk, or give hints, or have an answer of their
own. -/
theorem core_gather_beside {c : ChunkId} {handler : Handler} {rest : List Handler}
    {got : List Awaited} {caller : Caller}
    (beside : ∀ only, handler = .script only → Handler.serves only c = false) :
    (p.gatherFrom r c handler rest got caller).core = p.core := by
  cases handler with
  | script only => simp [gatherFrom, beside only rfl, Task.isCore]
  | noop => simp [gatherFrom, Task.isCore]
  | preload children =>
    -- It calls for hints, which are no tasks of the core.
    simp only [gatherFrom]
    refine (core_call_beside ?_).trans (by simp [Task.isCore])
    intro t member
    obtain ⟨child, -, rfl⟩ := List.mem_map.mp member
    rfl
  | custom name only answer =>
    have asked (got : List Awaited) (serves : Bool) :
        ((p.call [.gather r c rest got caller]).note [.asked name c serves]).core = p.core := by
      simp [Task.isCore, Event.isCore]
    -- It answers at once, or is asked to; either way the other handlers come next.
    simp only [gatherFrom]
    split
    · split
      · exact asked ..
      · split
        · exact asked ..
        · exact asked (got ++ [.manual name c]) true
    · exact asked ..

/-- A resource that ends rejects the attempt that it was asked for, if the runtime is still there and its chunk is
still under way by that attempt. -/
theorem core_complete {q : Request} (inRange : q.runtime < p.runtimes.length) (e : ResourceEvent) :
    (p.complete q e).core =
      if p.alive q.runtime ∧ (p.store q.runtime).state q.chunk = .loading q.attempt then
        ((p.core.setStore q.runtime ((p.store q.runtime).reset q.chunk)).note
          [.rejected q.runtime q.chunk q.attempt]).settleAttempt q.runtime q.chunk q.attempt
          (.failed (e.failure q.chunk q.address))
      else p.core := by
  unfold complete
  rw [Store.fail_eq]
  by_cases alive : p.alive q.runtime
  · by_cases loading : (p.store q.runtime).state q.chunk = .loading q.attempt
    · -- The runtime is still there when its attempt ends.
      have still : q.runtime < ((p.setStore q.runtime ((p.store q.runtime).reset q.chunk)).note
          [.rejected q.runtime q.chunk q.attempt]).runtimes.length := by
        simpa [note, setStore] using inRange
      simp only [alive, loading, if_true, and_self, core_settleAttempt still, core_note,
        core_setStore inRange]
      rfl
    · simp [alive, loading, core_setStore_store]
  · simp [alive]

/-- A merge changes the store at once, while the attempts that waited end later, and entries are deferred after
that. -/
theorem core_merge (inRange : r < p.runtimes.length) (d : Delivery) :
    (p.merge r d).core = ((p.core.setStore r ((p.store r).merge d).store).note
      (.merged r d :: ((p.store r).merge d).loaded.map (.loaded r ·))).call
      [.resolve r d ((p.store r).merge d).waiting ((p.store r).merge d).clashes,
        .defer r d.entries] := by
  -- Observers and hints are called for as well, but they are beside the core.
  have observers : ((p.runtime r).extension.toList.map (Task.observe · d)).filter Task.isCore =
      [] := by
    cases (p.runtime r).extension <;> rfl
  have hints : (if (p.runtime r).prefetch then d.prefetch.map (Task.hint r · .prefetch)
      else []).filter Task.isCore = [] := by
    split
    · simp [List.filter_eq_nil_iff, Task.isCore]
    · rfl
  have events : (Event.merged r d :: ((p.store r).merge d).loaded.map (.loaded r ·)).filter
      Event.isCore = .merged r d :: ((p.store r).merge d).loaded.map (.loaded r ·) := by
    simp [List.filter_eq_self, Event.isCore]
  have merging : (p.runtime r).store = p.store r := rfl
  simp only [merge, core_call, core_note, core_setStore inRange, List.filter_append, observers,
    hints, merging, events, List.nil_append]
  rfl

/-- Ending the attempts of a delivery one by one does the same to the core. -/
theorem core_resolve (inRange : r < p.runtimes.length) (d : Delivery)
    (waiting : List (ChunkId × Attempt)) (clashes : List ModuleId) :
    (p.resolve r d waiting clashes).core = p.core.resolve r d waiting clashes := by
  unfold resolve Core.resolve
  induction waiting generalizing p with
  | nil => rfl
  | cons w waiting ih =>
    have still : r < (p.settleAttempt r w.1 w.2 (mergeResult d clashes)).runtimes.length := by
      simpa [settleAttempt, note] using inRange
    rw [List.foldl_cons, List.foldl_cons, ih still, core_settleAttempt inRange]

/-- The entries that can run are taken off the worklist, and are to be run next. -/
theorem core_runReady {w : Worklist} (inRange : r < p.runtimes.length)
    (some : (p.runtime r).worklist = some w) :
    (p.runReady r).core = p.core.runReady r w := by
  have taken : ((p.readyEntries r).map (Task.enter r ·)).filter Task.isCore =
      (w.ready (p.store r).isLoaded).map (.enter r ·) := by
    rw [readyEntries, some, List.filter_eq_self.mpr]
    · rfl
    · intro t member
      obtain ⟨e, -, rfl⟩ := List.mem_map.mp member
      rfl
  have store : Function.update p.core.store r (p.runtime r).store = p.core.store :=
    Function.update_eq_self r p.core.store
  have outcomes : Function.update p.core.outcomes r (p.runtime r).outcomes = p.core.outcomes :=
    Function.update_eq_self r p.core.outcomes
  unfold runReady
  rw [core_call, taken, core_modifyRuntime inRange, store, outcomes]
  simp only [some, Option.map_some]
  rfl

/-- A runtime without a worklist has no entries to take. -/
theorem core_runReady_none (none : (p.runtime r).worklist = none) :
    (p.runReady r).core = p.core := by
  have taken : p.readyEntries r = [] := by
    simp [readyEntries, none, Worklist.ready]
  unfold runReady
  rw [taken, List.map_nil, core_call, List.filter_nil, Core.call_nil]
  by_cases inRange : r < p.runtimes.length
  · rw [core_modifyRuntime inRange]
    simp [none, core, store]
  · rw [modifyRuntime_outOfRange inRange]

/-- The entries of a delivery are added to the worklist, and those that can run are taken at once. -/
theorem core_defer {w : Worklist} (inRange : r < p.runtimes.length)
    (some : (p.runtime r).worklist = some w) (es : List DeferredEntry) :
    (p.defer r es).core = (p.core.note [.registered r es]).runReady r (w ++ es) := by
  let added := p.modifyRuntime r ({ · with worklist := Option.some (w ++ es) })
  have entries : p.addEntries r es = added.note [.registered r es] := by
    unfold addEntries
    rw [some]
  have still : r < (added.note [.registered r es]).runtimes.length := by
    simpa [added, note] using inRange
  have waits : ((added.note [.registered r es]).runtime r).worklist = Option.some (w ++ es) := by
    have changed := runtime_modifyRuntime p r ({ · with worklist := Option.some (w ++ es) }) r
    rw [if_pos ⟨rfl, inRange⟩] at changed
    exact congrArg Runtime.worklist changed
  unfold defer
  rw [entries, core_runReady still waits, core_note, core_setWorklist inRange]
  simp only [Core.runReady, Core.setWorklist, Core.note, Function.update_idem]
  rfl

/-- A runtime without a worklist drops the entries of a delivery. -/
theorem core_defer_none (none : (p.runtime r).worklist = none) (es : List DeferredEntry) :
    (p.defer r es).core = p.core := by
  unfold defer addEntries
  rw [none]
  exact core_runReady_none none

/-- A startup does to a worklist what a delivery with these entries does. -/
theorem core_startup {w : Worklist} (inRange : r < p.runtimes.length)
    (some : (p.runtime r).worklist = some w) (es : List DeferredEntry) :
    (p.startup r es).core = (p.core.note [.registered r es]).runReady r (w ++ es) := by
  unfold startup
  rw [some]
  exact core_defer inRange some es

/-- A runtime without a worklist runs the entries of a startup at once, whatever they need. -/
theorem core_startup_none (none : (p.runtime r).worklist = none) (es : List DeferredEntry) :
    (p.startup r es).core = p.core.call (es.map (.enter r ·)) := by
  unfold startup
  rw [none]
  simp only [core_call]
  rw [List.filter_eq_self.mpr]
  intro t member
  obtain ⟨e, -, rfl⟩ := List.mem_map.mp member
  rfl

/-- An entry that is run is an event, whether its module is there or not. -/
theorem core_enter (p : Page) (r : RuntimeId) (e : DeferredEntry) :
    (p.enter r e).core = p.core.note [.entered r e] := by
  simp only [enter]
  split
  · rw [core_call_beside (by simp [Task.isCore]), core_note]
    rfl
  · rw [core_report, core_note]
    rfl

/-! ## Every move -/

/-- What is known of every page of a run without looking at what happened. -/
structure Sound (p : Page) : Prop where
  inRange : p.InRange
  unfailed : ∀ r, (p.store r).NoneFailed

/-- Taking a task off the agenda can only take references away. -/
theorem Sound.rest (sound : p.Sound) : p.rest.Sound where
  inRange := by
    intro r alive
    apply sound.inRange r
    simp only [alive_iff] at alive ⊢
    refine alive.imp_right (Or.imp_right (Or.imp_right ?_))
    rintro ⟨t, member, uses⟩
    exact ⟨t, List.mem_of_mem_tail member, uses⟩
  unfailed := sound.unfailed

/-- A resource ends: its attempt is rejected, or nothing is left that waits for it. -/
theorem turn_complete (sound : p.Sound) {ref : RequestRef} {event : ResourceEvent} {nested : Bool}
    {ts : List Task} (agenda : p.agenda = .perform (.complete ref event) nested :: ts) :
    Turn p .task := by
  have made : p.make .task = p.rest.perform nested (.complete ref event) := make_task agenda
  have kept : p.rest.core = p.core := core_rest agenda rfl
  have offers : ∀ r, p.offers r .task = [] := fun _ => by simp [offers, agenda]
  simp only [perform] at made
  split at made
  · exact .beside (by rw [made, core_answerWith, kept]) fun r _ => offers r
  · rename_i q found
    by_cases alive : p.rest.alive q.runtime
    · have inRange := sound.rest.inRange q.runtime alive
      have core := core_complete inRange event
      by_cases loading : (p.rest.store q.runtime).state q.chunk = .loading q.attempt
      · -- The attempt of the resource is the one that its chunk is under way by.
        rw [if_pos ⟨alive, loading⟩] at core
        refine .rejected q.runtime q.chunk q.attempt (event.failure q.chunk q.address) inRange
          loading ?_ ?_ ?_ offers
        · intro c
          cases event <;> simp [ResourceEvent.failure]
        · rw [made, alive_answerWith]
          unfold complete
          rw [Store.fail_eq]
          simp [alive, loading]
        · rw [made, core_answerWith, core, kept]
          rfl
      · -- The resource comes too late.
        rw [if_neg fun h => loading h.2] at core
        exact .beside (by rw [made, core_answerWith, core, kept]) fun r _ => offers r
    · -- The runtime that asked for the resource is gone.
      refine .beside ?_ fun r _ => offers r
      rw [made, core_answerWith]
      unfold complete
      rw [if_neg alive, kept]

/-- A startup hands its entries to the worklist of a named runtime, or has them run at once. -/
theorem turn_startup (sound : p.Sound) {name : String}
    {entries : Except Failure (List DeferredEntry)} {nested : Bool}
    {ts : List Task} (agenda : p.agenda = .perform (.startup name entries) nested :: ts) :
    Turn p .task := by
  have made : p.make .task = p.rest.perform nested (.startup name entries) := make_task agenda
  have kept : p.rest.core = p.core := core_rest agenda rfl
  simp only [perform, withRuntime] at made
  split at made
  · rename_i r named
    have inRange : r < p.rest.runtimes.length := sound.rest.inRange r (alive_of_name named)
    cases entries with
    | error e =>
      refine .beside ?_ fun r _ => by simp [offers, agenda]
      rw [made, core_answerWith, kept]
    | ok es =>
      have offers : ∀ r', p.offers r' .task = if r = r' then es else [] := by
        intro r'
        have named : p.names.get? name = some r := named
        simp [offers, agenda, named]
      let begun := p.rest.call [.conclude .done nested (some r)]
      have made : p.make .task = begun.startup r es := made
      have concluding : begun.core = p.core := by
        rw [core_call_beside (by simp [Task.isCore]), kept]
      -- A runtime that defers has a worklist; one that does not runs the entries itself.
      cases worklist : (p.runtime r).worklist with
      | none =>
        refine .hurried r es worklist ?_ ?_ ?_
        · rw [made, ← concluding]
          exact core_startup_none (p := begun) worklist es
        · intro r' some
          rw [offers, if_neg]
          rintro rfl
          rw [show p.core.worklist r = none from worklist] at some
          cases some
        · have named : p.names.get? name = some r := named
          simp [startups, agenda, named]
      | some w =>
        refine .startedUp r es w inRange worklist ?_ offers
        rw [made, ← concluding]
        exact core_startup (p := begun) inRange worklist es
  · rename_i unnamed
    -- There is no runtime of that name, so nobody is offered the entries.
    refine .beside ?_ ?_
    · rw [made, core_answerWith, kept]
    · intro r' _
      have unnamed : p.names.get? name = none := unnamed
      cases entries <;> simp [offers, agenda, unnamed]

/-- The worklist of a named runtime is scanned, if it has one. -/
theorem turn_runSatisfied (sound : p.Sound) {name : String} {nested : Bool} {ts : List Task}
    (agenda : p.agenda = .perform (.runSatisfied name) nested :: ts) : Turn p .task := by
  have made : p.make .task = p.rest.perform nested (.runSatisfied name) := make_task agenda
  have kept : p.rest.core = p.core := core_rest agenda rfl
  have offers : ∀ r, p.offers r .task = [] := fun _ => by simp [offers, agenda]
  simp only [perform, withRuntime] at made
  split at made
  · rename_i r named
    have inRange : r < p.rest.runtimes.length := sound.rest.inRange r (alive_of_name named)
    have concluding (a : Answer) : (p.rest.call [.conclude a nested (some r)]).core = p.core := by
      rw [core_call_beside (by simp [Task.isCore]), kept]
    cases worklist : (p.runtime r).worklist with
    | none =>
      refine .beside ?_ fun r _ => offers r
      rw [made, ← concluding]
      exact core_runReady_none worklist
    | some w =>
      refine .scanned r w inRange worklist ?_ offers
      rw [made, ← concluding]
      exact core_runReady inRange worklist
  · -- There is no runtime of that name.
    refine .beside ?_ fun r _ => offers r
    rw [made, core_answerWith, kept]

/-- The turns of commands: three of them have cases of their own, `create` builds a runtime, and what the others do
to the core comes later. -/
theorem turn_perform (sound : p.Sound) {command : Command} {nested : Bool} {ts : List Task}
    (agenda : p.agenda = .perform command nested :: ts) : Turn p .task := by
  have made : p.make .task = p.rest.perform nested command := make_task agenda
  have kept : p.rest.core = p.core := core_rest agenda rfl
  cases command with
  | complete ref event => exact turn_complete sound agenda
  | startup name entries => exact turn_startup sound agenda
  | runSatisfied name => exact turn_runSatisfied sound agenda
  | create name plan extension =>
    simp only [perform] at made
    -- A plan may be wrong, and then no runtime is built.
    cases built : p.rest.addRuntime name plan extension with
    | error e =>
      simp only [built] at made
      exact .beside (by rw [made, core_answerWith, kept]) (fun _ _ => by simp [offers, agenda])
    | ok q =>
      simp only [built] at made
      obtain ⟨b, x, rt, rfl, built, core⟩ := core_addRuntime built
      refine .created b x rt built ?_ (fun _ => by simp [offers, agenda]) (by simp [plan?, agenda])
      rw [made, core_answerWith, core, kept]
  | _ =>
    refine .beside ?_ (fun _ _ => by simp [offers, agenda])
    rw [made, core_perform rfl, kept]

/-- To ask a handler for a chunk starts an attempt exactly if it is the script handler, serves the chunk, and the
chunk is idle. -/
theorem turn_gather (sound : p.Sound) {c : ChunkId} {handlers : List Handler}
    {got : List Awaited} {caller : Caller} {ts : List Task}
    (agenda : p.agenda = .gather r c handlers got caller :: ts) : Turn p .task := by
  have made : p.make .task = p.rest.gather r c handlers got caller := make_task agenda
  have kept : p.rest.core = p.core := core_rest agenda rfl
  have offers : ∀ r, p.offers r .task = [] := fun _ => by simp [offers, agenda]
  have inRange : r < p.rest.runtimes.length :=
    sound.inRange r (alive_of_task (agenda ▸ List.mem_cons_self) (by simp [Task.uses]))
  cases handlers with
  | nil =>
    -- All handlers were asked: what they gave goes to the caller.
    refine .beside ?_ fun r _ => offers r
    rw [made]
    exact (core_gathered ..).trans kept
  | cons handler rest =>
    have made : p.make .task = p.rest.gatherFrom r c handler rest got caller := made
    -- The handlers that start an attempt are the script handlers that serve the chunk.
    by_cases asked : ∃ only, handler = .script only ∧ Handler.serves only c
    · obtain ⟨only, rfl, serves⟩ := asked
      have core := core_gather_script inRange (sound.unfailed r c) serves rest got caller
      by_cases idle : ((p.rest.store r).state c).isIdle
      · rw [if_pos idle] at core
        refine .started r c p.rest.requests.length
          (p.rest.request r c ((p.rest.store r).attempts + 1)) inRange idle ⟨rfl, rfl, rfl⟩ ?_
          offers
        rw [made, core, kept]
        rfl
      · rw [if_neg idle] at core
        exact .beside (by rw [made, core, kept]) fun r _ => offers r
    · refine .beside ?_ fun r _ => offers r
      rw [made, core_gather_beside, kept]
      intro only same
      by_contra serves
      exact asked ⟨only, same, by simpa using serves⟩

/-- **Every move is one of the listed turns.** -/
theorem turn (sound : p.Sound) (m : Move) : Turn p m := by
  cases m with
  | call command nested => exact .beside (core_call_beside (by simp [Task.isCore])) fun _ _ => rfl
  | poll next => exact .beside (core_call_beside (by simp [Task.isCore])) fun _ _ => rfl
  | task =>
    cases agenda : p.agenda with
    | nil =>
      -- There is no task at hand.
      have still : p.make .task = p := by simp [make, step, agenda]
      exact .beside (by rw [still]) fun _ _ => by simp [offers, agenda]
    | cons t ts =>
      have made := make_task agenda
      have uses (r : RuntimeId) (h : t.uses r) : r < p.runtimes.length :=
        sound.inRange r (alive_of_task (agenda ▸ List.mem_cons_self) h)
      cases t with
      | perform command nested => exact turn_perform sound agenda
      | gather r c handlers got caller => exact turn_gather sound agenda
      | hint r c kind =>
        have inRange := uses r (by simp [Task.uses])
        have kept : p.rest.core = p.core := core_rest agenda rfl
        have offers : ∀ r, p.offers r .task = [] := fun _ => by simp [offers, agenda]
        obtain ⟨address, nonce, crossOrigin, core⟩ := core_hint (p := p.rest) inRange c kind
        by_cases idle : (p.rest.store r).state c = .notRequested
        · rw [if_pos idle] at core
          refine .hinted r c kind address nonce crossOrigin inRange idle ?_ offers
          rw [made]
          exact core.trans (by rw [kept]; rfl)
        · rw [if_neg idle] at core
          exact .beside (by rw [made]; exact core.trans kept) fun r _ => offers r
      | merge r d =>
        have inRange := uses r (by simp [Task.uses])
        have kept : p.rest.core = p.core := core_rest agenda rfl
        refine .merged r d inRange ?_ (fun r' => by simp [offers, agenda])
          (agenda ▸ List.mem_cons_self)
        rw [made]
        exact (core_merge (p := p.rest) inRange d).trans (by rw [kept]; rfl)
      | resolve r d waiting clashes =>
        have inRange := uses r (by simp [Task.uses])
        refine .resolved r d waiting clashes p.rest.core inRange (core_eq_call_rest agenda rfl) ?_
          fun _ => by simp [offers, agenda]
        rw [made]
        exact core_resolve (p := p.rest) inRange d waiting clashes
      | defer r es =>
        have inRange := uses r (by simp [Task.uses])
        have offers : ∀ r, p.offers r .task = [] := fun _ => by simp [offers, agenda]
        have pending := core_eq_call_rest agenda rfl
        cases worklist : (p.runtime r).worklist with
        | none =>
          refine .dropped r es p.rest.core pending worklist ?_ offers
          rw [made]
          exact core_defer_none (p := p.rest) worklist es
        | some w =>
          refine .deferred r es w p.rest.core inRange pending worklist ?_ offers
          rw [made]
          exact core_defer (p := p.rest) inRange worklist es
      | enter r e =>
        refine .entered r e p.rest.core (core_eq_call_rest agenda rfl) ?_
          fun _ => by simp [offers, agenda]
        rw [made]
        exact core_enter ..
      | _ =>
        refine .beside ?_ fun _ _ => by simp [offers, agenda]
        rw [made, ← core_rest agenda rfl]
        simp [act]

end ChunkLoading.Page
