import ChunkLoading.Proofs.Frame

/-!
# References to runtimes

A runtime lives as long as a name, a queue, an import or a task refers to it. References come only
from references: `alive_of_alive_make` says that a move keeps alive no runtime that nothing referred
to before, a new one apart. So references never lead to runtimes that do not exist, and a runtime
that is gone stays so.
-/

namespace ChunkLoading

namespace Page

variable {p q : Page} {r : RuntimeId}

/-- Every reference to a runtime leads to one that exists. -/
def InRange (p : Page) : Prop := ∀ r, p.alive r → r < p.runtimes.length

/-! ## What refers to a runtime -/

/-- A runtime lives by a name, a queue, an import or a task. -/
theorem alive_iff : p.alive r ↔ (∃ e ∈ p.names.entries, e.2 = r) ∨
    (∃ e ∈ p.queues.entries, r ∈ e.2.consumers) ∨ (∃ f ∈ p.futures, f.progress.holds r) ∨
    ∃ t ∈ p.agenda, t.uses r := by
  simp [alive, or_assoc]

/-- What a name stands for is alive. -/
theorem alive_of_name {name : String} (h : p.names.get? name = some r) : p.alive r :=
  alive_iff.mpr (.inl ⟨_, Assoc.mem_of_get? h, rfl⟩)

/-- A consumer of a queue is alive. -/
theorem alive_of_consumer {queue : String} (h : r ∈ (p.queue queue).consumers) : p.alive r := by
  cases found : p.queues.get? queue with
  | none => simp [Page.queue, found, Queue.empty] at h
  | some q =>
    have member := Assoc.mem_of_get? found
    simp only [Page.queue, found, Option.getD_some] at h
    exact alive_iff.mpr (.inr (.inl ⟨_, member, h⟩))

/-- What a task on the agenda uses is alive. -/
theorem alive_of_task {t : Task} (h : t ∈ p.agenda) (uses : t.uses r) : p.alive r :=
  alive_iff.mpr (.inr (.inr (.inr ⟨t, h, uses⟩)))

/-- What an import holds is alive. -/
theorem alive_of_future {future : Future} (h : future ∈ p.futures)
    (holds : future.progress.holds r) : p.alive r :=
  alive_iff.mpr (.inr (.inr (.inl ⟨future, h, holds⟩)))

/-! ## What the operations of a page add -/

/-- Tasks that are called for keep their runtimes alive. -/
@[simp] theorem alive_call (p : Page) (ts : List Task) (r : RuntimeId) :
    (p.call ts).alive r = (ts.any (Task.uses r) || p.alive r) := by
  simp only [alive, call, List.any_append]
  ac_rfl

/-- Commands refer to runtimes by name only, so calling a script refers to none. -/
@[simp] theorem alive_callScript (p : Page) (s : Script) (r : RuntimeId) :
    (p.callScript s).alive r = p.alive r := by
  simp [callScript, Function.comp_def, Task.uses]

@[simp] theorem alive_note (p : Page) (es : List Event) (r : RuntimeId) :
    (p.note es).alive r = p.alive r := rfl

@[simp] theorem alive_report (p : Page) (r' : RuntimeId) (e : LoadError) (r : RuntimeId) :
    (p.report r' e).alive r = p.alive r := rfl

/-- A runtime that is changed is referred to as before. -/
@[simp] theorem alive_modifyRuntime (p : Page) (r' : RuntimeId) (f : Runtime → Runtime)
    (r : RuntimeId) : (p.modifyRuntime r' f).alive r = p.alive r := rfl

@[simp] theorem alive_setStore (p : Page) (r' : RuntimeId) (s : Store) (r : RuntimeId) :
    (p.setStore r' s).alive r = p.alive r := rfl

@[simp] theorem alive_settleAttempt (p : Page) (r' : RuntimeId) (c : ChunkId) (n : Attempt)
    (result : LoadResult) (r : RuntimeId) :
    (p.settleAttempt r' c n result).alive r = p.alive r := rfl

@[simp] theorem alive_setBootstrap (p : Page) (x : ExtensionId) (b : Bootstrap) (r : RuntimeId) :
    (p.setBootstrap x b).alive r = p.alive r := rfl

@[simp] theorem alive_answerWith (p : Page) (nested : Bool) (a : Answer) (r : RuntimeId) :
    (p.answerWith nested a).alive r = p.alive r := by
  simp [answerWith, Task.uses]

@[simp] theorem alive_addDelivery (p : Page) (d : DeliverySpec Command) (r : RuntimeId) :
    (p.addDelivery d).2.alive r = p.alive r := by
  rw [addDelivery_frame]
  rfl

@[simp] theorem alive_addModules (p : Page) (ms : List (ModuleSpec Command)) (r : RuntimeId) :
    (p.addModules ms).2.alive r = p.alive r := by
  rw [addModules_frame]
  rfl

/-- A new import keeps its runtime alive. -/
@[simp] theorem alive_addFuture (p : Page) (label : Option String) (progress : Progress)
    (r : RuntimeId) :
    (p.addFuture label progress).2.alive r = (progress.holds r || p.alive r) := by
  simp only [addFuture, alive, List.any_append, List.any_cons, List.any_nil, Bool.or_false]
  ac_rfl

/-- A future that is changed refers to no runtime but by its new progress. -/
theorem alive_of_alive_modifyFuture {f : FutureId} {g : Future → Future}
    (h : (p.modifyFuture f g).alive r) :
    p.alive r ∨ ∃ future ∈ p.futures, (g future).progress.holds r := by
  simp only [alive_iff, modifyFuture] at h ⊢
  rcases h with h | h | ⟨future, member, holds⟩ | h
  · exact .inl (.inl h)
  · exact .inl (.inr (.inl h))
  · obtain ⟨i, inside, rfl⟩ := List.mem_iff_getElem.mp member
    have old : i < p.futures.length := by simpa using inside
    rw [List.getElem_modify] at holds
    split at holds
    · exact .inr ⟨_, List.getElem_mem old, holds⟩
    · exact .inl (.inr (.inr (.inl ⟨_, List.getElem_mem old, holds⟩)))
  · exact .inl (.inr (.inr (.inr h)))

/-- A future that settles lets its runtime go. -/
theorem alive_of_alive_settleFuture {f : FutureId} {result : LoadResult}
    (h : (p.settleFuture f result).alive r) : p.alive r := by
  unfold settleFuture at h
  split at h
  · exact h
  · rw [alive_note] at h
    rcases alive_of_alive_modifyFuture h with h | ⟨future, -, holds⟩
    · exact h
    · simp [Progress.holds] at holds

/-- A change of a future that leaves its progress alone adds no reference. -/
theorem alive_of_alive_polling {f : FutureId} {b : Bool}
    (h : (p.modifyFuture f ({ · with polling := b })).alive r) : p.alive r := by
  rcases alive_of_alive_modifyFuture h with h | ⟨future, member, holds⟩
  · exact h
  · exact alive_of_future member holds

/-! ## Tasks -/

/-- An injected script refers to no runtime. -/
@[simp] theorem alive_inject (p : Page) (q : Request) (r : RuntimeId) :
    (p.inject q).alive r = p.alive r := by
  simp only [inject, alive_callScript, alive_note]
  rfl

@[simp] theorem alive_hint (p : Page) (r' : RuntimeId) (c : ChunkId) (kind : HintKind)
    (r : RuntimeId) : (p.hint r' c kind).alive r = p.alive r := by
  unfold hint
  split <;> simp

/-- A handler that is asked refers to the runtime that it is asked for. -/
theorem alive_of_alive_gatherFrom {r' : RuntimeId} {c : ChunkId} {handler : Handler}
    {rest : List Handler} {got : List Awaited} {caller : Caller}
    (h : (p.gatherFrom r' c handler rest got caller).alive r) : p.alive r ∨ r' = r := by
  -- Whatever the handler, the next ones are asked for the same runtime.
  cases handler with
  | script only =>
    simp only [gatherFrom] at h
    split at h
    · split at h <;> simpa [Task.uses, or_comm] using h
    · simpa [Task.uses, or_comm] using h
  | noop => simpa [gatherFrom, Task.uses, or_comm] using h
  | preload children =>
    simp only [gatherFrom, alive_call, Bool.or_eq_true, List.any_eq_true, List.mem_map,
      List.mem_singleton] at h
    rcases h with ⟨t, ⟨child, -, rfl⟩, uses⟩ | ⟨t, rfl, uses⟩ | h
    · exact .inr (by simpa [Task.uses] using uses)
    · exact .inr (by simpa [Task.uses] using uses)
    · exact .inl h
  | custom name only answer =>
    simp only [gatherFrom] at h
    split at h
    · split at h
      · simpa [Task.uses, or_comm] using h
      · split at h
        · simpa [Task.uses, or_comm] using h
        · have kept : ((p.call [.gather r' c rest (got ++ [.manual name c]) caller]).note
              [.asked name c true]).alive r := h
          simpa [Task.uses, or_comm] using kept
    · simpa [Task.uses, or_comm] using h

/-- Handlers that were all asked hand over to their caller. -/
theorem alive_of_alive_gather {r' : RuntimeId} {c : ChunkId} {handlers : List Handler}
    {got : List Awaited} {caller : Caller}
    (h : (p.gather r' c handlers got caller).alive r) : p.alive r ∨ r' = r := by
  cases handlers with
  | nil =>
    cases caller with
    | ensure label nested =>
      simp only [gather, gathered, alive_call, alive_addFuture, Progress.holds] at h
      simpa [Task.uses, or_comm] using h
    | importing f rest loads module =>
      simpa [gather, gathered, Task.uses, or_comm] using h
  | cons handler rest => exact alive_of_alive_gatherFrom h

/-- Asking for a chunk refers to the runtime that is asked. -/
theorem alive_of_alive_ask {r' : RuntimeId} {c : ChunkId} {caller : Caller}
    (h : (p.ask r' c caller).alive r) : p.alive r ∨ r' = r := by
  simp only [ask] at h
  split at h <;> simpa [Task.uses, or_comm] using h

/-- A resource that ends refers to no runtime. -/
theorem alive_of_alive_complete {q : Request} {e : ResourceEvent}
    (h : (p.complete q e).alive r) : p.alive r := by
  unfold complete at h
  split at h
  · split at h <;> simpa using h
  · exact h

/-- A merge calls for tasks of its own runtime. -/
theorem alive_of_alive_merge {r' : RuntimeId} {d : Delivery}
    (h : (p.merge r' d).alive r) : p.alive r ∨ r' = r := by
  simp only [merge, alive_call, alive_note, alive_setStore, Bool.or_eq_true, List.any_eq_true,
    List.mem_append, List.mem_map, List.mem_cons, List.not_mem_nil, or_false] at h
  rcases h with ⟨t, ((⟨x, -, rfl⟩ | h) | rfl | rfl), uses⟩ | h
  · simp [Task.uses] at uses
  · split at h
    · obtain ⟨c, -, rfl⟩ := List.mem_map.mp h
      simp_all [Task.uses]
    · simp at h
  · simp_all [Task.uses]
  · simp_all [Task.uses]
  · exact .inl h

/-- A delivery that is shown refers to no runtime. -/
theorem alive_of_alive_observe {x : ExtensionId} {d : Delivery}
    (h : (p.observe x d).alive r) : p.alive r := by
  unfold observe at h
  split at h
  · exact h
  · simpa using h
  · simpa [Function.comp_def, Task.uses] using h

/-- Attempts that end refer to no runtime. -/
@[simp] theorem alive_resolve (p : Page) (r' : RuntimeId) (d : Delivery)
    (waiting : List (ChunkId × Attempt)) (clashes : List ModuleId) (r : RuntimeId) :
    (p.resolve r' d waiting clashes).alive r = p.alive r := by
  unfold resolve
  induction waiting generalizing p with
  | nil => rfl
  | cons w waiting ih => rw [List.foldl_cons, ih, alive_settleAttempt]

/-- Entries that are taken are run by the same runtime. -/
theorem alive_of_alive_runReady {r' : RuntimeId} (h : (p.runReady r').alive r) :
    p.alive r ∨ r' = r := by
  simp only [runReady, alive_call, alive_modifyRuntime, Bool.or_eq_true, List.any_eq_true,
    List.mem_map] at h
  rcases h with ⟨t, ⟨e, -, rfl⟩, uses⟩ | h
  · simp_all [Task.uses]
  · exact .inl h

@[simp] theorem alive_addEntries (p : Page) (r' : RuntimeId) (es : List DeferredEntry)
    (r : RuntimeId) : (p.addEntries r' es).alive r = p.alive r := by
  unfold addEntries
  split <;> simp

theorem alive_of_alive_defer {r' : RuntimeId} {es : List DeferredEntry}
    (h : (p.defer r' es).alive r) : p.alive r ∨ r' = r := by
  simpa using alive_of_alive_runReady h

/-- An entry that is run has its factory executed by the same runtime. -/
theorem alive_of_alive_enter {r' : RuntimeId} {e : DeferredEntry}
    (h : (p.enter r' e).alive r) : p.alive r ∨ r' = r := by
  simp only [enter] at h
  split at h
  · simpa [Task.uses, or_comm] using h
  · simp at h
    exact .inl h

@[simp] theorem alive_execute (p : Page) (r' : RuntimeId) (f : FactoryId) (r : RuntimeId) :
    (p.execute r' f).alive r = p.alive r := by
  unfold execute
  split <;> simp

/-- An import that ends executes its module in its own runtime. -/
theorem alive_of_alive_endImport {f : FutureId} {r' : RuntimeId} {module : ModuleId}
    {result : LoadResult} (h : (p.endImport f r' module result).alive r) :
    p.alive r ∨ r' = r := by
  cases result with
  | ok =>
    simp only [endImport] at h
    split at h
    · simpa [Task.uses, or_comm] using h
    · exact .inl (by simpa using alive_of_alive_settleFuture h)
  | failed e => exact .inl (by simpa using alive_of_alive_settleFuture h)

/-- An import that goes on holds its own runtime. -/
theorem alive_of_alive_load {f : FutureId} {r' : RuntimeId} {rest : List ChunkId}
    {loads : List (List Awaited)} {module : ModuleId}
    (h : (p.load f r' rest loads module).alive r) : p.alive r ∨ r' = r := by
  cases rest with
  | cons c rest => exact alive_of_alive_ask h
  | nil =>
    have importing (kept : (p.modifyFuture f
        ({ · with progress := .importing r' loads module })).alive r) : p.alive r ∨ r' = r := by
      rcases alive_of_alive_modifyFuture kept with h | ⟨future, -, holds⟩
      · exact .inl h
      · exact .inr (by simpa [Progress.holds] using holds)
    simp only [load] at h
    split at h
    · exact importing h
    · exact (alive_of_alive_endImport h).elim importing .inr

/-- An import that is polled uses the runtime of the task that it calls for. -/
theorem alive_of_alive_pollImport {f : FutureId} {settledAny : Bool} {t : Task}
    (h : (p.pollImport f settledAny t).alive r) : p.alive r ∨ t.uses r := by
  simp only [pollImport, alive_call, Bool.or_eq_true, List.any_eq_true, List.mem_cons,
    List.not_mem_nil, or_false] at h
  rcases h with ⟨t', rfl | rfl, uses⟩ | h
  · exact .inr uses
  · simp [Task.uses] at uses
  · exact .inl (alive_of_alive_polling h)

/-- A pass over the futures refers to the runtimes that they hold. -/
theorem alive_of_alive_pass {next : FutureId} {settledAny : Bool}
    (h : (p.pass next settledAny).alive r) : p.alive r := by
  unfold pass at h
  split at h
  · split at h <;> simpa [Task.uses] using h
  · rename_i future found
    have member : future ∈ p.futures := List.mem_of_getElem? found
    split at h
    · simpa [Task.uses] using h
    · split at h
      · simpa [Task.uses] using h
      · split at h
        · simpa [Task.uses] using h
        · exact alive_of_alive_settleFuture (by simpa [Task.uses] using h)
      · rename_i progress
        refine (alive_of_alive_pollImport h).elim id fun uses => alive_of_future member ?_
        simpa [progress, Progress.holds, Task.uses] using uses
      · rename_i progress
        refine (alive_of_alive_pollImport h).elim id fun uses => alive_of_future member ?_
        simpa [progress, Progress.holds, Task.uses] using uses

theorem alive_of_alive_polled {f : FutureId} {settledAny : Bool}
    (h : (p.polled f settledAny).alive r) : p.alive r := by
  simp only [polled, alive_call, List.any_cons, List.any_nil, Task.uses, Bool.or_false,
    Bool.false_or] at h
  exact alive_of_alive_polling h

@[simp] theorem alive_conclude (p : Page) (a : Answer) (nested : Bool) (r : RuntimeId) :
    (p.conclude a nested).alive r = p.alive r := by
  unfold conclude
  split <;> rfl

/-! ## Commands -/

/-- An installation refers to the new consumer. -/
theorem alive_of_alive_install {r' : RuntimeId} {queue : String}
    (h : (p.install r' queue).alive r) : p.alive r ∨ r' = r := by
  simp only [install] at h
  split at h
  · exact .inl h
  · simp only [alive_call, Bool.or_eq_true, List.any_eq_true, List.mem_map] at h
    rcases h with ⟨t, ⟨d, -, rfl⟩, uses⟩ | h
    · exact .inr (by simpa [Task.uses] using uses)
    · -- Of the four kinds of references only queues have changed.
      simp only [alive_iff] at h ⊢
      rcases h with h | ⟨e, member, consumes⟩ | h | h
      · exact .inl (.inl h)
      · rcases Assoc.mem_of_mem_set member with rfl | member
        · rcases List.mem_append.mp consumes with consumes | consumes
          · exact .inl (alive_iff.mp (alive_of_consumer consumes))
          · exact .inr (by simpa [eq_comm] using consumes)
        · exact .inl (.inr (.inl ⟨e, member, consumes⟩))
      · exact .inl (.inr (.inr (.inl h)))
      · exact .inl (.inr (.inr (.inr h)))

/-- A push calls for merges by runtimes that were consumers before. -/
theorem alive_of_alive_push {queue : String} {d : Delivery}
    (h : (p.push queue d).alive r) : p.alive r := by
  simp only [push, alive_call, Bool.or_eq_true, List.any_eq_true, List.mem_map] at h
  rcases h with ⟨t, ⟨r', consumes, rfl⟩, uses⟩ | h
  · have same : r' = r := by simpa [Task.uses] using uses
    exact same ▸ alive_of_consumer (List.mem_reverse.mp consumes)
  · simp only [alive_iff] at h
    rcases h with h | ⟨e, member, consumes⟩ | h | h
    · exact alive_iff.mpr (.inl h)
    · rcases Assoc.mem_of_mem_set member with rfl | member
      · exact alive_of_consumer consumes
      · exact alive_iff.mpr (.inr (.inl ⟨e, member, consumes⟩))
    · exact alive_iff.mpr (.inr (.inr (.inl h)))
    · exact alive_iff.mpr (.inr (.inr (.inr h)))

/-- A startup refers to the runtime whose entries it has. -/
theorem alive_of_alive_startup {r' : RuntimeId} {es : List DeferredEntry}
    (h : (p.startup r' es).alive r) : p.alive r ∨ r' = r := by
  unfold startup at h
  split at h
  · exact alive_of_alive_defer h
  · simp only [alive_call, Bool.or_eq_true, List.any_eq_true, List.mem_map] at h
    rcases h with ⟨t, ⟨e, -, rfl⟩, uses⟩ | h
    · exact .inr (by simpa [Task.uses] using uses)
    · exact .inl h

/-- The end of an update runs factories in a runtime that has a name. -/
theorem alive_of_alive_finishUpdate {nested : Bool} {x : ExtensionId} {b : Bootstrap}
    {next : String} {runOn : Option String}
    (h : (p.finishUpdate nested x b next runOn).alive r) : p.alive r := by
  unfold finishUpdate at h
  split at h
  · simpa using h
  · simp only at h
    split at h
    · simpa using h
    · rename_i r' found
      obtain ⟨name, -, named⟩ := Option.bind_eq_some_iff.mp found
      simp only [alive_call, Bool.or_eq_true, List.any_eq_true, List.mem_append, List.mem_map,
        List.mem_singleton, alive_setBootstrap] at h
      rcases h with ⟨t, ⟨f, -, rfl⟩ | rfl, uses⟩ | h
      · have same : r' = r := by simpa [Task.uses] using uses
        exact same ▸ alive_of_name named
      · have same : r' = r := by simpa [Task.uses] using uses
        exact same ▸ alive_of_name named
      · exact h

@[simp] theorem alive_settleManual (p : Page) (nested : Bool) (key : String × ChunkId)
    (result : LoadResult) (r : RuntimeId) :
    (p.settleManual nested key result).alive r = p.alive r := by
  unfold settleManual
  split
  · rw [alive_answerWith]
    rfl
  · exact alive_answerWith ..

/-- A command on a named runtime refers to that runtime at most. -/
theorem alive_of_alive_withRuntime {nested : Bool} {name : String} {act : RuntimeId → Page}
    (h : (p.withRuntime nested name act).alive r)
    (acts : ∀ r', p.names.get? name = some r' → (act r').alive r → p.alive r ∨ r' = r) :
    p.alive r := by
  unfold withRuntime at h
  split at h
  · rename_i r' named
    rcases acts r' named h with h | rfl
    · exact h
    · exact alive_of_name named
  · simpa using h

/-- A command on a named bootstrap refers to no more than what it does there. -/
theorem alive_of_alive_withBootstrap {nested : Bool} {name : String}
    {act : ExtensionId → Bootstrap → Page} (h : (p.withBootstrap nested name act).alive r)
    (acts : ∀ x b, (act x b).alive r → p.alive r) : p.alive r := by
  unfold withBootstrap at h
  split at h
  · exact acts _ _ h
  · simpa using h

/-- Building a runtime adds a reference to that runtime alone. -/
theorem alive_of_alive_addRuntime {name : String} {plan : Except Failure Blueprint}
    {extension : Option (ExtensionSpec Command)} (made : p.addRuntime name plan extension = .ok q)
    (h : q.alive r) :
    p.alive r ∨ p.runtimes.length = r ∧ q.runtimes.length = p.runtimes.length + 1 := by
  obtain ⟨b, x, rt, -, frame⟩ := addRuntime_frame made
  rw [frame] at h ⊢
  simp only [alive_iff] at h ⊢
  rcases h with ⟨e, member, named⟩ | h
  · rcases Assoc.mem_of_mem_set member with rfl | member
    · exact .inr ⟨named, by simp⟩
    · exact .inl (.inl ⟨e, member, named⟩)
  · exact .inl (.inr h)

/-- A command refers to a runtime that something referred to before, or to the one it makes. -/
theorem alive_of_alive_perform {nested : Bool} {command : Command}
    (h : (p.perform nested command).alive r) :
    p.alive r ∨ p.runtimes.length = r ∧
      (p.perform nested command).runtimes.length = p.runtimes.length + 1 := by
  -- Only `create` adds a runtime; the commands that use one find it by its name.
  cases command with
  | create name plan extension =>
    simp only [perform] at h ⊢
    cases made : p.addRuntime name plan extension with
    | ok q =>
      simp only [made, alive_answerWith] at h ⊢
      have made := alive_of_alive_addRuntime made h
      exact made
    | error e => exact .inl (by simpa [made] using h)
  | drop name =>
    refine .inl ?_
    simp only [perform, alive_answerWith, alive_iff] at h ⊢
    rcases h with ⟨e, member, named⟩ | h
    · exact .inl ⟨e, Assoc.mem_of_mem_erase member, named⟩
    · exact .inr h
  | install name queue =>
    refine .inl (alive_of_alive_withRuntime h fun r' _ h => ?_)
    simpa [Task.uses, or_comm] using alive_of_alive_install h
  | push queue spec =>
    simp only [perform] at h
    exact .inl (by simpa using alive_of_alive_push h)
  | ensure name c label =>
    exact .inl (alive_of_alive_withRuntime h fun r' _ h => alive_of_alive_ask h)
  | load name cs module label =>
    refine .inl (alive_of_alive_withRuntime h fun r' _ h => ?_)
    simpa [Progress.holds, or_comm] using h
  | poll => exact .inl (by simpa [perform, Task.uses] using h)
  | hint name c kind =>
    refine .inl (alive_of_alive_withRuntime h fun r' _ h => ?_)
    simpa [Task.uses, or_comm] using h
  | complete ref event =>
    simp only [perform] at h
    split at h
    · exact .inl (by simpa using h)
    · exact .inl (alive_of_alive_complete (by simpa using h))
  | settle handler c result => exact .inl (by simpa [perform] using h)
  | execute name module =>
    refine .inl (alive_of_alive_withRuntime h fun r' _ h => ?_)
    split at h
    · simpa [Task.uses, or_comm] using h
    · exact .inl (by simpa using h)
  | startup name entries =>
    refine .inl (alive_of_alive_withRuntime h fun r' _ h => ?_)
    split at h
    · simpa [Task.uses, or_comm] using alive_of_alive_startup h
    · exact .inl (by simpa using h)
  | runSatisfied name =>
    refine .inl (alive_of_alive_withRuntime h fun r' _ h => ?_)
    simpa [Task.uses, or_comm] using alive_of_alive_runReady h
  | states name cs => exact .inl (alive_of_alive_withRuntime h fun r' _ h => by simp_all)
  | hasModule name m => exact .inl (alive_of_alive_withRuntime h fun r' _ h => by simp_all)
  | address name c => exact .inl (alive_of_alive_withRuntime h fun r' _ h => by simp_all)
  | describe name => exact .inl (alive_of_alive_withRuntime h fun r' _ h => by simp_all)
  | setExtension name spec =>
    cases spec with
    | none => exact .inl (alive_of_alive_withRuntime h fun r' _ h => by simp_all)
    | some spec =>
      refine .inl (alive_of_alive_withRuntime h fun r' _ h => ?_)
      split at h
      · rename_i added
        rw [addExtension_frame added] at h
        rw [alive_answerWith] at h
        exact .inl h
      · exact .inl (by simpa using h)
  | setSink name sink => exact .inl (alive_of_alive_withRuntime h fun r' _ h => by simp_all)
  | report name result =>
    refine .inl (alive_of_alive_withRuntime h fun r' _ h => ?_)
    split at h <;> exact .inl (by simpa using h)
  | createBootstrap hot plan previous =>
    obtain ⟨xs, bs, a, frame⟩ := createBootstrap_frame p nested hot plan previous
    rw [frame, alive_answerWith] at h
    exact .inl h
  | observe hot spec =>
    refine .inl ?_
    simpa using alive_of_alive_withBootstrap h fun x b h => by simpa [Task.uses] using h
  | manifestAddress hot =>
    exact .inl (alive_of_alive_withBootstrap h fun x b h => by simpa using h)
  | updateAddress hot c =>
    exact .inl (alive_of_alive_withBootstrap h fun x b h => by simpa using h)
  | applyManifest hot manifest =>
    refine .inl (alive_of_alive_withBootstrap h fun x b h => ?_)
    split at h <;> simpa using h
  | receive hot c specs =>
    refine .inl ?_
    simpa using alive_of_alive_withBootstrap h fun x b h => by simpa using h
  | finish hot next runOn =>
    exact .inl (alive_of_alive_withBootstrap h fun x b h => alive_of_alive_finishUpdate h)

/-! ## Runs -/

/-- A task refers to the runtime that it uses, or to one that something else referred to. -/
theorem alive_of_alive_act {t : Task} (h : (p.act t).alive r) :
    p.alive r ∨ t.uses r ∨
      p.runtimes.length = r ∧ (p.act t).runtimes.length = p.runtimes.length + 1 := by
  have used {r' : RuntimeId} (h : p.alive r ∨ r' = r) : p.alive r ∨ decide (r' = r) = true := by
    simpa using h
  cases t with
  | perform command nested =>
    rcases alive_of_alive_perform h with h | made
    · exact .inl h
    · exact .inr (.inr made)
  | conclude a nested inUse => exact .inl (by simpa [act] using h)
  | gather r' c handlers got caller => exact (used (alive_of_alive_gather h)).imp id .inl
  | hint r' c kind => exact .inl (by simpa [act] using h)
  | merge r' d => exact (used (alive_of_alive_merge h)).imp id .inl
  | observe x d => exact .inl (alive_of_alive_observe h)
  | resolve r' d waiting clashes => exact .inl (by simpa [act] using h)
  | defer r' es => exact (used (alive_of_alive_defer h)).imp id .inl
  | enter r' e => exact (used (alive_of_alive_enter h)).imp id .inl
  | execute r' f => exact .inl (by simpa [act] using h)
  | pass next settledAny => exact .inl (alive_of_alive_pass h)
  | load f r' rest loads module => exact (used (alive_of_alive_load h)).imp id .inl
  | settle f r' result => exact .inl (alive_of_alive_settleFuture h)
  | polled f settledAny => exact .inl (alive_of_alive_polled h)

/-- A move keeps alive no runtime that nothing referred to, a new one apart. -/
theorem alive_of_alive_make {m : Move} (h : (p.make m).alive r) :
    p.alive r ∨
      p.runtimes.length = r ∧ (p.make m).runtimes.length = p.runtimes.length + 1 := by
  cases m with
  | call command nested => exact .inl (by simpa [make, Task.uses] using h)
  | poll next => exact .inl (by simpa [make, Task.uses] using h)
  | task =>
    simp only [make, step] at h ⊢
    split at h
    · exact .inl h
    · rename_i t rest agenda
      rcases alive_of_alive_act h with h | uses | made
      · refine .inl ?_
        simp only [alive_iff, agenda, List.mem_cons] at h ⊢
        rcases h with h | h | h | ⟨t', member, uses⟩
        · exact .inl h
        · exact .inr (.inl h)
        · exact .inr (.inr (.inl h))
        · exact .inr (.inr (.inr ⟨t', .inr member, uses⟩))
      · exact .inl (alive_of_task (agenda ▸ List.mem_cons_self) uses)
      · exact .inr (by simpa [agenda] using made)

end Page

end ChunkLoading
