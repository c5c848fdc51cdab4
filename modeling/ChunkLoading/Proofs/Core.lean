import ChunkLoading.Proofs.Frame
import Mathlib.Logic.Function.Basic

/-!
# The core of a page

What loads are about: the stores, worklists and outcomes of the runtimes, and of events and tasks
those on chunks, attempts and entries. Most of what happens on a page is beside its core: answers,
callbacks, observers, addresses and futures change nothing of it. Each operation of a page has one
equation that says what it does to the core.
-/

namespace ChunkLoading

/-- Whether an event is about chunks, attempts or entries. -/
def Event.isCore : Event → Bool
  | .injected .. | .hinted .. | .rejected .. | .loaded .. | .resolved .. | .merged ..
  | .registered .. | .entered .. => true
  | _ => false

/-- Whether a task ends attempts or runs entries. -/
def Task.isCore : Task → Bool
  | .resolve .. | .defer .. | .enter .. => true
  | _ => false

/-- Whether a command can change stores, worklists or outcomes before anything that it calls. -/
def Command.isCore : Command → Bool
  | .create .. | .complete .. | .startup .. | .runSatisfied .. => true
  | _ => false

@[ext] structure Core where
  /-- The number of runtimes. -/
  count : Nat
  store : RuntimeId → Store
  worklist : RuntimeId → Option Worklist
  outcomes : RuntimeId → Assoc Attempt LoadResult
  /-- The events of the core, the newest first. -/
  log : List Event
  agenda : List Task

namespace Core

def setStore (k : Core) (r : RuntimeId) (s : Store) : Core :=
  { k with store := Function.update k.store r s }

def setWorklist (k : Core) (r : RuntimeId) (w : Worklist) : Core :=
  { k with worklist := Function.update k.worklist r (some w) }

def note (k : Core) (es : List Event) : Core := { k with log := es.reverse ++ k.log }

def call (k : Core) (ts : List Task) : Core := { k with agenda := ts ++ k.agenda }

/-- Ends an attempt. -/
def settleAttempt (k : Core) (r : RuntimeId) (c : ChunkId) (n : Attempt) (result : LoadResult) :
    Core :=
  { k with outcomes := Function.update k.outcomes r ((k.outcomes r).set n result) }.note
    [.resolved r c n result]

/-- Ends the attempts that waited for a delivery. -/
def resolve (k : Core) (r : RuntimeId) (d : Delivery) (waiting : List (ChunkId × Attempt))
    (clashes : List ModuleId) : Core :=
  waiting.foldl (fun k w => k.settleAttempt r w.1 w.2 (Page.mergeResult d clashes)) k

/-- Takes the entries of a worklist that can run, and puts them in front of the agenda. -/
def runReady (k : Core) (r : RuntimeId) (w : Worklist) : Core :=
  (k.setWorklist r (w.waiting (k.store r).isLoaded)).call
    ((w.ready (k.store r).isLoaded).map (.enter r ·))

/-- Adds a runtime. -/
def create (k : Core) (rt : Runtime) : Core :=
  { k with
    count := k.count + 1
    store := Function.update k.store k.count rt.store
    worklist := Function.update k.worklist k.count rt.worklist
    outcomes := Function.update k.outcomes k.count rt.outcomes }

/-! Ending attempts changes outcomes and adds events. -/

theorem resolve_frame (k : Core) (r : RuntimeId) (d : Delivery)
    (waiting : List (ChunkId × Attempt)) (clashes : List ModuleId) :
    k.resolve r d waiting clashes = { k with
      outcomes := (k.resolve r d waiting clashes).outcomes
      log := (k.resolve r d waiting clashes).log } := by
  unfold resolve
  induction waiting generalizing k with
  | nil => rfl
  | cons w waiting ih =>
    rw [List.foldl_cons, ih]
    rfl

/-- Ending attempts builds no runtime. -/
@[simp] theorem count_resolve (k : Core) (r : RuntimeId) (d : Delivery)
    (waiting : List (ChunkId × Attempt)) (clashes : List ModuleId) :
    (k.resolve r d waiting clashes).count = k.count := by
  rw [resolve_frame]

/-- Ending attempts leaves the stores as they are; the merge has changed them before. -/
@[simp] theorem store_resolve (k : Core) (r : RuntimeId) (d : Delivery)
    (waiting : List (ChunkId × Attempt)) (clashes : List ModuleId) :
    (k.resolve r d waiting clashes).store = k.store := by
  rw [resolve_frame]

/-- Ending attempts takes no entry off a worklist. -/
@[simp] theorem worklist_resolve (k : Core) (r : RuntimeId) (d : Delivery)
    (waiting : List (ChunkId × Attempt)) (clashes : List ModuleId) :
    (k.resolve r d waiting clashes).worklist = k.worklist := by
  rw [resolve_frame]

@[simp] theorem agenda_resolve (k : Core) (r : RuntimeId) (d : Delivery)
    (waiting : List (ChunkId × Attempt)) (clashes : List ModuleId) :
    (k.resolve r d waiting clashes).agenda = k.agenda := by
  rw [resolve_frame]

/-- Each attempt that ends is an event, in the order in which they waited. -/
theorem log_resolve (k : Core) (r : RuntimeId) (d : Delivery)
    (waiting : List (ChunkId × Attempt)) (clashes : List ModuleId) :
    (k.resolve r d waiting clashes).log =
      (waiting.map fun w => .resolved r w.1 w.2 (Page.mergeResult d clashes)).reverse ++ k.log := by
  unfold resolve
  induction waiting generalizing k with
  | nil => rfl
  | cons w waiting ih =>
    rw [List.foldl_cons, ih]
    simp [settleAttempt, note]

/-- After a merge all attempts that waited for it have its result, and no others have got one. -/
theorem outcomes_resolve (k : Core) (r : RuntimeId) (d : Delivery)
    (waiting : List (ChunkId × Attempt)) (clashes : List ModuleId) (r' : RuntimeId)
    (n : Attempt) : ((k.resolve r d waiting clashes).outcomes r').get? n =
      if r' = r ∧ n ∈ waiting.map (·.2) then some (Page.mergeResult d clashes)
      else (k.outcomes r').get? n := by
  unfold resolve
  induction waiting generalizing k with
  | nil => simp
  | cons w waiting ih =>
    rw [List.foldl_cons, ih]
    by_cases same : r' = r
    · subst same
      -- An attempt that comes up again later has the same result then.
      by_cases later : n ∈ waiting.map (·.2)
      · simp [later]
      · by_cases now : n = w.2
        · simp [now, settleAttempt, note]
        · simp [later, now, Ne.symm now, settleAttempt, note]
    · simp [same, settleAttempt, note]

@[simp] theorem note_nil (k : Core) : k.note [] = k := rfl

@[simp] theorem call_nil (k : Core) : k.call [] = k := rfl

end Core

namespace Page

variable {p : Page} {r : RuntimeId}

def core (p : Page) : Core where
  count := p.runtimes.length
  store := p.store
  worklist r := (p.runtime r).worklist
  outcomes r := (p.runtime r).outcomes
  log := p.log.filter Event.isCore
  agenda := p.agenda.filter Task.isCore

/-- What is read off the events of the core can be read off all events. -/
theorem filterMap_core {β : Type} {f : Event → Option β}
    (beside : ∀ e, e.isCore = false → f e = none) (log : List Event) :
    (log.filter Event.isCore).reverse.filterMap f = log.reverse.filterMap f := by
  induction log with
  | nil => rfl
  | cons e log ih =>
    cases isCore : e.isCore with
    | true => simp [isCore, List.filterMap_append, ih]
    | false => simp [isCore, List.filterMap_append, ih, beside e isCore]

/-- What is read off the tasks of the core can be read off all tasks. -/
theorem flatMap_core {β : Type} {f : Task → List β}
    (beside : ∀ t, t.isCore = false → f t = []) (agenda : List Task) :
    (agenda.filter Task.isCore).flatMap f = agenda.flatMap f := by
  induction agenda with
  | nil => rfl
  | cons t agenda ih =>
    cases isCore : t.isCore with
    | true => simp [isCore, ih]
    | false => simp [isCore, ih, beside t isCore]

/-! ## Runtimes -/

/-- A change of a runtime is seen at that runtime only, and only if it is there. -/
theorem runtime_modifyRuntime (p : Page) (r : RuntimeId) (f : Runtime → Runtime)
    (r' : RuntimeId) : (p.modifyRuntime r f).runtime r' =
      if r = r' ∧ r < p.runtimes.length then f (p.runtime r) else p.runtime r' := by
  unfold runtime modifyRuntime
  simp only [List.getD_eq_getElem?_getD, List.getElem?_modify]
  by_cases same : r = r'
  · subst same
    by_cases inside : r < p.runtimes.length <;> simp [inside]
  · simp [same]

@[simp] theorem length_modifyRuntime (p : Page) (r : RuntimeId) (f : Runtime → Runtime) :
    (p.modifyRuntime r f).runtimes.length = p.runtimes.length :=
  List.length_modify ..

/-- The newest runtime is the one that was added. -/
theorem runtime_append {q : Page} {rt : Runtime} (runtimes : q.runtimes = p.runtimes ++ [rt])
    (r : RuntimeId) : q.runtime r = if r = p.runtimes.length then rt else p.runtime r := by
  simp only [runtime, runtimes, List.getD_eq_getElem?_getD, List.getElem?_append]
  by_cases old : r < p.runtimes.length
  · simp [old, Nat.ne_of_lt old]
  · by_cases new : r = p.runtimes.length
    · simp [new]
    · have beyond : p.runtimes.length < r := Nat.lt_of_le_of_ne (Nat.le_of_not_lt old) (Ne.symm new)
      simp [old, new, Nat.sub_ne_zero_of_lt beyond]

/-- There is nothing to change in a runtime that is not there. -/
theorem modifyRuntime_outOfRange (outside : ¬ r < p.runtimes.length) (f : Runtime → Runtime) :
    p.modifyRuntime r f = p := by
  unfold modifyRuntime
  rw [List.modify_eq_self (Nat.le_of_not_lt outside)]

/-- Putting back the store of a runtime changes nothing. -/
theorem setStore_store (p : Page) (r : RuntimeId) : p.setStore r (p.store r) = p := by
  have runtimes : p.runtimes.modify r ({ · with store := p.store r }) = p.runtimes := by
    apply List.ext_getElem?
    intro r'
    rw [List.getElem?_modify]
    split
    · rename_i same
      subst same
      cases found : p.runtimes[r]? with
      | none => rfl
      | some rt =>
        have store : p.store r = rt.store := by
          simp [store, runtime, List.getD_eq_getElem?_getD, found]
        rw [store]
        rfl
    · simp
  show { p with runtimes := p.runtimes.modify r ({ · with store := p.store r }) } = p
  rw [runtimes]

/-- What a change of a runtime does to the core, field by field. -/
theorem core_modifyRuntime (inRange : r < p.runtimes.length) (f : Runtime → Runtime) :
    (p.modifyRuntime r f).core = { p.core with
      store := Function.update p.core.store r (f (p.runtime r)).store
      worklist := Function.update p.core.worklist r (f (p.runtime r)).worklist
      outcomes := Function.update p.core.outcomes r (f (p.runtime r)).outcomes } := by
  have changed (r' : RuntimeId) : (p.modifyRuntime r f).runtime r' =
      if r' = r then f (p.runtime r) else p.runtime r' := by
    simp only [runtime_modifyRuntime, inRange, and_true, eq_comm]
  apply Core.ext
  · exact length_modifyRuntime ..
  · funext r'
    by_cases same : r' = r <;> simp [core, store, changed, same]
  · funext r'
    by_cases same : r' = r <;> simp [core, changed, same]
  · funext r'
    by_cases same : r' = r <;> simp [core, changed, same]
  · rfl
  · rfl

/-- A change of a runtime beside its store, worklist and outcomes is beside the core. -/
theorem core_modifyRuntime_beside {f : Runtime → Runtime} (store : ∀ rt, (f rt).store = rt.store)
    (worklist : ∀ rt, (f rt).worklist = rt.worklist)
    (outcomes : ∀ rt, (f rt).outcomes = rt.outcomes) :
    (p.modifyRuntime r f).core = p.core := by
  by_cases inRange : r < p.runtimes.length
  · rw [core_modifyRuntime inRange, store, worklist, outcomes]
    simp [core, Page.store]
  · rw [modifyRuntime_outOfRange inRange]

/-- Giving a runtime another store does so in the core. -/
theorem core_setStore (inRange : r < p.runtimes.length) (s : Store) :
    (p.setStore r s).core = p.core.setStore r s := by
  unfold setStore
  rw [core_modifyRuntime inRange]
  simp [core, Core.setStore]

theorem core_setStore_store (p : Page) (r : RuntimeId) :
    (p.setStore r (p.store r)).core = p.core := by
  rw [setStore_store]

/-- Giving a runtime another worklist does so in the core. -/
theorem core_setWorklist (inRange : r < p.runtimes.length) (w : Worklist) :
    (p.modifyRuntime r ({ · with worklist := some w })).core = p.core.setWorklist r w := by
  rw [core_modifyRuntime inRange]
  simp [core, Core.setWorklist, store]

/-! ## The operations of a page -/

/-- Of the tasks that are called for, the core has those that end attempts or run entries. -/
@[simp] theorem core_call (p : Page) (ts : List Task) :
    (p.call ts).core = p.core.call (ts.filter Task.isCore) :=
  Core.ext rfl rfl rfl rfl rfl (List.filter_append ..)

/-- Calling for tasks beside the core is beside the core. -/
theorem core_call_beside {ts : List Task} (beside : ∀ t ∈ ts, t.isCore = false) :
    (p.call ts).core = p.core := by
  have none : ts.filter Task.isCore = [] := List.filter_eq_nil_iff.mpr fun t member => by
    simp [beside t member]
  rw [core_call, none, Core.call_nil]

/-- Of the events that happen, the core has those on chunks, attempts and entries. -/
@[simp] theorem core_note (p : Page) (es : List Event) :
    (p.note es).core = p.core.note (es.filter Event.isCore) := by
  refine Core.ext rfl rfl rfl rfl ?_ rfl
  simp [core, note, Core.note]

/-- An attempt ends in the core as it does on the page. -/
theorem core_settleAttempt (inRange : r < p.runtimes.length) (c : ChunkId) (n : Attempt)
    (result : LoadResult) :
    (p.settleAttempt r c n result).core = p.core.settleAttempt r c n result := by
  unfold settleAttempt
  have store : Function.update p.core.store r (p.runtime r).store = p.core.store :=
    Function.update_eq_self r p.core.store
  have worklist : Function.update p.core.worklist r (p.runtime r).worklist = p.core.worklist :=
    Function.update_eq_self r p.core.worklist
  rw [core_note, core_modifyRuntime inRange, store, worklist]
  rfl

/-- Scripts consist of commands, and commands are not tasks of the core. -/
@[simp] theorem core_callScript (p : Page) (s : Script) : (p.callScript s).core = p.core := by
  refine core_call_beside fun t member => ?_
  obtain ⟨command, -, rfl⟩ := List.mem_map.mp member
  rfl

/-- Answers are beside the core. -/
@[simp] theorem core_answerWith (p : Page) (nested : Bool) (a : Answer) :
    (p.answerWith nested a).core = p.core := by
  simp [answerWith, Task.isCore]

@[simp] theorem core_report (p : Page) (r : RuntimeId) (e : LoadError) :
    (p.report r e).core = p.core := by
  simp [report, Event.isCore]

@[simp] theorem core_modifyFuture (p : Page) (f : FutureId) (g : Future → Future) :
    (p.modifyFuture f g).core = p.core := rfl

/-- Futures are beside the core, also when they settle. -/
@[simp] theorem core_settleFuture (p : Page) (f : FutureId) (result : LoadResult) :
    (p.settleFuture f result).core = p.core := by
  unfold settleFuture
  split
  · rfl
  · simp [Event.isCore]

@[simp] theorem core_addFuture (p : Page) (label : Option String) (progress : Progress) :
    (p.addFuture label progress).2.core = p.core := rfl

/-- Modules that are known but not delivered are beside the core. -/
@[simp] theorem core_addModules (p : Page) (ms : List (ModuleSpec Command)) :
    (p.addModules ms).2.core = p.core := by
  rw [addModules_frame]
  rfl

@[simp] theorem core_addDelivery (p : Page) (d : DeliverySpec Command) :
    (p.addDelivery d).2.core = p.core :=
  core_addModules ..

@[simp] theorem core_setBootstrap (p : Page) (x : ExtensionId) (b : Bootstrap) :
    (p.setBootstrap x b).core = p.core := rfl

/-- Extensions are beside the core. -/
theorem core_addExtension {p' : Page} {spec : ExtensionSpec Command} {x : ExtensionId}
    (h : p.addExtension spec = .ok (x, p')) : p'.core = p.core := by
  rw [addExtension_frame h]
  rfl

/-- If a runtime is added, its plan was right, and it is the newest one in the core. -/
theorem core_addRuntime {q : Page} {name : String} {plan : Except Failure Blueprint}
    {extension : Option (ExtensionSpec Command)}
    (h : p.addRuntime name plan extension = .ok q) :
    ∃ b x rt, plan = .ok b ∧ b.build x = .ok rt ∧ q.core = p.core.create rt := by
  obtain ⟨b, x, p', rt, planned, added, built, made⟩ := addRuntime_eq_ok h
  refine ⟨b, x, rt, planned, built, ?_⟩
  have frame : q = { p with
      extensions := p'.extensions
      runtimes := p.runtimes ++ [rt]
      names := p.names.set name p.runtimes.length } := by
    rw [made, newExtension_frame added]
  have newest (r' : RuntimeId) : q.runtime r' =
      if r' = p.runtimes.length then rt else p.runtime r' := by
    rw [frame]
    exact runtime_append rfl r'
  -- All fields of the core that speak of runtimes have the newest one at the end.
  apply Core.ext
  · rw [frame]
    simp [core, Core.create]
  · funext r'
    by_cases new : r' = p.runtimes.length <;> simp [core, store, Core.create, newest, new]
  · funext r'
    by_cases new : r' = p.runtimes.length <;> simp [core, Core.create, newest, new]
  · funext r'
    by_cases new : r' = p.runtimes.length <;> simp [core, Core.create, newest, new]
  · rw [frame]
    rfl
  · rw [frame]
    rfl

/-! ## Tasks and commands beside the core -/

/-- Asking for a chunk calls for its handlers, which is beside the core until they are asked. -/
@[simp] theorem core_ask (p : Page) (r : RuntimeId) (c : ChunkId) (caller : Caller) :
    (p.ask r c caller).core = p.core := by
  simp only [ask]
  split <;> simp [Task.isCore]

@[simp] theorem core_gathered (p : Page) (r : RuntimeId) (got : List Awaited) (caller : Caller) :
    (p.gathered r got caller).core = p.core := by
  cases caller <;> simp [gathered, Task.isCore]

/-- Showing a delivery to an extension does nothing to the core; what the extension calls back comes later. -/
@[simp] theorem core_observe (p : Page) (x : ExtensionId) (d : Delivery) :
    (p.observe x d).core = p.core := by
  unfold observe
  split
  · rfl
  · rename_i describes script found
    cases describes <;> simp [Event.isCore]
  · rename_i b found
    cases b.previous <;> simp [Task.isCore]

/-- Running a factory calls its script, and nothing else. -/
@[simp] theorem core_execute (p : Page) (r : RuntimeId) (f : FactoryId) :
    (p.execute r f).core = p.core := by
  unfold execute
  split
  · rfl
  · simp [Event.isCore]

@[simp] theorem core_endImport (p : Page) (f : FutureId) (r : RuntimeId) (module : ModuleId)
    (result : LoadResult) : (p.endImport f r module result).core = p.core := by
  cases result with
  | ok =>
    simp only [endImport]
    split <;> simp [Task.isCore]
  | failed e => simp [endImport]

/-- An import asks for its chunks, or begins to wait for them. -/
@[simp] theorem core_load (p : Page) (f : FutureId) (r : RuntimeId) (rest : List ChunkId)
    (loads : List (List Awaited)) (module : ModuleId) :
    (p.load f r rest loads module).core = p.core := by
  cases rest with
  | cons c rest => exact core_ask ..
  | nil =>
    simp only [load]
    split <;> simp

/-- Polling futures is beside the core. -/
@[simp] theorem core_pass (p : Page) (next : FutureId) (settledAny : Bool) :
    (p.pass next settledAny).core = p.core := by
  unfold pass
  split
  · split <;> simp [Task.isCore]
  · -- A future is passed over if it is done or is just being polled, and looked at otherwise.
    split
    · simp [Task.isCore]
    · split
      · simp [Task.isCore]
      · split <;> simp [Task.isCore]
      · simp [pollImport, Task.isCore]
      · simp [pollImport, Task.isCore]

@[simp] theorem core_polled (p : Page) (f : FutureId) (settledAny : Bool) :
    (p.polled f settledAny).core = p.core := by
  simp [polled, Task.isCore]

@[simp] theorem core_conclude (p : Page) (a : Answer) (nested : Bool) :
    (p.conclude a nested).core = p.core := by
  unfold conclude
  split
  · simp [Event.isCore]
  · rfl

/-- The deliveries that a new consumer has missed are to be merged later. -/
@[simp] theorem core_install (p : Page) (r : RuntimeId) (queue : String) :
    (p.install r queue).core = p.core := by
  simp only [install]
  split
  · rfl
  · refine core_call_beside fun t member => ?_
    obtain ⟨d, -, rfl⟩ := List.mem_map.mp member
    rfl

/-- A push calls for merges, which come later. -/
@[simp] theorem core_push (p : Page) (queue : String) (d : Delivery) :
    (p.push queue d).core = p.core := by
  refine core_call_beside fun t member => ?_
  obtain ⟨r, -, rfl⟩ := List.mem_map.mp member
  rfl

@[simp] theorem core_settleManual (p : Page) (nested : Bool) (key : String × ChunkId)
    (result : LoadResult) : (p.settleManual nested key result).core = p.core := by
  unfold settleManual
  split
  · rw [core_answerWith]
    rfl
  · exact core_answerWith ..

/-- The end of an update runs the entries of the update later. -/
@[simp] theorem core_finishUpdate (p : Page) (nested : Bool) (x : ExtensionId) (b : Bootstrap)
    (next : String) (runOn : Option String) :
    (p.finishUpdate nested x b next runOn).core = p.core := by
  unfold finishUpdate
  split
  · simp
  · simp only
    split
    · simp
    · -- The factories of the update and its answer are called for.
      refine core_call_beside fun t member => ?_
      rcases List.mem_append.mp member with member | member
      · obtain ⟨f, -, rfl⟩ := List.mem_map.mp member
        rfl
      · obtain rfl := List.mem_singleton.mp member
        rfl

/-- A command on a named runtime is beside the core if what it does there is. -/
theorem core_withRuntime {nested : Bool} {name : String} {act : RuntimeId → Page}
    (beside : ∀ r, (act r).core = p.core) : (p.withRuntime nested name act).core = p.core := by
  unfold withRuntime
  split
  · exact beside _
  · exact core_answerWith ..

/-- A command on a named bootstrap is beside the core if what it does there is. -/
theorem core_withBootstrap {nested : Bool} {name : String} {act : ExtensionId → Bootstrap → Page}
    (beside : ∀ x b, (act x b).core = p.core) :
    (p.withBootstrap nested name act).core = p.core := by
  unfold withBootstrap
  split
  · exact beside _ _
  · exact core_answerWith ..

/-- Most commands are beside the core; what they call for comes later. -/
theorem core_perform {command : Command} (beside : command.isCore = false) (nested : Bool) :
    (p.perform nested command).core = p.core := by
  cases command with
  | create | complete | startup | runSatisfied => cases beside
  | drop name =>
    simp only [perform, core_answerWith]
    rfl
  | install name queue => exact core_withRuntime fun r => by simp [Task.isCore]
  | push queue spec => simp [perform]
  | ensure name c label => exact core_withRuntime fun r => core_ask ..
  | load name cs module label => exact core_withRuntime fun r => by simp
  | poll => simp [perform, Task.isCore]
  | hint name c kind => exact core_withRuntime fun r => by simp [Task.isCore]
  | settle handler c result => exact core_settleManual ..
  | execute name module =>
    refine core_withRuntime fun r => ?_
    split <;> simp [Task.isCore]
  | states name cs => exact core_withRuntime fun r => core_answerWith ..
  | hasModule name m => exact core_withRuntime fun r => core_answerWith ..
  | address name c => exact core_withRuntime fun r => core_answerWith ..
  | describe name => exact core_withRuntime fun r => core_answerWith ..
  | setExtension name spec =>
    -- An extension is set aside, or made and set.
    cases spec with
    | none =>
      refine core_withRuntime fun r => (core_answerWith ..).trans ?_
      exact core_modifyRuntime_beside (fun _ => rfl) (fun _ => rfl) (fun _ => rfl)
    | some spec =>
      refine core_withRuntime fun r => ?_
      split
      · rename_i added
        refine (core_answerWith ..).trans (Eq.trans ?_ (core_addExtension added))
        exact core_modifyRuntime_beside (fun _ => rfl) (fun _ => rfl) (fun _ => rfl)
      · exact core_answerWith ..
  | setSink name sink =>
    refine core_withRuntime fun r => (core_answerWith ..).trans ?_
    exact core_modifyRuntime_beside (fun _ => rfl) (fun _ => rfl) (fun _ => rfl)
  | report name result =>
    refine core_withRuntime fun r => ?_
    split <;> simp
  | createBootstrap hot plan previous =>
    obtain ⟨xs, bs, a, frame⟩ := createBootstrap_frame p nested hot plan previous
    rw [frame, core_answerWith]
    rfl
  | observe hot spec =>
    refine Eq.trans (core_withBootstrap fun x b => ?_) (core_addDelivery p spec)
    simp [Task.isCore]
  | manifestAddress hot => exact core_withBootstrap fun x b => core_answerWith ..
  | updateAddress hot c => exact core_withBootstrap fun x b => core_answerWith ..
  | applyManifest hot manifest =>
    refine core_withBootstrap fun x b => ?_
    split <;> simp
  | receive hot c specs =>
    refine Eq.trans (core_withBootstrap fun x b => ?_) (core_addModules p specs)
    simp
  | finish hot next runOn => exact core_withBootstrap fun x b => core_finishUpdate ..

end Page

end ChunkLoading
