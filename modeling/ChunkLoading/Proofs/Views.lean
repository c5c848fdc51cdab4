import ChunkLoading.Proofs.Frame

/-!
# Views of a page

Much of what a page does stays inside its runtimes: attempts end, entries wait and run, imports are polled,
commands are answered. What does not depend on any of that is a `View`. Inner operations leave every view
alone, which is said here once for all views.
-/

namespace ChunkLoading

/-- Whether a task neither asks handlers nor merges a delivery nor shows one. -/
def Task.isInner : Task → Bool
  | .gather .. | .merge .. | .observe .. => false
  | _ => true

/-- Whether a task does nothing but what is inner, apart from what it calls for. -/
def Task.isQuiet : Task → Bool
  | .perform .. | .gather .. | .hint .. | .merge .. | .observe .. | .load .. => false
  | _ => true

/-- Whether an event tells nothing of resources, merges and observers. -/
def Event.isInner : Event → Bool
  | .injected .. | .hinted .. | .merged .. | .tapped .. => false
  | _ => true

/-- Whether a command does nothing but what is inner, apart from what it calls for. -/
def Command.isInner : Command → Bool
  | .drop .. | .load .. | .poll | .hint .. | .complete .. | .settle .. | .execute .. | .startup ..
  | .runSatisfied .. | .states .. | .hasModule .. | .address .. | .describe .. | .setSink .. | .report ..
  | .manifestAddress .. | .updateAddress .. => true
  | _ => false

namespace Page

/-- What is seen of a page without looking inside its runtimes. -/
structure View {α : Type} (v : Page → α) : Prop where
  call : ∀ {p : Page} {ts : List Task}, (∀ t ∈ ts, t.isInner) → v (p.call ts) = v p
  note : ∀ {p : Page} {es : List Event}, (∀ e ∈ es, e.isInner) → v (p.note es) = v p
  runtime : ∀ {p : Page} {r : RuntimeId} {f : Runtime → Runtime},
    (∀ rt, (f rt).options = rt.options ∧ (f rt).handlers = rt.handlers ∧ (f rt).extension = rt.extension) →
      v (p.modifyRuntime r f) = v p
  frame : ∀ (p : Page) (names : Assoc String RuntimeId) (futures : List Future)
    (manual : Assoc (String × ChunkId) (Option LoadResult)) (answer : Answer),
      v { p with names := names, futures := futures, manual := manual, answer := answer } = v p

namespace View

variable {α : Type} {v : Page → α} (view : View v) {p : Page} {r : RuntimeId}

include view

/-- Tasks of one kind that is inner may be put on the agenda. -/
theorem call_map {β : Type} {task : β → Task} (inner : ∀ b, (task b).isInner) (bs : List β) :
    v (p.call (bs.map task)) = v p := by
  refine view.call fun t member => ?_
  obtain ⟨b, -, rfl⟩ := List.mem_map.mp member
  exact inner b

/-- Commands are inner, whatever they do once they are performed. -/
theorem callScript (p : Page) (s : Script) : v (p.callScript s) = v p := view.call_map (fun _ => rfl) s

theorem answerWith (p : Page) (nested : Bool) (a : Answer) : v (p.answerWith nested a) = v p :=
  view.call (by simp [Task.isInner])

/-- Stores are inside runtimes. -/
theorem setStore (p : Page) (r : RuntimeId) (s : Store) : v (p.setStore r s) = v p :=
  view.runtime fun _ => ⟨rfl, rfl, rfl⟩

/-- Futures are not seen. -/
theorem modifyFuture (p : Page) (f : FutureId) (g : Future → Future) : v (p.modifyFuture f g) = v p :=
  view.frame p p.names (p.futures.modify f g) p.manual p.answer

theorem addFuture (p : Page) (label : Option String) (progress : Progress) :
    v (p.addFuture label progress).2 = v p :=
  view.frame p p.names _ p.manual p.answer

theorem report (p : Page) (r : RuntimeId) (e : LoadError) : v (p.report r e) = v p :=
  view.note (by simp [Event.isInner])

/-- Attempts end inside runtimes. -/
theorem settleAttempt (p : Page) (r : RuntimeId) (c : ChunkId) (n : Attempt) (result : LoadResult) :
    v (p.settleAttempt r c n result) = v p :=
  (view.note (by simp [Event.isInner])).trans (view.runtime fun _ => ⟨rfl, rfl, rfl⟩)

/-- A future that settles is an event that is not seen. -/
theorem settleFuture (p : Page) (f : FutureId) (result : LoadResult) :
    v (p.settleFuture f result) = v p := by
  unfold Page.settleFuture
  split
  · rfl
  · exact (view.note (by simp [Event.isInner])).trans (view.modifyFuture ..)

/-- A resource that ends changes stores and attempts only. -/
theorem complete (p : Page) (q : Request) (e : ResourceEvent) : v (p.complete q e) = v p := by
  unfold Page.complete
  split
  · split
    · exact view.setStore ..
    · exact (view.settleAttempt ..).trans ((view.note (by simp [Event.isInner])).trans (view.setStore ..))
  · rfl

/-- The attempts that waited for a delivery end inside their runtime. -/
theorem resolve (p : Page) (r : RuntimeId) (d : Delivery) (waiting : List (ChunkId × Attempt))
    (clashes : List ModuleId) : v (p.resolve r d waiting clashes) = v p := by
  unfold Page.resolve
  induction waiting generalizing p with
  | nil => rfl
  | cons w waiting ih => rw [List.foldl_cons, ih, view.settleAttempt]

/-- Entries that can run are taken off a worklist that is not seen. -/
theorem runReady (p : Page) (r : RuntimeId) : v (p.runReady r) = v p :=
  (view.call_map (fun _ => rfl) _).trans (view.runtime fun _ => ⟨rfl, rfl, rfl⟩)

/-- Entries are deferred inside their runtime. -/
theorem defer (p : Page) (r : RuntimeId) (es : List DeferredEntry) : v (p.defer r es) = v p := by
  unfold Page.defer addEntries
  rw [view.runReady]
  split
  · rfl
  · exact (view.note (by simp [Event.isInner])).trans (view.runtime fun _ => ⟨rfl, rfl, rfl⟩)

/-- So are those of a startup. -/
theorem startup (p : Page) (r : RuntimeId) (es : List DeferredEntry) : v (p.startup r es) = v p := by
  unfold Page.startup
  split
  · exact view.defer ..
  · exact view.call_map (fun _ => rfl) es

/-- An entry is run inside its runtime. -/
theorem enter (p : Page) (r : RuntimeId) (e : DeferredEntry) : v (p.enter r e) = v p := by
  have entered : v (p.note [.entered r e]) = v p := view.note (by simp [Event.isInner])
  simp only [Page.enter]
  split
  · exact (view.call (by simp [Task.isInner])).trans entered
  · exact (view.report ..).trans entered

/-- A factory calls its script. -/
theorem execute (p : Page) (r : RuntimeId) (f : FactoryId) : v (p.execute r f) = v p := by
  unfold Page.execute
  split
  · rfl
  · exact (view.callScript ..).trans (view.note (by simp [Event.isInner]))

/-- An import ends with a task that is inner, or at once. -/
theorem endImport (p : Page) (f : FutureId) (r : RuntimeId) (module : ModuleId) (result : LoadResult) :
    v (p.endImport f r module result) = v p := by
  have reported (e : LoadError) : v ((p.report r e).settleFuture f (.failed e)) = v p :=
    (view.settleFuture ..).trans (view.report ..)
  cases result with
  | ok =>
    simp only [Page.endImport]
    split
    · exact view.call (by simp [Task.isInner])
    · exact reported _
  | failed e => exact reported e

/-- An import that asks for no more chunks is inner. -/
theorem load_nil (p : Page) (f : FutureId) (r : RuntimeId) (loads : List (List Awaited))
    (module : ModuleId) : v (p.load f r [] loads module) = v p := by
  simp only [Page.load]
  split
  · exact view.modifyFuture ..
  · exact (view.endImport ..).trans (view.modifyFuture ..)

/-- A pass looks at futures, which are not seen. -/
theorem pass (p : Page) (next : FutureId) (settledAny : Bool) : v (p.pass next settledAny) = v p := by
  have passes (p : Page) (next : FutureId) (settledAny : Bool) :
      v (p.call [.pass next settledAny]) = v p := view.call (by simp [Task.isInner])
  unfold Page.pass
  split
  · split
    · exact passes ..
    · rfl
  · split
    · exact passes ..
    · split
      · exact passes ..
      · split
        · exact passes ..
        · exact (passes ..).trans (view.settleFuture ..)
      · exact (view.call (by simp [Task.isInner])).trans (view.modifyFuture ..)
      · exact (view.call (by simp [Task.isInner])).trans (view.modifyFuture ..)

theorem polled (p : Page) (f : FutureId) (settledAny : Bool) : v (p.polled f settledAny) = v p :=
  (view.call (by simp [Task.isInner])).trans (view.modifyFuture ..)

theorem conclude (p : Page) (a : Answer) (nested : Bool) : v (p.conclude a nested) = v p := by
  unfold Page.conclude
  split
  · exact view.note (by simp [Event.isInner])
  · exact view.frame p p.names p.futures p.manual a

/-- **Quiet tasks leave every view alone.** -/
theorem act {t : Task} (quiet : t.isQuiet) : v (p.act t) = v p := by
  cases t with
  | conclude a nested inUse => exact view.conclude ..
  | resolve r d waiting clashes => exact view.resolve ..
  | defer r es => exact view.defer ..
  | enter r e => exact view.enter ..
  | execute r f => exact view.execute ..
  | pass next settledAny => exact view.pass ..
  | settle f r result => exact view.settleFuture ..
  | polled f settledAny => exact view.polled ..
  | _ => cases quiet

/-- What was settled by hand is not seen. -/
theorem settleManual (p : Page) (nested : Bool) (key : String × ChunkId) (result : LoadResult) :
    v (p.settleManual nested key result) = v p := by
  unfold Page.settleManual
  split
  · exact (view.answerWith ..).trans (view.frame p p.names p.futures _ p.answer)
  · exact view.answerWith ..

/-- A command on a named runtime is not seen if what it does there is not. -/
theorem withRuntime {nested : Bool} {name : String} {act : RuntimeId → Page}
    (acts : ∀ r, v (act r) = v p) : v (p.withRuntime nested name act) = v p := by
  unfold Page.withRuntime
  split
  · exact acts _
  · exact view.answerWith ..

/-- Nor is one on a named bootstrap. -/
theorem withBootstrap {nested : Bool} {name : String} {act : ExtensionId → Bootstrap → Page}
    (acts : ∀ x b, v (act x b) = v p) : v (p.withBootstrap nested name act) = v p := by
  unfold Page.withBootstrap
  split
  · exact acts _ _
  · exact view.answerWith ..

/-- Ending an update changes a bootstrap; running its factories is inner. -/
theorem finishUpdate (p : Page) (nested : Bool) (x : ExtensionId) (b : Bootstrap) (next : String)
    (runOn : Option String) : v (p.finishUpdate nested x b next runOn) =
      v (((b.finish? next).map fun done => p.setBootstrap x done.2).getD p) := by
  unfold Page.finishUpdate
  split
  · rename_i none
    rw [none]
    exact view.answerWith ..
  · rename_i u b' done
    rw [done]
    simp only
    split
    · exact view.answerWith ..
    · refine view.call fun t member => ?_
      rcases List.mem_append.mp member with member | member
      · obtain ⟨f, -, rfl⟩ := List.mem_map.mp member
        rfl
      · obtain rfl := List.mem_singleton.mp member
        rfl

/-- **Inner commands leave every view alone.** -/
theorem perform {command : Command} (inner : command.isInner) (nested : Bool) :
    v (p.perform nested command) = v p := by
  have concluding (r : RuntimeId) (a : Answer) : v (p.call [.conclude a nested (some r)]) = v p :=
    view.call (by simp [Task.isInner])
  have answers (a : Answer) : v (p.answerWith nested a) = v p := view.answerWith ..
  -- Each inner command comes down to answers, futures, events and changes inside a runtime.
  cases command with
  | drop name => exact (view.answerWith ..).trans (view.frame p _ p.futures p.manual p.answer)
  | load name cs module label =>
    exact view.withRuntime fun r => (view.answerWith ..).trans (view.addFuture ..)
  | poll => exact (view.call (by simp [Task.isInner])).trans (answers _)
  | hint name c kind =>
    exact view.withRuntime fun r => (view.call (by simp [Task.isInner])).trans (concluding ..)
  | complete ref event =>
    simp only [Page.perform]
    split
    · exact answers _
    · exact (view.answerWith ..).trans (view.complete ..)
  | settle handler c result => exact view.settleManual ..
  | execute name module =>
    refine view.withRuntime fun r => ?_
    split
    · exact (view.call (by simp [Task.isInner])).trans (concluding ..)
    · exact answers _
  | startup name entries =>
    refine view.withRuntime fun r => ?_
    split
    · exact (view.startup ..).trans (concluding ..)
    · exact answers _
  | runSatisfied name => exact view.withRuntime fun r => (view.runReady ..).trans (concluding ..)
  | states name cs => exact view.withRuntime fun r => answers _
  | hasModule name m => exact view.withRuntime fun r => answers _
  | address name c => exact view.withRuntime fun r => answers _
  | describe name => exact view.withRuntime fun r => answers _
  | setSink name sink =>
    exact view.withRuntime fun r => (view.answerWith ..).trans (view.runtime fun _ => ⟨rfl, rfl, rfl⟩)
  | report name result =>
    refine view.withRuntime fun r => ?_
    split
    · exact answers _
    · exact (view.answerWith ..).trans (view.report ..)
  | manifestAddress hot => exact view.withBootstrap fun x b => answers _
  | updateAddress hot c => exact view.withBootstrap fun x b => answers _
  | _ => cases inner

end View

/-- A view that does not see either what is asked of handlers and of the host. -/
structure FarView {α : Type} (v : Page → α) : Prop extends View v where
  asks : ∀ (p : Page) (r : RuntimeId) (c : ChunkId) (handlers : List Handler) (got : List Awaited)
    (caller : Caller), v (p.call [.gather r c handlers got caller]) = v p
  requests : ∀ (p : Page) (requests : List Request), v { p with requests := requests } = v p
  injected : ∀ (p : Page) (number : Nat) (q : Request), v (p.note [.injected number q]) = v p
  hinted : ∀ (p : Page) (r : RuntimeId) (c : ChunkId) (kind : HintKind) (address : String)
    (nonce crossOrigin : Option String), v (p.note [.hinted r c kind address nonce crossOrigin]) = v p

namespace FarView

variable {α : Type} {v : Page → α} (view : FarView v) {p : Page} {r : RuntimeId}

include view

/-- Asking for a chunk is not seen. -/
theorem ask (p : Page) (r : RuntimeId) (c : ChunkId) (caller : Caller) : v (p.ask r c caller) = v p := by
  simp only [Page.ask]
  split <;> exact view.asks ..

/-- Nor is the request for a script. -/
theorem inject (p : Page) (q : Request) : v (p.inject q) = v p :=
  (view.callScript ..).trans ((view.injected ..).trans (view.requests ..))

/-- Nor is a hint. -/
theorem hint (p : Page) (r : RuntimeId) (c : ChunkId) (kind : HintKind) : v (p.hint r c kind) = v p := by
  unfold Page.hint
  split
  · exact view.setStore ..
  · exact (view.callScript ..).trans ((view.hinted ..).trans (view.setStore ..))

/-- Nor is what a handler gives when it is asked. -/
theorem gather (p : Page) (r : RuntimeId) (c : ChunkId) (handlers : List Handler) (got : List Awaited)
    (caller : Caller) : v (p.gather r c handlers got caller) = v p := by
  cases handlers with
  | nil =>
    cases caller with
    | ensure label nested => exact (view.call (by simp [Task.isInner])).trans (view.addFuture ..)
    | importing f rest loads module => exact view.call (by simp [Task.isInner])
  | cons handler rest =>
    have next (got : List Awaited) : v (p.call [.gather r c rest got caller]) = v p := view.asks ..
    -- All that a handler does is to change a store, to make a request, or to call for hints.
    cases handler with
    | script only =>
      simp only [Page.gather, gatherFrom]
      split
      · split
        · exact (view.setStore ..).trans (next _)
        · exact (view.setStore ..).trans (next _)
        · exact (view.inject ..).trans ((view.setStore ..).trans (next _))
      · exact next got
    | noop => exact next _
    | preload children => exact (view.call_map (fun _ => rfl) _).trans (next got)
    | custom name only answer =>
      have asked (got : List Awaited) (serves : Bool) :
          v ((p.call [.gather r c rest got caller]).note [.asked name c serves]) = v p :=
        (view.note (by simp [Event.isInner])).trans (next got)
      simp only [Page.gather, gatherFrom]
      split
      · split
        · exact asked ..
        · split
          · exact asked ..
          · exact (view.frame _ _ _ _ _).trans (asked ..)
      · exact asked ..

/-- Nor is an import that asks for its chunks. -/
theorem load (p : Page) (f : FutureId) (r : RuntimeId) (rest : List ChunkId)
    (loads : List (List Awaited)) (module : ModuleId) : v (p.load f r rest loads module) = v p := by
  cases rest with
  | cons c rest => exact view.ask ..
  | nil => exact view.load_nil ..

/-- **Such a view changes only with commands, merges and showings.** -/
theorem actFar {t : Task} (other : ∀ command nested, t ≠ .perform command nested)
    (merges : ∀ r d, t ≠ .merge r d) (shows : ∀ x d, t ≠ .observe x d) : v (p.act t) = v p := by
  cases t with
  | perform command nested => exact absurd rfl (other command nested)
  | merge r d => exact absurd rfl (merges r d)
  | observe x d => exact absurd rfl (shows x d)
  | gather r c handlers got caller => exact view.gather ..
  | hint r c kind => exact view.hint ..
  | load f r rest loads module => exact view.load ..
  | _ => exact view.act rfl

end FarView

end Page

end ChunkLoading
