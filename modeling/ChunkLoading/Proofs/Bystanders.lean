import ChunkLoading.Proofs.Turn

/-!
# Tasks that are done beside an import

What a page does for an import is on its agenda: tasks that `serve` the import, and the factory that is to
be run right before the import settles. All other tasks leave an import alone (`Page.Spares`): they neither
change its future nor the tasks that were on the agenda before, and put no task of the import on it. Nor do
they leave a factory right above what was there before, where it would be taken for the import's own, unless
they run factories themselves. As an import that is not there yet is left alone by all tasks, this tells
what every move keeps (`Page.spares_new`).
-/

namespace ChunkLoading

/-- Whether a task is done for an import. -/
def Task.serves (f : FutureId) : Task → Bool
  | .load f' .. | .settle f' .. | .polled f' _ | .gather _ _ _ _ (.importing f' ..) => f' = f
  | _ => false

/-- Whether a task can leave a factory to be run in its place. -/
def Task.runs : Task → Bool
  | .merge .. | .defer .. | .enter .. | .execute .. => true
  | _ => false

/-- Tasks that are not done for an import. If they are not to run factories in the place of a task, the last
of them is none that could. -/
structure Foreign (f : FutureId) (running : Bool) (ts : List Task) : Prop where
  apart : ∀ t ∈ ts, t.serves f = false
  last : running = false → ∀ t ∈ ts.getLast?, t.runs = false

namespace Foreign

variable {f : FutureId} {running : Bool} {ts us : List Task}

theorem nil : Foreign f running [] := ⟨by simp, by simp⟩

/-- Tasks that serve no import and run no factory. -/
theorem of_forall (foreign : ∀ t ∈ ts, t.serves f = false ∧ t.runs = false) : Foreign f running ts :=
  ⟨fun t member => (foreign t member).1,
    fun _ t last => (foreign t (List.mem_of_getLast? last)).2⟩

/-- Tasks of one kind that serves no import and runs nothing. -/
theorem map {α : Type} {task : α → Task}
    (foreign : ∀ a, (task a).serves f = false ∧ (task a).runs = false)
    (as : List α) : Foreign f running (as.map task) := by
  refine of_forall fun t member => ?_
  obtain ⟨a, -, rfl⟩ := List.mem_map.mp member
  exact foreign a

/-- Tasks of one kind that serves no import, and that may run factories. -/
theorem map_running {α : Type} {task : α → Task} (apart : ∀ a, (task a).serves f = false)
    {as : List α} :
    Foreign f true (as.map task) := by
  refine ⟨fun t member => ?_, by simp⟩
  obtain ⟨a, -, rfl⟩ := List.mem_map.mp member
  exact apart a

/-- Foreign tasks may be put on top of others. -/
theorem append (first : Foreign f running us) (rest : Foreign f running ts) :
    Foreign f running (us ++ ts) := by
  refine ⟨List.forall_mem_append.mpr ⟨first.apart, rest.apart⟩, fun still => ?_⟩
  intro t last
  rw [List.getLast?_append] at last
  -- The last task is one of the lower ones, if there are any.
  cases ended : ts.getLast? with
  | none =>
    rw [ended] at last
    exact first.last still t last
  | some t' =>
    rw [ended] at last
    exact rest.last still t (ended ▸ last)

/-- What is put above other tasks does not matter for the last of them. -/
theorem above (first : ∀ t ∈ us, t.serves f = false) (rest : Foreign f running ts) (some : ts ≠ []) :
    Foreign f running (us ++ ts) := by
  refine ⟨List.forall_mem_append.mpr ⟨first, rest.apart⟩, fun still t last => ?_⟩
  rw [List.getLast?_append, List.getLast?_eq_some_getLast some] at last
  exact rest.last still t (List.getLast?_eq_some_getLast some ▸ last)

end Foreign

namespace Page

variable {p q : Page} {f : FutureId} {running : Bool}

/-- What a handler contributes to a chunk when it is asked for it. -/
def gives (p : Page) (r : RuntimeId) (c : ChunkId) : Handler → List Awaited
  | .script only =>
    if Handler.serves only c then
      match ((p.store r).beginLoad c).1 with
      | .ready => [.ready .ok]
      | .attached n | .started n => [.attempt r c n]
    else []
  | .noop => [.ready .ok]
  | .preload _ => []
  | .custom name only answer =>
    if Handler.serves only c then
      match answer with
      | .settled result => [.ready result]
      | .manual => [.manual name c]
    else []

/-- An import is left alone: what is put on the agenda is foreign to it, and its future stays as it is. No
future is forgotten, nor how a load of the host's own ended. -/
structure Spares (f : FutureId) (running : Bool) (p q : Page) : Prop where
  agenda : ∃ ts, Foreign f running ts ∧ q.agenda = ts ++ p.agenda
  future : f < p.futures.length → q.futures[f]? = p.futures[f]?
  count : p.futures.length ≤ q.futures.length
  ended : ∀ key result, p.manual.get? key = some (some result) → q.manual.get? key = some (some result)

namespace Spares

/-- An operation leaves an import alone if it does no more than to call for foreign tasks. -/
theorem pushed {ts : List Task} (foreign : Foreign f running ts) (agenda : q.agenda = ts ++ p.agenda)
    (futures : q.futures = p.futures) (manual : q.manual = p.manual) : Spares f running p q :=
  ⟨⟨ts, foreign, agenda⟩, fun _ => by rw [futures], Nat.le_of_eq (by rw [futures]),
    fun _ _ ended => manual ▸ ended⟩

/-- An operation that calls for nothing leaves every import alone. -/
theorem same (agenda : q.agenda = p.agenda) (futures : q.futures = p.futures)
    (manual : q.manual = p.manual) : Spares f running p q :=
  pushed .nil agenda futures manual

theorem refl (p : Page) : Spares f running p p := same rfl rfl rfl

/-- What is done one after the other leaves an import alone if each of the two does; in the end the tasks of the
second stand on top. -/
theorem trans {s : Page} (first : Spares f running p q) (then' : Spares f running q s) :
    Spares f running p s := by
  obtain ⟨ts, foreign, agenda⟩ := first.agenda
  obtain ⟨us, foreign', agenda'⟩ := then'.agenda
  refine ⟨⟨us ++ ts, foreign'.append foreign, ?_⟩, fun there => ?_,
    Nat.le_trans first.count then'.count, fun key result ended => ?_⟩
  · rw [agenda', agenda, List.append_assoc]
  · rw [then'.future (Nat.lt_of_lt_of_le there first.count), first.future there]
  · exact then'.ended key result (first.ended key result ended)

/-- A load of the host's own that has not ended is set to begin or to end. -/
theorem setManual {key : String × ChunkId} (result : Option LoadResult)
    (unended : (p.manual.get? key).join = none) :
    Spares f running p { p with manual := p.manual.set key result } := by
  refine ⟨⟨[], .nil, rfl⟩, fun _ => rfl, Nat.le_refl _, fun key' result' ended => ?_⟩
  rw [Assoc.get?_set, if_neg]
  · exact ended
  · rintro rfl
    rw [ended] at unended
    cases unended

/-! ## What the operations of a page put on its agenda -/

variable {r : RuntimeId} {c : ChunkId}

/-- The commands of a script are foreign to every import. -/
theorem script (s : Script) : Foreign f running (s.map (.perform · true)) :=
  .map (fun _ => ⟨rfl, rfl⟩) s

theorem performing (command : Command) (nested : Bool) : Foreign f running [.perform command nested] :=
  .of_forall (by simp [Task.serves, Task.runs])

theorem concluding (a : Answer) (nested : Bool) (inUse : Option RuntimeId) :
    Foreign f running [.conclude a nested inUse] :=
  .of_forall (by simp [Task.serves, Task.runs])

/-- To answer leaves every import alone. -/
theorem answerWith (p : Page) (nested : Bool) (a : Answer) : Spares f running p (p.answerWith nested a) :=
  pushed (concluding a nested none) rfl rfl rfl

/-- To change a future leaves the other ones alone. -/
theorem modifyFuture {g : FutureId} (other : g ≠ f) (h : Future → Future) :
    Spares f running p (p.modifyFuture g h) := by
  refine ⟨⟨[], .nil, rfl⟩, fun _ => ?_, ?_, fun _ _ ended => ended⟩
  · simp [Page.modifyFuture, other]
  · simp [Page.modifyFuture]

/-- So does a future that settles. -/
theorem settleFuture {g : FutureId} (other : g ≠ f) (result : LoadResult) :
    Spares f running p (p.settleFuture g result) := by
  unfold Page.settleFuture
  split
  · exact refl p
  · exact (modifyFuture other _).trans (same rfl rfl rfl)

/-- A new future comes behind the others. -/
theorem addFuture (p : Page) (label : Option String) (progress : Progress) :
    Spares f running p (p.addFuture label progress).2 :=
  ⟨⟨[], .nil, rfl⟩, fun there => List.getElem?_append_left there, by simp [Page.addFuture],
    fun _ _ ended => ended⟩

/-- To hint a chunk leaves every import alone. -/
theorem hint (p : Page) (r : RuntimeId) (c : ChunkId) (kind : HintKind) :
    Spares f running p (p.hint r c kind) := by
  unfold Page.hint
  split
  · exact same rfl rfl rfl
  · exact pushed (script _) rfl rfl rfl

/-- A handler is asked, and those after it are left for later. -/
theorem gatherFrom (p : Page) (r : RuntimeId) (c : ChunkId) (h : Handler) (rest : List Handler)
    (got : List Awaited) (caller : Caller) :
    Spares f running (p.call [.gather r c rest (got ++ p.gives r c h) caller])
      (p.gatherFrom r c h rest got caller) := by
  -- The script handler may inject a script, the preload handler calls for hints, and one of the host notes that it
  -- was asked.
  cases h with
  | script only =>
    simp only [Page.gatherFrom, gives]
    split
    · cases (p.store r).beginLoad c with | mk begun s =>
      cases begun with
      | ready => exact same rfl rfl rfl
      | attached n => exact same rfl rfl rfl
      | started n => exact pushed (script _) rfl rfl rfl
    · exact same (by simp [call]) rfl rfl
  | noop => exact refl _
  | preload children =>
    have hints : Foreign f running (((children.get? c).getD []).map (.hint r · .preload)) :=
      .map (fun _ => ⟨rfl, rfl⟩) _
    exact pushed hints (by simp [Page.gatherFrom, gives, call]) rfl rfl
  | custom name only answer =>
    simp only [Page.gatherFrom, gives]
    split
    · cases answer with
      | settled result => exact same rfl rfl rfl
      | manual =>
        simp only
        have asked : Spares f running (p.call [.gather r c rest (got ++ [.manual name c]) caller])
            ((p.call [.gather r c rest (got ++ [.manual name c]) caller]).note [.asked name c true]) :=
          same rfl rfl rfl
        split
        · exact asked
        · rename_i new
          exact asked.trans (setManual none (congrArg Option.join new))
    · exact same (by simp [call, note]) rfl rfl

/-- Handlers that are asked for somebody else. -/
theorem asking {handlers : List Handler} {got : List Awaited} {caller : Caller}
    (apart : (Task.gather r c handlers got caller).serves f = false) :
    Foreign f running [.gather r c handlers got caller] :=
  .of_forall (by simp [apart, Task.runs])

/-- Handlers that are asked for somebody else leave the import alone. -/
theorem gather {handlers : List Handler} {got : List Awaited} {caller : Caller}
    (apart : (Task.gather r c handlers got caller).serves f = false) :
    Spares f running p (p.gather r c handlers got caller) := by
  cases handlers with
  | nil =>
    cases caller with
    | ensure label nested => exact (addFuture p label _).trans (pushed (concluding ..) rfl rfl rfl)
    | importing g rest loads module =>
      have next : Foreign f running [.load g r rest (loads ++ [got]) module] :=
        .of_forall (by simpa [Task.serves, Task.runs] using apart)
      exact pushed next rfl rfl rfl
  | cons h rest =>
    have serves : (Task.gather r c rest (got ++ p.gives r c h) caller).serves f = false := by
      cases caller <;> exact apart
    have next : Spares f running p (p.call [.gather r c rest (got ++ p.gives r c h) caller]) :=
      pushed (asking serves) rfl rfl rfl
    exact next.trans (gatherFrom ..)

/-- So does asking for a chunk for somebody else. -/
theorem ask {caller : Caller} (apart : (Task.gather r c [] [] caller).serves f = false) :
    Spares f running p (p.ask r c caller) := by
  have serves (handlers : List Handler) (got : List Awaited) :
      (Task.gather r c handlers got caller).serves f = false := by
    cases caller <;> exact apart
  simp only [Page.ask]
  split
  · exact pushed (asking (serves _ _)) rfl rfl rfl
  · exact pushed (asking (serves _ _)) rfl rfl rfl

/-- A resource that ends leaves every import alone: it ends an attempt, and that is looked at by the next poll. -/
theorem complete (p : Page) (q : Request) (e : ResourceEvent) : Spares f running p (p.complete q e) := by
  unfold Page.complete
  split
  · split
    · exact same rfl rfl rfl
    · exact same rfl rfl rfl
  · exact refl p

/-- A merge calls for entries, which run factories, but for nothing that serves an import. -/
theorem merge (p : Page) (r : RuntimeId) (d : Delivery) : Spares f true p (p.merge r d) := by
  -- A merge pushes what tells of it, then the end of the attempts and the deferral of entries.
  refine pushed ⟨fun t member => ?_, by simp⟩ rfl rfl rfl
  simp only [List.mem_append, List.mem_map, List.mem_cons, List.not_mem_nil, or_false] at member
  rcases member with (⟨x, -, rfl⟩ | hint) | rfl | rfl
  · rfl
  · split at hint
    · obtain ⟨c, -, rfl⟩ := List.mem_map.mp hint
      rfl
    · cases hint
  · rfl
  · rfl

theorem observe (p : Page) (x : ExtensionId) (d : Delivery) : Spares f running p (p.observe x d) := by
  unfold Page.observe
  split
  · exact refl p
  · exact pushed (script _) rfl rfl rfl
  · exact pushed (.map (fun _ => ⟨rfl, rfl⟩) _) rfl rfl rfl

/-- Attempts that end leave every import alone. -/
theorem resolve (p : Page) (r : RuntimeId) (d : Delivery) (waiting : List (ChunkId × Attempt))
    (clashes : List ModuleId) : Spares f running p (p.resolve r d waiting clashes) := by
  unfold Page.resolve
  induction waiting generalizing p with
  | nil => exact refl p
  | cons w waiting ih =>
    have first : Spares f running p (p.settleAttempt r w.1 w.2 (mergeResult d clashes)) := same rfl rfl rfl
    exact first.trans (ih _)

/-- Entries that can run are to be run, which runs factories. -/
theorem runReady (p : Page) (r : RuntimeId) : Spares f true p (p.runReady r) :=
  pushed (.map_running fun _ => rfl) rfl rfl rfl

theorem addEntries (p : Page) (r : RuntimeId) (es : List DeferredEntry) :
    Spares f running p (p.addEntries r es) := by
  unfold Page.addEntries
  split
  · exact refl p
  · exact same rfl rfl rfl

theorem defer (p : Page) (r : RuntimeId) (es : List DeferredEntry) : Spares f true p (p.defer r es) :=
  (addEntries p r es).trans (runReady ..)

/-- An entry that is run has its factory executed. -/
theorem enter (p : Page) (r : RuntimeId) (e : DeferredEntry) : Spares f true p (p.enter r e) := by
  simp only [Page.enter]
  split
  · exact pushed ⟨by simp [Task.serves], by simp⟩ rfl rfl rfl
  · exact same rfl rfl rfl

/-- A factory that is executed calls its script. -/
theorem execute (p : Page) (r : RuntimeId) (g : FactoryId) : Spares f running p (p.execute r g) := by
  unfold Page.execute
  split
  · exact refl p
  · exact pushed (script _) rfl rfl rfl

/-- An import that ends leaves the other ones alone. -/
theorem endImport {g : FutureId} (other : g ≠ f) (r : RuntimeId) (module : ModuleId) (result : LoadResult) :
    Spares f running p (p.endImport g r module result) := by
  have reported (e : LoadError) : Spares f running p ((p.report r e).settleFuture g (.failed e)) :=
    (same rfl rfl rfl : Spares f running p (p.report r e)).trans (settleFuture other _)
  cases result with
  | ok =>
    simp only [Page.endImport]
    split
    · refine pushed ⟨by simp [Task.serves, other], ?_⟩ rfl rfl rfl
      simp [Task.runs]
    · exact reported _
  | failed e => exact reported e

/-- An import that goes on leaves the other ones alone. -/
theorem load {g : FutureId} (other : g ≠ f) (r : RuntimeId) (rest : List ChunkId)
    (loads : List (List Awaited)) (module : ModuleId) :
    Spares f running p (p.load g r rest loads module) := by
  cases rest with
  | cons c rest => exact ask (by simp [Task.serves, other])
  | nil =>
    simp only [Page.load]
    split
    · exact modifyFuture other _
    · exact (modifyFuture other _).trans (endImport other ..)

/-- A pass that goes on serves no import until it gets to it. -/
theorem passing (next : FutureId) (settledAny : Bool) : Foreign f running [.pass next settledAny] :=
  .of_forall (by simp [Task.serves, Task.runs])

/-- The end of a poll goes on with the pass. -/
theorem polled {g : FutureId} (other : g ≠ f) (settledAny : Bool) :
    Spares f running p (p.polled g settledAny) :=
  (modifyFuture other _).trans (pushed (passing ..) rfl rfl rfl)

/-- To poll an import leaves the other ones alone. -/
theorem pollImport {g : FutureId} (other : g ≠ f) (settledAny : Bool) {t : Task}
    (apart : t.serves f = false) : Spares f running p (p.pollImport g settledAny t) := by
  have polls : Foreign f running [t, .polled g settledAny] := by
    refine ⟨fun t' member => ?_, by simp [Task.runs]⟩
    rcases List.mem_cons.mp member with rfl | member
    · exact apart
    · obtain rfl := List.mem_singleton.mp member
      simp [Task.serves, other]
  exact (modifyFuture other _).trans (pushed polls rfl rfl rfl)

/-- A pass that comes to another future, or finds nothing to do for this one. -/
theorem pass {next : FutureId} (rests : next = f → ∀ future, p.futures[f]? = some future →
    future.polling ∨ future.progress.isSettled) (settledAny : Bool) :
    Spares f running p (p.pass next settledAny) := by
  have passes {q : Page} (next : FutureId) (settledAny : Bool) :
      Spares f running q (q.call [.pass next settledAny]) := pushed (passing ..) rfl rfl rfl
  unfold Page.pass
  cases found : p.futures[next]? with
  | none =>
    simp only
    split
    · exact passes ..
    · exact refl p
  | some future =>
    -- The pass looks at the future that comes next.
    simp only
    split
    · exact passes ..
    · rename_i idle
      by_cases same : next = f
      · -- A future that is not being polled has settled.
        subst same
        have settled := (rests rfl future found).resolve_left idle
        cases progress : future.progress with
        | settled result => exact passes ..
        | _ =>
          rw [progress] at settled
          cases settled
      · split
        · exact passes ..
        · split
          · exact passes ..
          · exact (settleFuture same _).trans (passes ..)
        · exact pollImport same _ (by simp [Task.serves, same])
        · exact pollImport same _ (by simp [Task.serves, same])

theorem conclude (p : Page) (a : Answer) (nested : Bool) : Spares f running p (p.conclude a nested) := by
  unfold Page.conclude
  split
  · exact same rfl rfl rfl
  · exact same rfl rfl rfl

/-! ## Commands -/

/-- A command on a named runtime leaves an import alone if what it does there does. -/
theorem withRuntime {nested : Bool} {name : String} {act : RuntimeId → Page}
    (acts : ∀ r, Spares f running p (act r)) : Spares f running p (p.withRuntime nested name act) := by
  unfold Page.withRuntime
  split
  · exact acts _
  · exact answerWith ..

/-- So does one on a named bootstrap. -/
theorem withBootstrap {nested : Bool} {name : String} {act : ExtensionId → Bootstrap → Page}
    (acts : ∀ x b, Spares f running p (act x b)) :
    Spares f running p (p.withBootstrap nested name act) := by
  unfold Page.withBootstrap
  split
  · exact acts _ _
  · exact answerWith ..

theorem addModules (p : Page) (ms : List (ModuleSpec Command)) : Spares f running p (p.addModules ms).2 := by
  rw [addModules_frame]
  exact same rfl rfl rfl

/-- What is put above an answer does not run a factory in the place of another task. -/
theorem answered {a : Answer} {nested : Bool} {inUse : Option RuntimeId}
    (spares : Spares f true (p.call [.conclude a nested inUse]) q) : Spares f running p q := by
  obtain ⟨ts, foreign, agenda⟩ := spares.agenda
  refine ⟨⟨ts ++ [.conclude a nested inUse], ?_, ?_⟩, spares.future, spares.count, spares.ended⟩
  · exact .above foreign.apart (concluding ..) (List.cons_ne_nil _ _)
  · rw [agenda, List.append_assoc]
    rfl

/-- A new consumer merges what it missed. -/
theorem install (p : Page) (r : RuntimeId) (queue : String) : Spares f true p (p.install r queue) := by
  simp only [Page.install]
  split
  · exact refl p
  · exact pushed (.map_running fun _ => rfl) rfl rfl rfl

/-- A push calls for merges. -/
theorem push (p : Page) (queue : String) (d : Delivery) : Spares f true p (p.push queue d) :=
  pushed (.map_running fun _ => rfl) rfl rfl rfl

/-- A startup calls for entries. -/
theorem startup (p : Page) (r : RuntimeId) (es : List DeferredEntry) : Spares f true p (p.startup r es) := by
  unfold Page.startup
  split
  · exact defer ..
  · exact pushed (.map_running fun _ => rfl) rfl rfl rfl

/-- The end of an update executes the factories of the update, and answers after that, so that none of them is the
last task. -/
theorem finishUpdate (p : Page) (nested : Bool) (x : ExtensionId) (b : Bootstrap) (next : String)
    (runOn : Option String) : Spares f running p (p.finishUpdate nested x b next runOn) := by
  unfold Page.finishUpdate
  split
  · exact answerWith ..
  · simp only
    split
    · exact pushed (concluding ..) rfl rfl rfl
    · have runs (r : RuntimeId) (gs : List FactoryId) : Foreign f true (gs.map (.execute r ·)) :=
        .map_running fun _ => rfl
      exact pushed (.above (runs _ _).apart (concluding ..) (List.cons_ne_nil _ _)) rfl rfl rfl

/-- A load that the host settles was not settled before. -/
theorem settleManual (p : Page) (nested : Bool) (key : String × ChunkId) (result : LoadResult) :
    Spares f running p (p.settleManual nested key result) := by
  unfold Page.settleManual
  split
  · rename_i waiting
    exact (setManual (some result) (congrArg Option.join waiting)).trans (answerWith ..)
  · exact answerWith ..

/-- **Commands leave imports alone.** -/
theorem perform (p : Page) (nested : Bool) (command : Command) :
    Spares f running p (p.perform nested command) := by
  have answers (a : Answer) : Spares f running p (p.answerWith nested a) := answerWith ..
  -- Whatever a command calls for is foreign; where it may run a factory, its answer stands below.
  cases command with
  | create name plan extension =>
    simp only [Page.perform]
    split
    · rename_i added
      obtain ⟨b, x, rt, -, frame⟩ := addRuntime_frame added
      rw [frame]
      exact pushed (concluding ..) rfl rfl rfl
    · exact answers _
  | drop name => exact pushed (concluding ..) rfl rfl rfl
  | install name queue => exact withRuntime fun r => answered (install ..)
  | push queue spec =>
    have first : Spares f running p (p.addDelivery spec).2 := addModules ..
    exact first.trans (answered (push ..))
  | ensure name c label => exact withRuntime fun r => ask rfl
  | load name cs module label => exact withRuntime fun r => (addFuture ..).trans (answerWith ..)
  | poll => exact answered (pushed (passing ..) rfl rfl rfl)
  | hint name c kind =>
    exact withRuntime fun r => answered (pushed (.of_forall (by simp [Task.serves, Task.runs])) rfl rfl rfl)
  | complete ref event =>
    simp only [Page.perform]
    split
    · exact answers _
    · exact (complete ..).trans (answerWith ..)
  | settle handler c result => exact settleManual ..
  | execute name module =>
    refine withRuntime fun r => ?_
    split
    · exact answered (pushed ⟨by simp [Task.serves], by simp⟩ rfl rfl rfl)
    · exact answers _
  | startup name entries =>
    refine withRuntime fun r => ?_
    split
    · exact answered (startup ..)
    · exact answers _
  | runSatisfied name => exact withRuntime fun r => answered (runReady ..)
  | states name cs => exact withRuntime fun r => answers _
  | hasModule name m => exact withRuntime fun r => answers _
  | address name c => exact withRuntime fun r => answers _
  | describe name => exact withRuntime fun r => answers _
  | setExtension name spec =>
    cases spec with
    | none => exact withRuntime fun r => pushed (concluding ..) rfl rfl rfl
    | some spec =>
      refine withRuntime fun r => ?_
      split
      · rename_i added
        rw [addExtension_frame added]
        exact pushed (concluding ..) rfl rfl rfl
      · exact answers _
  | setSink name sink => exact withRuntime fun r => pushed (concluding ..) rfl rfl rfl
  | report name result =>
    refine withRuntime fun r => ?_
    split
    · exact answers _
    · exact pushed (concluding ..) rfl rfl rfl
  | createBootstrap hot plan previous =>
    obtain ⟨xs, bs, a, frame⟩ := createBootstrap_frame p nested hot plan previous
    rw [frame]
    exact pushed (concluding ..) rfl rfl rfl
  | observe hot spec =>
    have first : Spares f running p (p.addDelivery spec).2 := addModules ..
    refine first.trans (withBootstrap fun x b => ?_)
    exact answered (pushed (.of_forall (by simp [Task.serves, Task.runs])) rfl rfl rfl)
  | manifestAddress hot => exact withBootstrap fun x b => answers _
  | updateAddress hot c => exact withBootstrap fun x b => answers _
  | applyManifest hot manifest =>
    refine withBootstrap fun x b => ?_
    split
    · exact pushed (concluding ..) rfl rfl rfl
    · exact answers _
    · exact answers _
  | receive hot c modules =>
    exact (addModules p modules).trans (withBootstrap fun x b => pushed (concluding ..) rfl rfl rfl)
  | finish hot next runOn => exact withBootstrap fun x b => finishUpdate ..

/-- **Tasks that are not done for an import leave it alone**, a pass that begins to poll it apart. -/
theorem act {t : Task} (apart : t.serves f = false)
    (rests : ∀ settledAny, t = .pass f settledAny → ∀ future, p.futures[f]? = some future →
      future.polling ∨ future.progress.isSettled) : Spares f t.runs p (p.act t) := by
  have other {g : FutureId} (apart : decide (g = f) = false) : g ≠ f := of_decide_eq_false apart
  cases t with
  | perform command nested => exact perform ..
  | conclude a nested inUse => exact conclude ..
  | gather r c handlers got caller => exact gather apart
  | hint r c kind => exact hint ..
  | merge r d => exact merge ..
  | observe x d => exact observe ..
  | resolve r d waiting clashes => exact resolve ..
  | defer r es => exact defer ..
  | enter r e => exact enter ..
  | execute r g => exact execute ..
  | pass next settledAny => exact pass (fun same => rests settledAny (same ▸ rfl)) settledAny
  | load g r rest loads module => exact load (other apart) ..
  | settle g r result => exact settleFuture (other apart) result
  | polled g settledAny => exact polled (other apart) settledAny

end Spares

/-! ## Imports that are not there yet -/

/-- Once the task at hand is taken, every move spares the imports that are not there yet. -/
theorem spares_new (apart : ∀ f, p.futures.length ≤ f → ∀ t ∈ p.agenda, t.serves f = false) (m : Move) :
    ∃ q running, q.manual = p.manual ∧ q.futures = p.futures ∧ (∀ t ∈ q.agenda, t ∈ p.agenda) ∧
      ∀ f, p.futures.length ≤ f → Spares f running q (p.make m) := by
  cases m with
  | call command nested =>
    exact ⟨p, false, rfl, rfl, fun _ => id, fun f _ => .pushed (Spares.performing ..) rfl rfl rfl⟩
  | poll next =>
    exact ⟨p, false, rfl, rfl, fun _ => id, fun f _ => .pushed (Spares.passing ..) rfl rfl rfl⟩
  | task =>
    cases agenda : p.agenda with
    | nil =>
      have still : p.make .task = p := by simp [make, step, agenda]
      refine ⟨p, false, rfl, rfl, fun _ member => agenda ▸ member, fun f _ => ?_⟩
      rw [still]
      exact .refl p
    | cons t ts =>
      rw [agenda] at apart
      have left : ∀ t' ∈ p.rest.agenda, t' ∈ t :: ts := by
        rw [agenda_rest agenda]
        exact fun _ => List.mem_cons_of_mem t
      refine ⟨p.rest, t.runs, rfl, rfl, left, fun f new => ?_⟩
      rw [make_task agenda]
      refine .act (apart f new t List.mem_cons_self) fun _ _ future there => ?_
      exact absurd (List.getElem?_eq_some_iff.mp there).1 (Nat.not_lt.mpr new)

/-- Tasks serve imports that are there, and no future is forgotten. -/
theorem Reachable.serves_inRange (h : p.Reachable) : ∀ f, p.futures.length ≤ f →
    ∀ t ∈ p.agenda, t.serves f = false := by
  induction h with
  | fresh onInject onHint => exact fun _ _ => List.forall_mem_nil _
  | make m h ih =>
    obtain ⟨q, running, -, futures, left, spares⟩ := spares_new ih m
    intro f new
    have old := Nat.le_trans (futures ▸ (spares _ (Nat.le_refl _)).count) new
    obtain ⟨us, foreign, agenda⟩ := (spares f old).agenda
    rw [agenda]
    exact List.forall_mem_append.mpr ⟨foreign.apart, fun t member => ih f old t (left t member)⟩

/-- A load of the host's own ends once. -/
theorem Reachable.ended_follow (h : p.Reachable) {key : String × ChunkId} {result : LoadResult}
    (ended : p.manual.get? key = some (some result)) (ms : List Move) :
    (p.follow ms).manual.get? key = some (some result) := by
  induction ms generalizing p with
  | nil => exact ended
  | cons m ms ih =>
    obtain ⟨q, running, manual, -, -, spares⟩ := spares_new h.serves_inRange m
    refine ih (.make m h) ?_
    exact (spares _ (Nat.le_refl _)).ended key result (manual ▸ ended)

end Page

end ChunkLoading
