import ChunkLoading.Proofs.Extensionless

/-!
# Tasks without extensions

What the tasks of runtimes and futures do to the plain page is what they do to the page, made plain. On a bare
page nothing is shown: all that a showing does is what a tap calls back (`bare_observe`).
-/

namespace ChunkLoading.Page

variable {bare : Bool}

/-- A hint is what it is without extensions. -/
@[simp] theorem plain_hint (p : Page) (r : RuntimeId) (c : ChunkId) (kind : HintKind) :
    (p.hint r c kind).plain bare = (p.plain bare).hint r c kind := by
  unfold hint
  rw [store_plain]
  split
  · exact plain_setStore ..
  · simp only [plain_callScript, plain_note, plain_setStore, runtime_plain, ← hostScript_plain]
    rfl

/-- A request is made from options, which stay. -/
theorem request_plain (p : Page) (r : RuntimeId) (c : ChunkId) (n : Attempt) :
    (p.plain bare).request r c n = p.request r c n := by
  unfold request
  rw [runtime_plain]
  rfl

@[simp] theorem plain_inject (p : Page) (q : Request) :
    (p.inject q).plain bare = (p.plain bare).inject q := by
  unfold inject
  rw [plain_callScript, plain_note, ← hostScript_plain]
  rfl

/-- A handler is asked in the same way: no handler knows of extensions. -/
@[simp] theorem plain_gatherFrom (p : Page) (r : RuntimeId) (c : ChunkId) (h : Handler) (rest : List Handler)
    (got : List Awaited) (caller : Caller) : (p.gatherFrom r c h rest got caller).plain bare =
      (p.plain bare).gatherFrom r c h rest got caller := by
  -- A script handler looks at stores and a custom one at what was settled by hand; both stay.
  cases h with
  | script only =>
    simp only [gatherFrom, store_plain]
    split
    · split
      · rw [plain_setStore, plain_call]
        rfl
      · rw [plain_setStore, plain_call]
        rfl
      · rw [plain_inject, plain_setStore, plain_call, request_plain]
        rfl
    · exact plain_call ..
  | noop => exact plain_call ..
  | preload children =>
    simp only [gatherFrom]
    rw [plain_call, plain_call, plain?_map fun _ => rfl]
    rfl
  | custom name only answer =>
    simp only [gatherFrom, plain_manual]
    split
    · cases answer with
      | settled result =>
        simp only [plain_note, plain_call]
        rfl
      | manual =>
        simp only
        split
        · rw [plain_note, plain_call]
          rfl
        · rfl
    · rw [plain_note, plain_call]
      rfl

/-- The caller is given its answer, which is blank. -/
theorem plain_gathered (p : Page) (r : RuntimeId) (got : List Awaited) (caller : Caller) :
    (p.gathered r got caller).plain bare = ((p.plain bare).gathered r got caller).plain false := by
  cases caller with
  | ensure label nested =>
    simp only [gathered, addFuture_plain, plain_call, plain_plain]
    rfl
  | importing f rest loads module =>
    simp only [gathered, plain_call, plain_plain]
    rfl

theorem plain_gather (p : Page) (r : RuntimeId) (c : ChunkId) (handlers : List Handler) (got : List Awaited)
    (caller : Caller) : (p.gather r c handlers got caller).plain bare =
      ((p.plain bare).gather r c handlers got caller).plain false := by
  cases handlers with
  | nil => exact plain_gathered ..
  | cons h rest => simp [gather]

/-- A chunk is asked for in the same way. -/
@[simp] theorem plain_ask (p : Page) (r : RuntimeId) (c : ChunkId) (caller : Caller) :
    (p.ask r c caller).plain bare = (p.plain bare).ask r c caller := by
  unfold ask
  rw [runtime_plain]
  show _ = if (p.runtime r).onDemand then _ else _
  simp only
  split <;> exact plain_call ..

/-- A resource that ends finds the same attempt under way. -/
@[simp] theorem plain_complete (p : Page) (q : Request) (e : ResourceEvent) :
    (p.complete q e).plain bare = (p.plain bare).complete q e := by
  unfold complete
  rw [alive_plain, store_plain]
  split
  · split
    · exact plain_setStore ..
    · rw [plain_settleAttempt, plain_note, plain_setStore]
      rfl
  · rfl

/-- A merge calls for the same tasks, but for the showing of its delivery, which a bare page has not. -/
@[simp] theorem plain_merge (p : Page) (r : RuntimeId) (d : Delivery) :
    (p.merge r d).plain bare = (p.plain bare).merge r d := by
  -- The showing goes with the extension; everything else that a merge calls for stays.
  have observers : ((p.runtime r).extension.toList.map (Task.observe · d)).filterMap (Task.plain? bare) =
      ((p.runtime r).plain bare).extension.toList.map (Task.observe · d) := by
    cases extension : (p.runtime r).extension <;> cases bare <;> simp [Runtime.plain, Task.plain?, extension]
  have hints : (if (p.runtime r).prefetch then d.prefetch.map (Task.hint r · .prefetch) else []).filterMap
      (Task.plain? bare) = if (p.runtime r).prefetch then d.prefetch.map (Task.hint r · .prefetch) else [] := by
    split
    · exact plain?_map (fun _ => rfl) _
    · rfl
  have events (cs : List ChunkId) : (Event.merged r d :: cs.map (Event.loaded r)).filter (Event.stays bare) =
      .merged r d :: cs.map (.loaded r) := by
    refine List.filter_eq_self.mpr fun e member => ?_
    rcases List.mem_cons.mp member with rfl | member
    · rfl
    · obtain ⟨c, -, rfl⟩ := List.mem_map.mp member
      rfl
  unfold merge
  simp only [plain_call, plain_note, plain_setStore, runtime_plain, List.filterMap_append, observers, hints,
    events]
  rfl

/-- The attempts that waited for a delivery end in the same way. -/
@[simp] theorem plain_resolve (p : Page) (r : RuntimeId) (d : Delivery) (waiting : List (ChunkId × Attempt))
    (clashes : List ModuleId) :
    (p.resolve r d waiting clashes).plain bare = (p.plain bare).resolve r d waiting clashes := by
  unfold resolve
  induction waiting generalizing p with
  | nil => rfl
  | cons w waiting ih => rw [List.foldl_cons, List.foldl_cons, ih, plain_settleAttempt]

@[simp] theorem readyEntries_plain (p : Page) (r : RuntimeId) :
    (p.plain bare).readyEntries r = p.readyEntries r := by
  unfold readyEntries
  rw [runtime_plain, store_plain]
  rfl

/-- The entries that can run are taken in the same way. -/
@[simp] theorem plain_runReady (p : Page) (r : RuntimeId) :
    (p.runReady r).plain bare = (p.plain bare).runReady r := by
  unfold runReady
  rw [plain_call, plain?_map fun _ => rfl, readyEntries_plain, plain_modifyRuntime]
  exact fun _ => rfl

/-- Entries are deferred in the same way. -/
@[simp] theorem plain_defer (p : Page) (r : RuntimeId) (es : List DeferredEntry) :
    (p.defer r es).plain bare = (p.plain bare).defer r es := by
  have added : (p.addEntries r es).plain bare = (p.plain bare).addEntries r es := by
    unfold addEntries
    rw [worklist_plain]
    split
    · rfl
    · rw [plain_note, plain_modifyRuntime]
      · rfl
      · exact fun _ => rfl
  rw [defer, plain_runReady, added]
  rfl

@[simp] theorem plain_startup (p : Page) (r : RuntimeId) (es : List DeferredEntry) :
    (p.startup r es).plain bare = (p.plain bare).startup r es := by
  unfold startup
  rw [worklist_plain]
  split
  · exact plain_defer ..
  · rw [plain_call, plain?_map fun _ => rfl]

@[simp] theorem plain_enter (p : Page) (r : RuntimeId) (e : DeferredEntry) :
    (p.enter r e).plain bare = (p.plain bare).enter r e := by
  have entered : (p.note [.entered r e]).plain bare = (p.plain bare).note [.entered r e] := plain_note ..
  unfold enter
  rw [← entered]
  simp only [store_plain]
  split
  · exact plain_call ..
  · exact plain_report ..

/-- A factory runs, and its script is called without extensions. -/
@[simp] theorem plain_execute (p : Page) (r : RuntimeId) (f : FactoryId) :
    (p.execute r f).plain bare = (p.plain bare).execute r f := by
  unfold execute
  rw [plain_factories, List.getElem?_map]
  cases p.factories[f]? with
  | none => rfl
  | some factory =>
    simp only [Option.map_some, plain_callScript, plain_note, nameOf?_plain]
    rfl

@[simp] theorem plain_endImport (p : Page) (f : FutureId) (r : RuntimeId) (module : ModuleId)
    (result : LoadResult) :
    (p.endImport f r module result).plain bare = (p.plain bare).endImport f r module result := by
  cases result with
  | ok =>
    simp only [endImport, store_plain]
    split
    · exact plain_call ..
    · rw [plain_settleFuture, plain_report]
  | failed e => simp only [endImport, plain_settleFuture, plain_report]

/-- An import asks for its chunks in the same way. -/
@[simp] theorem plain_load (p : Page) (f : FutureId) (r : RuntimeId) (rest : List ChunkId)
    (loads : List (List Awaited)) (module : ModuleId) :
    (p.load f r rest loads module).plain bare = (p.plain bare).load f r rest loads module := by
  cases rest with
  | cons c rest => exact plain_ask ..
  | nil =>
    simp only [load]
    rw [← plain_modifyFuture, joined_plain]
    split
    · rfl
    · exact plain_endImport ..

/-- An import is polled in the same way. -/
@[simp] theorem plain_pollImport (p : Page) (f : FutureId) (settledAny : Bool) {t : Task}
    (stays : t.plain? bare = some t) :
    (p.pollImport f settledAny t).plain bare = (p.plain bare).pollImport f settledAny t := by
  unfold pollImport
  rw [plain_call, plain_modifyFuture, List.filterMap_cons_some stays]
  rfl

/-- A pass over the futures looks at the same ones. -/
@[simp] theorem plain_pass (p : Page) (next : FutureId) (settledAny : Bool) :
    (p.pass next settledAny).plain bare = (p.plain bare).pass next settledAny := by
  -- Futures and outcomes are those of the page, so that the pass stops at the same one.
  unfold pass
  rw [plain_futures, joined_plain]
  split
  · split
    · exact plain_call ..
    · rfl
  · split
    · exact plain_call ..
    · split
      · exact plain_call ..
      · split
        · exact plain_call ..
        · rw [plain_call, plain_settleFuture]
          rfl
      · exact plain_pollImport _ _ _ rfl
      · exact plain_pollImport _ _ _ rfl

@[simp] theorem plain_polled (p : Page) (f : FutureId) (settledAny : Bool) :
    (p.polled f settledAny).plain bare = (p.plain bare).polled f settledAny := by
  unfold polled
  rw [plain_call, plain_modifyFuture, plain_futures]
  rfl

/-- The answer is blank, as is the one to a command from outside. -/
theorem plain_conclude (p : Page) (a : Answer) (nested : Bool) :
    (p.conclude a nested).plain bare = p.plain bare := by
  cases nested with
  | true => exact plain_note ..
  | false => rfl

/-- What a tap calls back when it is shown a delivery; one that only observes calls nothing. -/
def tapScript (p : Page) (x : ExtensionId) : Script :=
  match p.extensions[x]? with
  | some (.tap _ _ script) => script
  | _ => []

/-- **All that a showing does is what a tap calls back.** -/
theorem bare_observe (p : Page) (x : ExtensionId) (d : Delivery) :
    (p.observe x d).plain true = (p.plain true).callScript (Script.plain true (p.tapScript x)) := by
  unfold observe tapScript
  cases found : p.extensions[x]? with
  | none => rfl
  | some extension =>
    cases extension with
    | tap name describes script =>
      simp only [plain_callScript, plain_note]
      cases describes <;> rfl
    | bootstrap b =>
      simp only [plain_call]
      cases b.previous <;> rfl

end ChunkLoading.Page
