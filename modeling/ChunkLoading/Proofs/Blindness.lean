import ChunkLoading.Proofs.Likeness

/-!
# Blind to hints

Every operation of a page keeps alike pages alike, whatever it branches on. A hint alone leaves a page
like the other one (`hint_left`, `hint_right`), so that the pages stay alike when one of them does not
have it.
-/

namespace ChunkLoading.Page.Alike

variable {w : Erasure} {p q : Page} {r : RuntimeId}

/-! ## Hints -/

section

variable (same : p.Alike w q)

include same

/-- The first page may take any store that only hints tell from its own. -/
theorem setStore_left {s : Store} (alike : s.Alike (p.store r)) : (p.setStore r s).Alike w q := by
  rw [← q.setStore_store r]
  exact same.setStore r (alike.trans (same.store r))

/-- So may the second page. -/
theorem setStore_right {s : Store} (alike : (q.store r).Alike s) : p.Alike w (q.setStore r s) := by
  rw [← p.setStore_store r]
  exact same.setStore r ((same.store r).trans alike)

/-- A hint that only the first page has changes nothing in which the pages are to agree. -/
theorem hint_left (r : RuntimeId) (c : ChunkId) (kind : HintKind) : (p.hint r c kind).Alike w q := by
  -- The mark of a hint is what stores may differ in.
  have marked := same.setStore_left (Store.Alike.markHinted (p.store r) c).symm
  unfold Page.hint
  split
  · rename_i s refused
    rwa [refused] at marked
  · rename_i s accepted
    rw [accepted] at marked
    have noted := marked.note [.hinted r c kind ((p.runtime r).options.address c)
      (p.runtime r).options.nonce (p.runtime r).options.crossOrigin] [] ⟨rfl, fun _ => rfl⟩
    -- The host does nothing.
    simp only [same.silent]
    exact noted

/-- Likewise a hint that only the second page has, if that page may have hints at all. -/
theorem hint_right (kept : w.everything = false) (r : RuntimeId) (c : ChunkId) (kind : HintKind) :
    p.Alike w (q.hint r c kind) := by
  have marked := same.setStore_right (Store.Alike.markHinted (q.store r) c)
  unfold Page.hint
  split
  · rename_i s refused
    rwa [refused] at marked
  · rename_i s accepted
    rw [accepted] at marked
    have noted := marked.note [] [.hinted r c kind ((q.runtime r).options.address c)
      (q.runtime r).options.nonce (q.runtime r).options.crossOrigin] ⟨rfl, by simp [kept]⟩
    rw [same.onHint]
    simp only [same.silent]
    exact noted

/-- A hint that both pages have. -/
theorem hint (kept : w.everything = false) (r : RuntimeId) (c : ChunkId) (kind : HintKind) :
    (p.hint r c kind).Alike w (q.hint r c kind) :=
  (same.hint_left r c kind).hint_right kept r c kind

end

/-! ## Requests -/

section

variable (same : p.Alike w q)

include same

/-- The scripts that are injected are the same, and so is what the host does. -/
theorem inject (rq : Request) : (p.inject rq).Alike w (q.inject rq) := by
  have requested : Page.Alike w { p with requests := p.requests ++ [rq] }
      { q with requests := q.requests ++ [rq] } :=
    ⟨same.silent, same.count, same.runtime, same.log, same.agenda, by rw [same.frame]; rfl⟩
  have script : hostScript q.onInject rq.chunk =
      Script.without w (hostScript p.onInject rq.chunk) := by
    rw [same.onInject, hostScript_without]
  unfold Page.inject
  rw [script]
  refine (requested.note _ _ ⟨?_, fun _ => rfl⟩).callScript _
  rw [same.requests]

/-- A handler that is asked for a chunk treats a hinted chunk like one that nobody asked for, so it gives the same
on both pages, up to the preload hints that are erased. -/
theorem gatherFrom (r : RuntimeId) (c : ChunkId) (h : Handler) (rest : List Handler)
    (got : List Awaited) (caller : Caller) :
    (p.gatherFrom r c h rest got caller).Alike w
      (q.gatherFrom r c (h.without w) (rest.map (Handler.without w)) got caller) := by
  have next (got : List Awaited) : (p.call [.gather r c rest got caller]).Alike w
      (q.call [.gather r c (rest.map (Handler.without w)) got caller]) :=
    same.call (.single rfl)
  -- Only the script handler looks at the state of the chunk, and only the preload handler gives hints.
  cases h with
  | script only =>
    simp only [Page.gatherFrom, Handler.without]
    split
    · obtain ⟨begun, stores⟩ := (same.store r).beginLoad c
      cases first : (p.store r).beginLoad c with
      | mk b s =>
        cases second : (q.store r).beginLoad c with
        | mk b' s' =>
          rw [first, second] at begun stores
          obtain rfl : b' = b := begun
          cases b' with
          | ready => exact (next _).setStore r stores
          | attached n => exact (next _).setStore r stores
          | started n =>
            have asked := ((next (got ++ [.attempt r c n])).setStore r stores).inject (p.request r c n)
            simp only [same.request]
            exact asked
    · exact next got
  | noop => exact next _
  | preload children =>
    have kept : ((w.preload children).get? c).getD [] = (children.get? c).getD [] ∧
        w.everything = false ∨ ((w.preload children).get? c).getD [] = [] := by
      unfold Erasure.preload
      split
      · rw [Assoc.get?_mapValues]
        cases children.get? c <;> exact .inr rfl
      · rename_i some
        exact .inl ⟨rfl, by simp [Erasure.everything, some]⟩
    simp only [Page.gatherFrom, Handler.without, call_call]
    exact same.call (Agenda.Alike.hints (.single rfl) (by simp [Task.without, Task.uses]) .preload kept)
  | custom name only answer =>
    simp only [Page.gatherFrom, Handler.without]
    split
    · have asked (a : Awaited) := (next (got ++ [a])).note
        [.asked name c true] [.asked name c true] ⟨rfl, fun _ => rfl⟩
      cases answer with
      | settled result => exact asked _
      | manual =>
        simp only [same.manual]
        split
        · exact asked _
        · exact (asked _).setManual (name, c) none
    · exact (next got).note _ _ ⟨rfl, fun _ => rfl⟩

theorem gathered (r : RuntimeId) (got : List Awaited) (caller : Caller) :
    (p.gathered r got caller).Alike w (q.gathered r got caller) := by
  cases caller with
  | ensure label nested =>
    obtain ⟨name, added⟩ := same.addFuture label (.ensuring got)
    simp only [Page.gathered, name]
    exact added.call (.single rfl)
  | importing f rest loads module => exact same.call (.single rfl)

theorem gather (r : RuntimeId) (c : ChunkId) (handlers : List Handler) (got : List Awaited)
    (caller : Caller) : (p.gather r c handlers got caller).Alike w
      (q.gather r c (handlers.map (Handler.without w)) got caller) := by
  cases handlers with
  | nil => exact same.gathered r got caller
  | cons h rest => exact same.gatherFrom r c h rest got caller

/-- A chunk is asked for in the same way on both pages. -/
theorem ask (r : RuntimeId) (c : ChunkId) (caller : Caller) :
    (p.ask r c caller).Alike w (q.ask r c caller) := by
  simp only [Page.ask, (same.runtime r).onDemand, (same.runtime r).handlers]
  split
  · exact same.call (.single rfl)
  · exact same.call (.single rfl)

/-- A resource that ends finds the same attempt under way on both pages. -/
theorem complete (rq : Request) (e : ResourceEvent) :
    (p.complete rq e).Alike w (q.complete rq e) := by
  unfold Page.complete
  rw [same.alive]
  split
  · obtain ⟨failed, stores⟩ := (same.store rq.runtime).fail rq.chunk rq.attempt
    cases first : (p.store rq.runtime).fail rq.chunk rq.attempt with
    | mk b s =>
      cases second : (q.store rq.runtime).fail rq.chunk rq.attempt with
      | mk b' s' =>
        rw [first, second] at failed stores
        obtain rfl : b' = b := failed
        have stored := same.setStore rq.runtime stores
        cases b' with
        | false => exact stored
        | true => exact (stored.note _ _ ⟨rfl, fun _ => rfl⟩).settleAttempt _ _ _ _
  · exact same

/-! ## Deliveries -/

/-- The hints of a delivery are kept or left out. -/
theorem prefetches (r : RuntimeId) (d : Delivery) : ∃ cs cs' : List ChunkId,
    (cs' = cs ∧ w.everything = false ∨ cs' = []) ∧
    (if (p.runtime r).prefetch then d.prefetch.map (.hint r · .prefetch) else []) =
      cs.map (Task.hint r · .prefetch) ∧
    (if (q.runtime r).prefetch then (d.without w).prefetch.map (.hint r · .prefetch) else []) =
      cs'.map (Task.hint r · .prefetch) := by
  rw [(same.runtime r).prefetch]
  cases (p.runtime r).prefetch with
  | false => exact ⟨[], [], .inr rfl, rfl, rfl⟩
  | true =>
    cases support : w.support with
    | true => exact ⟨d.prefetch, [], .inr rfl, rfl, rfl⟩
    | false =>
      refine ⟨d.prefetch, (d.without w).prefetch, ?_, rfl, rfl⟩
      show (if w.lists then [] else d.prefetch) = d.prefetch ∧ _ ∨
        (if w.lists then [] else d.prefetch) = []
      split
      · exact .inr rfl
      · rename_i some
        exact .inl ⟨rfl, by simp [Erasure.everything, some, support]⟩

/-- A merge loads the same chunks and finds the same attempts waiting; of what it calls for only hints differ. -/
theorem merge (r : RuntimeId) (d : Delivery) : (p.merge r d).Alike w (q.merge r (d.without w)) := by
  obtain ⟨merged, stores⟩ := (same.store r).merge w d
  obtain ⟨cs, cs', kept, hints, hints'⟩ := same.prefetches r d
  have noted := (same.setStore r stores).note
    (.merged r d :: ((p.store r).merge d).loaded.map (.loaded r ·))
    (.merged r (d.without w) :: ((p.store r).merge d).loaded.map (.loaded r ·))
    ⟨rfl, fun _ => by simp [Event.isHint]⟩
  have after : Agenda.Alike w
      [.resolve r d ((p.store r).merge d).waiting ((p.store r).merge d).clashes, .defer r d.entries]
      [.resolve r (d.without w) ((p.store r).merge d).waiting ((p.store r).merge d).clashes,
        .defer r d.entries] := .keep (.resolve r d _ _) rfl (.single (t := .defer r d.entries) rfl)
  have tasks := (Agenda.Alike.observers (w := w) (p.runtime r).extension d).append
    (after.hints (r := r) (by simp [Task.uses]) .prefetch kept)
  have loaded : ((q.runtime r).store.merge (d.without w)).loaded = ((p.store r).merge d).loaded := by
    show ((q.store r).merge (d.without w)).loaded = _
    rw [merged]
  have waiting : ((q.runtime r).store.merge (d.without w)).waiting =
      ((p.store r).merge d).waiting := by
    show ((q.store r).merge (d.without w)).waiting = _
    rw [merged]
  have clashes : ((q.runtime r).store.merge (d.without w)).clashes =
      ((p.store r).merge d).clashes := by
    show ((q.store r).merge (d.without w)).clashes = _
    rw [merged]
  -- The stores are merged alike, so the same chunks are loaded and the same modules clash.
  unfold Page.merge
  simp only [hints, hints', loaded, waiting, clashes, (same.runtime r).extension, List.append_assoc]
  exact noted.call tasks

/-- An extension is shown the delivery without its hints, and calls back the same. -/
theorem observe (x : ExtensionId) (d : Delivery) :
    (p.observe x d).Alike w (q.observe x (d.without w)) := by
  unfold Page.observe
  rw [same.extensions, List.getElem?_map]
  cases p.extensions[x]? with
  | none => exact same
  | some extension =>
    cases extension with
    | tap name describes script =>
      refine (same.note _ _ ⟨?_, fun _ => ?_⟩).callScript script
      · cases describes <;> rfl
      · cases describes <;> rfl
    | bootstrap b =>
      refine (same.setBootstrap x (b.noteLoaded d.chunks)).call ?_
      exact .observers b.previous d

/-- The attempts that waited for a delivery end in the same way. -/
theorem resolve (r : RuntimeId) (d : Delivery) (waiting : List (ChunkId × Attempt))
    (clashes : List ModuleId) :
    (p.resolve r d waiting clashes).Alike w (q.resolve r (d.without w) waiting clashes) := by
  unfold Page.resolve
  induction waiting generalizing p q with
  | nil => exact same
  | cons t waiting ih => exact ih (same.settleAttempt r t.1 t.2 (mergeResult d clashes))

/-! ## Entries -/

/-- The same entries can run, since a hint loads nothing. -/
theorem runReady (r : RuntimeId) : (p.runReady r).Alike w (q.runReady r) := by
  unfold Page.runReady
  rw [same.readyEntries]
  refine (same.modifyRuntime ?_).call ?_
  · -- Which entries can run does not depend on hints.
    have scanned := (same.runtime r).setWorklist
      ((p.runtime r).worklist.map (·.waiting (p.runtime r).store.isLoaded))
    rw [(same.runtime r).worklist, (same.runtime r).store.isLoaded]
    exact scanned
  · exact .entries r (p.readyEntries r)

theorem addEntries (r : RuntimeId) (es : List DeferredEntry) :
    (p.addEntries r es).Alike w (q.addEntries r es) := by
  unfold Page.addEntries
  rw [(same.runtime r).worklist]
  split
  · exact same
  · rename_i entries _
    exact (same.modifyRuntime ((same.runtime r).setWorklist (some (entries ++ es)))).note _ _ ⟨rfl, fun _ => rfl⟩

/-- The same entries are added, and the same ones run. -/
theorem defer (r : RuntimeId) (es : List DeferredEntry) : (p.defer r es).Alike w (q.defer r es) :=
  (same.addEntries r es).runReady r

theorem enter (r : RuntimeId) (e : DeferredEntry) : (p.enter r e).Alike w (q.enter r e) := by
  have noted := same.note [.entered r e] [.entered r e] ⟨rfl, fun _ => rfl⟩
  unfold Page.enter
  simp only [(noted.store r).factory?]
  split
  · exact noted.call (.single rfl)
  · exact noted.report r _

/-- A factory calls back the same, without the hints in its script. -/
theorem execute (r : RuntimeId) (f : FactoryId) : (p.execute r f).Alike w (q.execute r f) := by
  unfold Page.execute
  rw [same.factories, List.getElem?_map]
  cases p.factories[f]? with
  | none => exact same
  | some fac =>
    refine (same.note _ _ ⟨?_, fun _ => rfl⟩).callScript fac.script
    rw [same.nameOf?]
    rfl

/-! ## Futures -/

theorem endImport (f : FutureId) (r : RuntimeId) (module : ModuleId) (result : LoadResult) :
    (p.endImport f r module result).Alike w (q.endImport f r module result) := by
  cases result with
  | ok =>
    simp only [Page.endImport, (same.store r).factory?]
    split
    · exact same.call (.keep _ rfl (.single rfl))
    · exact (same.report r _).settleFuture f _
  | failed e => exact (same.report r e).settleFuture f (.failed e)

/-- An import asks for the same chunks, or begins to wait for the same loads. -/
theorem load (f : FutureId) (r : RuntimeId) (rest : List ChunkId) (loads : List (List Awaited))
    (module : ModuleId) :
    (p.load f r rest loads module).Alike w (q.load f r rest loads module) := by
  cases rest with
  | cons c rest => exact same.ask r c _
  | nil =>
    have begun := same.modifyFuture f ({ · with progress := .importing r loads module })
    simp only [Page.load, funext begun.joined]
    split
    · exact begun
    · exact begun.endImport f r module _

theorem pollImport (f : FutureId) (settledAny : Bool) {t : Task} (kept : t.isErased w = false) :
    (p.pollImport f settledAny t).Alike w (q.pollImport f settledAny (t.without w)) :=
  (same.modifyFuture f ({ · with polling := true })).call (.keep t kept (.single rfl))

/-- A pass finds the same futures settled, and looks at the same imports. -/
theorem pass (next : FutureId) (settledAny : Bool) :
    (p.pass next settledAny).Alike w (q.pass next settledAny) := by
  have further (settledAny : Bool) : (p.call [.pass (next + 1) settledAny]).Alike w
      (q.call [.pass (next + 1) settledAny]) := same.call (.single rfl)
  unfold Page.pass
  rw [same.futures]
  -- No future is left, or there is one to look at.
  split
  · split
    · exact same.call (.single rfl)
    · exact same
  · split
    · exact further settledAny
    · -- How a future goes on depends on outcomes, and on which runtimes are alive.
      split
      · exact further settledAny
      · rw [same.joined]
        split
        · exact further settledAny
        · exact (same.settleFuture next _).call (.single rfl)
      · exact same.pollImport next settledAny rfl
      · exact same.pollImport next settledAny rfl

theorem polled (f : FutureId) (settledAny : Bool) :
    (p.polled f settledAny).Alike w (q.polled f settledAny) := by
  unfold Page.polled
  rw [same.futures]
  exact (same.modifyFuture f ({ · with polling := false })).call (.single rfl)

end

end ChunkLoading.Page.Alike
