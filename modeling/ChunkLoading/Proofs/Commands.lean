import ChunkLoading.Proofs.Blindness

/-!
# Commands without hints

A command that is performed on alike pages, on the second one without the hints that it brings, keeps
them alike (`Page.Alike.perform`). Commands that may fail do so on both pages, in the same way
(`Agree`).
-/

namespace ChunkLoading

variable {w : Erasure}

/-- Two computations fail in the same way, or have related results. -/
def Agree {ε α β : Type} (R : α → β → Prop) : Except ε α → Except ε β → Prop
  | .ok a, .ok b => R a b
  | .error e, .error e' => e' = e
  | _, _ => False

namespace Agree

variable {ε α β α' β' : Type} {R : α → β → Prop} {S : α' → β' → Prop} {x : Except ε α} {y : Except ε β}

/-- Both succeed with related results, or both fail with the same error. -/
theorem cases (agree : Agree R x y) :
    (∃ a b, x = .ok a ∧ y = .ok b ∧ R a b) ∨ ∃ e, x = .error e ∧ y = .error e := by
  cases x with
  | error e =>
    cases y with
    | error e' => exact .inr ⟨e, rfl, congrArg Except.error agree⟩
    | ok b => exact agree.elim
  | ok a =>
    cases y with
    | error e' => exact agree.elim
    | ok b => exact .inl ⟨a, b, rfl, rfl, agree⟩

/-- Agreement is kept by going on in related ways. -/
theorem bind {f : α → Except ε α'} {g : β → Except ε β'} (agree : Agree R x y)
    (rest : ∀ a b, R a b → Agree S (f a) (g b)) : Agree S (x >>= f) (y >>= g) := by
  rcases agree.cases with ⟨a, b, rfl, rfl, related⟩ | ⟨e, rfl, rfl⟩
  · exact rest a b related
  · rfl

/-- Agreement is kept by related functions. -/
theorem map {f : α → α'} {g : β → β'} (agree : Agree R x y)
    (rest : ∀ a b, R a b → S (f a) (g b)) : Agree S (x.map f) (y.map g) := by
  rcases agree.cases with ⟨a, b, rfl, rfl, related⟩ | ⟨e, rfl, rfl⟩
  · exact rest a b related
  · rfl

end Agree

namespace Page.Alike

variable {p q : Page} {r : RuntimeId}

section

variable (same : p.Alike w q)

include same

/-! ## Making things -/

theorem appendFactory (f : Factory) {keyed keyed' : Assoc String FactoryId} (keys : keyed' = keyed) :
    Alike w { p with factories := p.factories ++ [f], keyed := keyed }
      { q with factories := q.factories ++ [f.without w], keyed := keyed' } where
  silent := same.silent
  count := same.count
  runtime := same.runtime
  log := same.log
  agenda := same.agenda
  frame := by
    have factories : q.factories ++ [f.without w] = (p.factories ++ [f]).map (Factory.without w) := by
      rw [same.factories, List.map_append]
      rfl
    rw [factories, keys, same.frame]
    rfl

/-- A factory gets the same number on both pages. -/
theorem addFactory (m : ModuleSpec Command) : (q.addFactory (m.without w)).1 = (p.addFactory m).1 ∧
    (p.addFactory m).2.Alike w (q.addFactory (m.without w)).2 := by
  obtain ⟨id, key, script⟩ := m
  have number : q.factories.length = p.factories.length := by rw [same.factories, List.length_map]
  cases key with
  | none => exact ⟨number, same.appendFactory ⟨id, none, script⟩ same.keyed⟩
  | some key =>
    simp only [Page.addFactory, ModuleSpec.without, same.keyed, number]
    cases p.keyed.get? key with
    | some f => exact ⟨rfl, same⟩
    | none => exact ⟨rfl, same.appendFactory ⟨id, some key, script⟩ rfl⟩

/-- So do the factories of several modules. -/
theorem addModules (ms : List (ModuleSpec Command)) :
    (q.addModules (ModuleSpec.withoutAll w ms)).1 = (p.addModules ms).1 ∧
      (p.addModules ms).2.Alike w (q.addModules (ModuleSpec.withoutAll w ms)).2 := by
  induction ms generalizing p q with
  | nil => exact ⟨rfl, same⟩
  | cons m ms ih =>
    obtain ⟨first, made⟩ := same.addFactory m
    obtain ⟨rest, made⟩ := ih made
    have id : (m.without w).id = m.id := by
      cases m
      rfl
    simp only [Page.addModules, ModuleSpec.withoutAll, first, rest, id]
    exact ⟨trivial, made⟩

/-- A delivery that comes without hints is known by the same factories. -/
theorem addDelivery (d : DeliverySpec Command) :
    (q.addDelivery (d.without w)).1 = (p.addDelivery d).1.without w ∧
      (p.addDelivery d).2.Alike w (q.addDelivery (d.without w)).2 := by
  obtain ⟨chunks, modules, entries, prefetch⟩ := d
  obtain ⟨factories, made⟩ := same.addModules modules
  refine ⟨?_, made⟩
  show (⟨chunks, (q.addModules (ModuleSpec.withoutAll w modules)).1, entries, _⟩ : Delivery) =
    ⟨chunks, (p.addModules modules).1, entries, _⟩
  rw [factories]
  rfl

theorem appendExtension (x : Extension) : Alike w { p with extensions := p.extensions ++ [x] }
    { q with extensions := q.extensions ++ [x.without w] } where
  silent := same.silent
  count := same.count
  runtime := same.runtime
  log := same.log
  agenda := same.agenda
  frame := by
    have extensions : q.extensions ++ [x.without w] =
        (p.extensions ++ [x]).map (Extension.without w) := by
      rw [same.extensions, List.map_append]
      rfl
    rw [extensions, same.frame]
    rfl

theorem length_extensions : q.extensions.length = p.extensions.length := by
  rw [same.extensions, List.length_map]

/-- An extension is made on both pages, or its name is taken on both. -/
theorem addExtension (spec : ExtensionSpec Command) :
    Agree (fun a b => b.1 = a.1 ∧ a.2.Alike w b.2) (p.addExtension spec)
      (q.addExtension (spec.without w)) := by
  cases spec with
  | tap name describes script =>
    exact ⟨same.length_extensions, same.appendExtension (.tap name describes script)⟩
  | bootstrap name =>
    simp only [Page.addExtension, ExtensionSpec.without, same.bootstraps]
    cases p.bootstraps.get? name with
    | some x => exact ⟨rfl, same⟩
    | none => rfl

theorem addBootstrap (b : Bootstrap) : (q.addBootstrap b).1 = (p.addBootstrap b).1 ∧
    (p.addBootstrap b).2.Alike w (q.addBootstrap b).2 :=
  ⟨same.length_extensions, same.appendExtension (.bootstrap b)⟩

/-- A new runtime has an extension of its own, or else the bootstrap of its plan, if there is one. -/
theorem newExtension (b : Blueprint) (spec : Option (ExtensionSpec Command)) :
    Agree (fun a b => b.1 = a.1 ∧ a.2.Alike w b.2) (p.newExtension b spec)
      (q.newExtension (b.without w) (ExtensionSpec.without? w spec)) := by
  cases spec with
  | some spec =>
    refine (same.addExtension spec).map ?_
    rintro ⟨x, p'⟩ ⟨x', q'⟩ ⟨rfl, added⟩
    exact ⟨rfl, added⟩
  | none =>
    simp only [Page.newExtension, ExtensionSpec.without?, Blueprint.without]
    cases b.bootstrap with
    | none => exact ⟨rfl, same⟩
    | some boot =>
      obtain ⟨number, added⟩ := same.addBootstrap { boot with previous := none }
      exact ⟨congrArg some number, added⟩

/-- Alike runtimes that are built last keep pages alike. -/
theorem appendRuntime (rt : Runtime) (name : String) :
    Alike w { p with runtimes := p.runtimes ++ [rt], names := p.names.set name p.runtimes.length }
      { q with
        runtimes := q.runtimes ++ [rt.without w]
        names := q.names.set name q.runtimes.length } where
  silent := same.silent
  count := by simp [same.count]
  runtime r := by
    have newest := runtime_append
      (q := { p with runtimes := p.runtimes ++ [rt], names := p.names.set name p.runtimes.length }) rfl r
    have newest' := runtime_append
      (q := { q with
        runtimes := q.runtimes ++ [rt.without w]
        names := q.names.set name q.runtimes.length }) rfl r
    rw [newest, newest', same.count]
    split
    · exact rt.alike_without w
    · exact same.runtime r
  log := same.log
  agenda := same.agenda
  frame := by
    rw [same.names, same.count, same.frame]
    rfl

/-- A runtime is built on both pages, or fails to be in the same way. -/
theorem addRuntime (name : String) (plan : Except Failure Blueprint)
    (spec : Option (ExtensionSpec Command)) :
    Agree (Alike w) (p.addRuntime name plan spec)
      (q.addRuntime name (plan.map (Blueprint.without w)) (ExtensionSpec.without? w spec)) := by
  cases plan with
  | error e => rfl
  | ok b =>
    -- Whether a runtime can be built depends on its handlers, and none of them is erased.
    refine (same.newExtension b spec).bind ?_
    rintro ⟨x, p'⟩ ⟨x', q'⟩ ⟨rfl, added⟩
    show Agree (Alike w) ((b.build x').mapError Failure.load >>= _)
      (((b.without w).build x').mapError Failure.load >>= _)
    rw [b.build_without w x']
    cases b.build x' with
    | error e => rfl
    | ok rt => exact added.appendRuntime rt name

/-! ## Performing commands -/

/-- Answers are not compared. -/
theorem answerWith (nested : Bool) (a a' : Answer) :
    (p.answerWith nested a).Alike w (q.answerWith nested a') :=
  same.call (.conclude a a' nested none .nil)

theorem concluding (nested : Bool) (a a' : Answer) (r : RuntimeId) :
    (p.call [.conclude a nested (some r)]).Alike w (q.call [.conclude a' nested (some r)]) :=
  same.call (.conclude a a' nested (some r) .nil)

/-- A page that was made answers, and otherwise the one before tells why there is none. -/
theorem answerMade (nested : Bool) {x y : Except Failure Page} : Agree (Alike w) x y →
    Alike w
      (match x with
        | .ok p => p.answerWith nested .done
        | .error e => p.answerWith nested (.failed e))
      (match y with
        | .ok q => q.answerWith nested .done
        | .error e => q.answerWith nested (.failed e)) := by
  intro made
  rcases made.cases with ⟨p', q', rfl, rfl, alike⟩ | ⟨e, rfl, rfl⟩
  · exact Alike.answerWith alike nested _ _
  · exact same.answerWith nested _ _

/-- A command on a named runtime keeps pages alike if what it does there does. -/
theorem withRuntime (nested : Bool) (name : String) {f g : RuntimeId → Page}
    (acts : ∀ r, (f r).Alike w (g r)) :
    (p.withRuntime nested name f).Alike w (q.withRuntime nested name g) := by
  unfold Page.withRuntime
  rw [same.names]
  split
  · exact acts _
  · exact same.answerWith nested _ _

/-- So does a command on a named bootstrap. -/
theorem withBootstrap (nested : Bool) (name : String) {f g : ExtensionId → Bootstrap → Page}
    (acts : ∀ x b, (f x b).Alike w (g x b)) :
    (p.withBootstrap nested name f).Alike w (q.withBootstrap nested name g) := by
  unfold Page.withBootstrap
  rw [same.bootstrap?]
  split
  · exact acts _ _
  · exact same.answerWith nested _ _

theorem nameBootstrap (hot : String) (b : Bootstrap) : Alike w
    { (p.addBootstrap b).2 with bootstraps := p.bootstraps.set hot (p.addBootstrap b).1 }
    { (q.addBootstrap b).2 with bootstraps := q.bootstraps.set hot (q.addBootstrap b).1 } := by
  obtain ⟨number, added⟩ := same.addBootstrap b
  refine ⟨same.silent, same.count, same.runtime, same.log, same.agenda, ?_⟩
  rw [number, added.frame, same.bootstraps]
  rfl

theorem setQueue (name : String) (x : Queue) : Alike w { p with queues := p.queues.set name x }
    { q with queues := q.queues.set name (x.without w) } where
  silent := same.silent
  count := same.count
  runtime := same.runtime
  log := same.log
  agenda := same.agenda
  frame := by
    rw [same.queues, ← Assoc.set_mapValues, same.frame]
    rfl

/-- A new consumer is called for the deliveries of its queue, without their hints. -/
theorem install (r : RuntimeId) (queue : String) : (p.install r queue).Alike w (q.install r queue) := by
  have merges := Agenda.Alike.keeps (w := w) ((p.queue queue).delivered.map (.merge r ·))
    (by simp [Task.isErased])
  have installed := (same.setQueue queue
    { p.queue queue with consumers := (p.queue queue).consumers ++ [r] }).call merges
  unfold Page.install
  rw [same.queue]
  show (if (p.queue queue).consumers.contains r then p else _).Alike w
    (if (p.queue queue).consumers.contains r then q else _)
  split
  · exact same
  · simpa [Queue.without, Task.without, Function.comp_def] using installed

/-- A push calls for a merge by each consumer of the queue. -/
theorem push (queue : String) (d : Delivery) :
    (p.push queue d).Alike w (q.push queue (d.without w)) := by
  have merges := Agenda.Alike.keeps (w := w) ((p.queue queue).consumers.reverse.map (.merge · d))
    (by simp [Task.isErased])
  have pushed := (same.setQueue queue
    { p.queue queue with delivered := (p.queue queue).delivered ++ [d] }).call merges
  unfold Page.push
  rw [same.queue]
  simpa [Queue.without, Task.without, Function.comp_def] using pushed

/-- A startup adds entries to the same worklist, or has the same ones run. -/
theorem startup (r : RuntimeId) (es : List DeferredEntry) :
    (p.startup r es).Alike w (q.startup r es) := by
  unfold Page.startup
  rw [(same.runtime r).worklist]
  split
  · exact same.defer r es
  · exact same.call (.entries r es)

/-- An update ends with the same entries. -/
theorem finishUpdate (nested : Bool) (x : ExtensionId) (b : Bootstrap) (next : String)
    (runOn : Option String) :
    (p.finishUpdate nested x b next runOn).Alike w (q.finishUpdate nested x b next runOn) := by
  unfold Page.finishUpdate
  split
  · exact same.answerWith nested _ _
  · rename_i u b' _
    have ended := same.setBootstrap x b'
    dsimp only
    rw [ended.names]
    split
    · exact ended.answerWith nested _ _
    · rename_i r _
      have tasks := Agenda.Alike.keeps (w := w) ((updateFactories u).map (.execute r ·))
        (by simp [Task.isErased])
      have kept : ((updateFactories u).map (Task.execute r ·)).map (Task.without w) =
          (updateFactories u).map (.execute r ·) := by simp [Task.without]
      rw [kept] at tasks
      exact ended.call (tasks.append (.conclude (.update u) _ nested (some r) .nil))

/-- The load of a handler of the host is settled for both pages. -/
theorem settleManual (nested : Bool) (key : String × ChunkId) (result : LoadResult) :
    (p.settleManual nested key result).Alike w (q.settleManual nested key result) := by
  unfold Page.settleManual
  rw [same.manual]
  split
  · have settled := same.setManual key (some result)
    rw [same.manual] at settled
    exact settled.answerWith nested _ _
  · exact same.answerWith nested _ _

/-- Setting an extension, made without the hints of its script. -/
theorem performSetExtension (nested : Bool) (name : String) (extension : Option (ExtensionSpec Command)) :
    (p.perform nested (.setExtension name extension)).Alike w
      (q.perform nested (.setExtension name (ExtensionSpec.without? w extension))) := by
  cases extension with
  | none =>
    refine same.withRuntime nested name fun r => ?_
    refine (same.modifyRuntime ?_).answerWith nested _ _
    exact (same.runtime r).modify (f := fun rt => { rt with extension := none })
      (fun _ _ => rfl) fun _ => rfl
  | some spec =>
    refine same.withRuntime nested name fun r => ?_
    rcases (same.addExtension spec).cases with ⟨a, b, first, second, number, added⟩ | ⟨e, first, second⟩
    · rw [first, second]
      obtain ⟨x, p'⟩ := a
      obtain ⟨x', q'⟩ := b
      obtain rfl : x' = x := number
      refine (Alike.modifyRuntime added ?_).answerWith nested _ _
      exact (added.runtime r).modify (f := fun rt => { rt with extension := some x' })
        (fun _ _ => rfl) fun _ => rfl
    · rw [first, second]
      exact same.answerWith nested _ _

/-- Making a bootstrap, and the extension that it passes deliveries on to. -/
theorem performCreateBootstrap (nested : Bool) (hot : String) (plan : Except Failure Bootstrap)
    (previous : Option (ExtensionSpec Command)) :
    (p.perform nested (.createBootstrap hot plan previous)).Alike w
      (q.perform nested (.createBootstrap hot plan (ExtensionSpec.without? w previous))) := by
  refine same.answerMade nested (Agree.bind (R := Eq) ?_ fun b b' equal => ?_)
  · cases plan <;> rfl
  · subst equal
    cases previous with
    | none => exact same.nameBootstrap hot { b with previous := none }
    | some spec =>
      refine Agree.bind ((same.addExtension spec).map
        (S := fun (a b : Option ExtensionId × Page) => b.1 = a.1 ∧ a.2.Alike w b.2) ?_) ?_
      · rintro ⟨x, p'⟩ ⟨x', q'⟩ ⟨rfl, added⟩
        exact ⟨rfl, added⟩
      · rintro ⟨x, p'⟩ ⟨x', q'⟩ ⟨rfl, added⟩
        exact Alike.nameBootstrap added hot { b with previous := x' }

/-- **Every command that both pages get keeps them alike.** -/
theorem perform (command : Command) (kept : (w.calls && command.isHint) = false) (nested : Bool) :
    (p.perform nested command).Alike w (q.perform nested (command.without w)) := by
  -- Each command keeps pages alike by what it does, whatever it answers.
  cases command with
  | create name plan extension => exact same.answerMade nested (same.addRuntime name plan extension)
  | drop name =>
    refine Alike.answerWith ?_ nested _ _
    refine ⟨same.silent, same.count, same.runtime, same.log, same.agenda, ?_⟩
    rw [same.names, same.frame]
    rfl
  | install name queue =>
    exact same.withRuntime nested name fun r => (same.concluding nested _ _ r).install r queue
  | push queue d =>
    obtain ⟨made, added⟩ := same.addDelivery d
    show ((p.addDelivery d).2.answerWith nested .done |>.push queue (p.addDelivery d).1).Alike w
      ((q.addDelivery (d.without w)).2.answerWith nested .done |>.push queue (q.addDelivery (d.without w)).1)
    rw [made]
    exact (added.answerWith nested _ _).push queue _
  | ensure name c label => exact same.withRuntime nested name fun r => same.ask r c _
  | load name cs module label =>
    refine same.withRuntime nested name fun r => ?_
    obtain ⟨future, added⟩ := same.addFuture label (.unstarted r cs module)
    exact added.answerWith nested _ _
  | poll => exact (same.answerWith nested _ _).call (.single rfl)
  | hint name c kind =>
    have calls : w.calls = false := by simpa [Command.isHint] using kept
    have some : w.everything = false := by simp [Erasure.everything, calls]
    refine same.withRuntime nested name fun r => ?_
    exact (same.concluding nested _ _ r).call (.single (t := .hint r c kind) some)
  | complete ref event =>
    simp only [Page.perform, Command.without, same.request?]
    split
    · exact same.answerWith nested _ _
    · exact (same.complete _ event).answerWith nested _ _
  | settle handler c result => exact same.settleManual nested (handler, c) result
  | execute name module =>
    refine same.withRuntime nested name fun r => ?_
    rw [(same.store r).factory?]
    split
    · rename_i f _
      exact (same.concluding nested _ _ r).call (.single (t := .execute r f) rfl)
    · exact same.answerWith nested _ _
  | startup name entries =>
    refine same.withRuntime nested name fun r => ?_
    split
    · exact (same.concluding nested _ _ r).startup r _
    · exact same.answerWith nested _ _
  | runSatisfied name =>
    exact same.withRuntime nested name fun r => (same.concluding nested _ _ r).runReady r
  | states name cs => exact same.withRuntime nested name fun r => same.answerWith nested _ _
  | hasModule name m => exact same.withRuntime nested name fun r => same.answerWith nested _ _
  | address name c => exact same.withRuntime nested name fun r => same.answerWith nested _ _
  | describe name => exact same.withRuntime nested name fun r => same.answerWith nested _ _
  | setExtension name extension => exact same.performSetExtension nested name extension
  | setSink name sink =>
    refine same.withRuntime nested name fun r => ?_
    refine (same.modifyRuntime ?_).answerWith nested _ _
    exact (same.runtime r).modify (f := fun rt => { rt with sink := some sink })
      (fun _ _ => rfl) fun _ => rfl
  | report name result =>
    refine same.withRuntime nested name fun r => ?_
    cases result with
    | ok => exact same.answerWith nested _ _
    | failed e => exact (same.report r e).answerWith nested _ _
  | createBootstrap hot plan previous => exact same.performCreateBootstrap nested hot plan previous
  | observe hot d =>
    obtain ⟨made, added⟩ := same.addDelivery d
    simp only [Page.perform, Command.without, made]
    refine added.withBootstrap nested hot fun x _ => ?_
    exact (added.answerWith nested _ _).call (.single (t := .observe x _) rfl)
  | manifestAddress hot => exact same.withBootstrap nested hot fun x b => same.answerWith nested _ _
  | updateAddress hot c => exact same.withBootstrap nested hot fun x b => same.answerWith nested _ _
  | applyManifest hot manifest =>
    refine same.withBootstrap nested hot fun x b => ?_
    split
    · exact (same.setBootstrap x _).answerWith nested _ _
    · exact same.answerWith nested _ _
    · exact same.answerWith nested _ _
  | receive hot c specs =>
    obtain ⟨made, added⟩ := same.addModules specs
    simp only [Page.perform, Command.without, made]
    exact added.withBootstrap nested hot fun x b =>
      (added.setBootstrap x _).answerWith nested _ _
  | finish hot next runOn =>
    exact same.withBootstrap nested hot fun x b => same.finishUpdate nested x b next runOn

end

end Page.Alike

end ChunkLoading
