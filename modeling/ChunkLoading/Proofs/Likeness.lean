import ChunkLoading.Proofs.Core
import ChunkLoading.Proofs.Hintless

/-!
# Pages without hints

Two pages are alike if the second one is the first one without hints (`Page.Alike`): it lacks the hints
that are erased, and only hints tell the stores of the runtimes apart. What an operation of a page looks
at is the same on both, and what it is made of keeps them alike.
-/

namespace ChunkLoading

variable {w : Erasure}

/-! ## Data of a page -/

section

variable (w : Erasure)

def Factory.without (f : Factory) : Factory := { f with script := Script.without w f.script }

def Extension.without : Extension → Extension
  | .tap name describes script => .tap name describes (Script.without w script)
  | .bootstrap b => .bootstrap b

namespace Task

/-- A task without the hints that its command, its delivery or its handlers bring. -/
def without : Task → Task
  | .perform command nested => .perform (command.without w) nested
  | .gather r c handlers got caller => .gather r c (handlers.map (Handler.without w)) got caller
  | .merge r d => .merge r (d.without w)
  | .observe x d => .observe x (d.without w)
  | .resolve r d waiting clashes => .resolve r (d.without w) waiting clashes
  | t => t

/-- Whether a task gives or performs a hint that is erased. -/
def isErased : Task → Bool
  | .perform command _ => w.calls && command.isHint
  | .hint .. => w.everything
  | _ => false

end Task

def Page.without (p : Page) : Page :=
  { p with
    queues := p.queues.mapValues (Queue.without w)
    factories := p.factories.map (Factory.without w)
    extensions := p.extensions.map (Extension.without w)
    onInject := p.onInject.map fun rule => (rule.1, Script.without w rule.2) }

end

/-- A task uses the same runtimes without its hints. -/
@[simp] theorem Task.uses_without (t : Task) (r : RuntimeId) : (t.without w).uses r = t.uses r := by
  cases t <;> rfl

/-- Hints are taken out of a script command by command. -/
theorem Script.without_append (s s' : Script) :
    Script.without w (s ++ s') = Script.without w s ++ Script.without w s' := by
  induction s with
  | nil => rfl
  | cons c s ih =>
    simp only [List.cons_append, Script.without]
    split
    · exact ih
    · rw [ih, List.cons_append]

/-- What a host does about a chunk, without hints. -/
theorem Page.hostScript_without (rules : List (ChunkId × Script)) (c : ChunkId) :
    hostScript (rules.map fun rule => (rule.1, Script.without w rule.2)) c =
      Script.without w (hostScript rules c) := by
  unfold hostScript
  induction rules with
  | nil => rfl
  | cons rule rules ih =>
    simp only [List.map_cons, List.filter_cons]
    split
    · rw [List.flatMap_cons, List.flatMap_cons, Script.without_append, ih]
    · exact ih

/-! ## Agendas -/

/-- An agenda is another one without hints. A hint that only the first one has is followed by a task of
its runtime, so that it does not keep the runtime alive. -/
inductive Agenda.Alike (w : Erasure) : List Task → List Task → Prop where
  | nil : Agenda.Alike w [] []
  | keep {ts us : List Task} (t : Task) (kept : t.isErased w = false) (rest : Agenda.Alike w ts us) :
    Agenda.Alike w (t :: ts) (t.without w :: us)
  /-- What is answered may depend on hints. -/
  | conclude {ts us : List Task} (a a' : Answer) (nested : Bool) (inUse : Option RuntimeId)
      (rest : Agenda.Alike w ts us) :
    Agenda.Alike w (.conclude a nested inUse :: ts) (.conclude a' nested inUse :: us)
  | hint {ts us : List Task} (r : RuntimeId) (c : ChunkId) (kind : HintKind)
      (used : us.any (Task.uses r)) (rest : Agenda.Alike w ts us) :
    Agenda.Alike w (.hint r c kind :: ts) us
  | call {ts us : List Task} (command : Command) (nested : Bool)
      (erased : w.calls && command.isHint) (rest : Agenda.Alike w ts us) :
    Agenda.Alike w (.perform command nested :: ts) us
  /-- The answer to a hint that had no runtime. -/
  | answered {ts us : List Task} (name : String) (nested : Bool) (rest : Agenda.Alike w ts us) :
    Agenda.Alike w (.conclude (.failed (.noRuntime name)) nested none :: ts) us

namespace Agenda.Alike

variable {ts us ts' us' : List Task} {r : RuntimeId}

/-- Alike agendas may be joined. -/
theorem append (alike : Agenda.Alike w ts us) (alike' : Agenda.Alike w ts' us') :
    Agenda.Alike w (ts ++ ts') (us ++ us') := by
  induction alike with
  | nil => exact alike'
  | keep t kept rest ih => exact .keep t kept ih
  | conclude a a' nested inUse rest ih => exact .conclude a a' nested inUse ih
  | hint r c kind used rest ih =>
    refine .hint r c kind ?_ ih
    rw [List.any_append, used, Bool.true_or]
  | call command nested erased rest ih => exact .call command nested erased ih
  | answered name nested rest ih => exact .answered name nested ih

/-- Hints keep no runtime alive. -/
theorem uses (alike : Agenda.Alike w ts us) (r : RuntimeId) :
    us.any (Task.uses r) = ts.any (Task.uses r) := by
  induction alike with
  | nil => rfl
  | keep t kept rest ih => simp [ih]
  | conclude a a' nested inUse rest ih => simp [ih, Task.uses]
  | hint r' c kind used rest ih =>
    -- The task that follows uses the runtime of the hint.
    rw [List.any_cons, ← ih]
    by_cases same : r' = r
    · subst same
      simp [used]
    · simp [Task.uses, same]
  | call command nested erased rest ih => rw [List.any_cons, ← ih]; rfl
  | answered name nested rest ih => rw [List.any_cons, ← ih]; simp [Task.uses]

/-- Tasks that are no erased hints stay, each without the hints that it brings. -/
theorem keeps (ts : List Task) (kept : ∀ t ∈ ts, t.isErased w = false) :
    Agenda.Alike w ts (ts.map (Task.without w)) := by
  induction ts with
  | nil => exact .nil
  | cons t ts ih =>
    exact .keep t (kept t List.mem_cons_self) (ih fun t' member => kept t' (List.mem_cons_of_mem _ member))

/-- A single task that stays. -/
theorem single {t : Task} (kept : t.isErased w = false) : Agenda.Alike w [t] [t.without w] :=
  .keep t kept .nil

/-- The same extensions are shown a delivery. -/
theorem observers (x? : Option ExtensionId) (d : Delivery) : Agenda.Alike w
    (x?.toList.map (.observe · d)) (x?.toList.map (.observe · (d.without w))) := by
  cases x? with
  | none => exact .nil
  | some x => exact .single (t := .observe x d) rfl

/-- Entries have no hints. -/
theorem entries (r : RuntimeId) (es : List DeferredEntry) :
    Agenda.Alike w (es.map (.enter r ·)) (es.map (.enter r ·)) := by
  induction es with
  | nil => exact .nil
  | cons e es ih => exact .keep (.enter r e) rfl ih

/-- Hints are kept or left out; a task of their runtime follows. -/
theorem hints (alike : Agenda.Alike w ts us) (used : us.any (Task.uses r)) (kind : HintKind)
    {cs cs' : List ChunkId} (kept : cs' = cs ∧ w.everything = false ∨ cs' = []) :
    Agenda.Alike w (cs.map (.hint r · kind) ++ ts) (cs'.map (.hint r · kind) ++ us) := by
  rcases kept with ⟨rfl, kept⟩ | rfl
  · have same : (cs'.map (Task.hint r · kind)).map (Task.without w) = cs'.map (Task.hint r · kind) := by
      simp [Task.without]
    have hinted := keeps (w := w) (cs'.map (Task.hint r · kind)) (by simp [Task.isErased, kept])
    rw [same] at hinted
    exact hinted.append alike
  · induction cs with
    | nil => exact alike
    | cons c cs ih => exact .hint r c kind used ih

/-- A script is called without its hints. -/
theorem script (s : Script) :
    Agenda.Alike w (s.map (.perform · true)) ((Script.without w s).map (.perform · true)) := by
  induction s with
  | nil => exact .nil
  | cons c s ih =>
    rw [List.map_cons, Script.without]
    split
    · rename_i erased
      exact .call c true erased ih
    · rename_i kept
      exact .keep (.perform c true) (Bool.eq_false_iff.mpr kept) ih

end Agenda.Alike

/-! ## Runtimes -/

namespace Runtime.Alike

variable {rt rt' : Runtime}

/-- Options are the same, since hints are made with them as well. -/
theorem options (alike : rt.Alike w rt') : rt'.options = rt.options := by rw [alike.frame]; rfl

/-- Handlers are the same, a preload handler without the children that are erased. -/
theorem handlers (alike : rt.Alike w rt') : rt'.handlers = rt.handlers.map (Handler.without w) := by
  rw [alike.frame]; rfl

theorem onDemand (alike : rt.Alike w rt') : rt'.onDemand = rt.onDemand := by rw [alike.frame]; rfl

/-- Prefetching is off where the support for it is erased. -/
theorem prefetch (alike : rt.Alike w rt') : rt'.prefetch = (rt.prefetch && !w.support) := by
  rw [alike.frame]; rfl

/-- The entries that wait are the same. -/
theorem worklist (alike : rt.Alike w rt') : rt'.worklist = rt.worklist := by rw [alike.frame]; rfl

theorem extension (alike : rt.Alike w rt') : rt'.extension = rt.extension := by rw [alike.frame]; rfl

theorem sink (alike : rt.Alike w rt') : rt'.sink = rt.sink := by rw [alike.frame]; rfl

/-- The attempts that have ended, and how, are the same. -/
theorem outcomes (alike : rt.Alike w rt') : rt'.outcomes = rt.outcomes := by rw [alike.frame]; rfl

/-- A change beside handlers, prefetch support and store keeps runtimes alike. -/
theorem modify (alike : rt.Alike w rt') {f : Runtime → Runtime}
    (beside : ∀ rt s, f { rt.without w with store := s } =
      { (f rt).without w with store := s })
    (store : ∀ rt, (f rt).store = rt.store) : (f rt).Alike w (f rt') where
  store := by
    rw [store, store]
    exact alike.store
  frame := by
    rw [store]
    exact (congrArg f alike.frame).trans (beside rt rt'.store)

/-- Alike runtimes with the same worklist are alike. -/
theorem setWorklist (alike : rt.Alike w rt') (entries : Option Worklist) :
    Runtime.Alike w { rt with worklist := entries } { rt' with worklist := entries } :=
  alike.modify (f := fun rt => { rt with worklist := entries }) (fun _ _ => rfl) fun _ => rfl

/-- Alike runtimes with alike stores are alike. -/
theorem setStore (alike : rt.Alike w rt') {s s' : Store} (stores : s.Alike s') :
    Runtime.Alike w { rt with store := s } { rt' with store := s' } where
  store := stores
  frame := congrArg (fun rt => { rt with store := s' }) alike.frame

end Runtime.Alike

namespace Page

/-- Tasks that are called for last are done first. -/
theorem call_call (p : Page) (ts us : List Task) : (p.call ts).call us = p.call (us ++ ts) := by
  simp [call]

/-- The second page is the first one without hints. -/
structure Alike (w : Erasure) (p q : Page) : Prop where
  /-- The host does nothing when it gets a hint. -/
  silent : ∀ c, hostScript p.onHint c = []
  count : q.runtimes.length = p.runtimes.length
  runtime : ∀ r, (p.runtime r).Alike w (q.runtime r)
  log : Log.Alike w p.log q.log
  agenda : Agenda.Alike w p.agenda q.agenda
  frame : q = { p.without w with
    runtimes := q.runtimes, log := q.log, answer := q.answer, agenda := q.agenda }

namespace Alike

variable {p q : Page} {r : RuntimeId}

/-! ## Looking -/

section

variable (same : p.Alike w q)

include same

theorem names : q.names = p.names := by rw [same.frame]; rfl

/-- Deliveries are in the same queues, without their hints. -/
theorem queues : q.queues = p.queues.mapValues (Queue.without w) := by rw [same.frame]; rfl

/-- Factories have the same numbers, and scripts without hints. -/
theorem factories : q.factories = p.factories.map (Factory.without w) := by rw [same.frame]; rfl

theorem keyed : q.keyed = p.keyed := by rw [same.frame]; rfl

theorem extensions : q.extensions = p.extensions.map (Extension.without w) := by rw [same.frame]; rfl

theorem bootstraps : q.bootstraps = p.bootstraps := by rw [same.frame]; rfl

/-- Imports are the same. -/
theorem futures : q.futures = p.futures := by rw [same.frame]; rfl

theorem manual : q.manual = p.manual := by rw [same.frame]; rfl

/-- The resource requests are the same, in the same order. -/
theorem requests : q.requests = p.requests := by rw [same.frame]; rfl

/-- Hosts do the same, without hints. -/
theorem onInject : q.onInject = p.onInject.map fun rule => (rule.1, Script.without w rule.2) := by
  rw [same.frame]; rfl

theorem onHint : q.onHint = p.onHint := by rw [same.frame]; rfl

/-- Stores of the same runtime are told apart by hints only. -/
theorem store (r : RuntimeId) : (p.store r).Alike (q.store r) := (same.runtime r).store

/-- Runtimes have the same names. -/
theorem nameOf? (r : RuntimeId) : q.nameOf? r = p.nameOf? r := by
  unfold Page.nameOf?
  rw [same.names]

/-- The queue of a name, without hints. -/
theorem queue (name : String) : q.queue name = (p.queue name).without w := by
  unfold Page.queue
  rw [same.queues, Assoc.get?_mapValues]
  cases p.queues.get? name <;> rfl

/-- Bootstraps are found by the same names. -/
theorem bootstrap? (name : String) : q.bootstrap? name = p.bootstrap? name := by
  unfold Page.bootstrap?
  rw [same.bootstraps]
  cases p.bootstraps.get? name with
  | none => rfl
  | some x =>
    simp only [same.extensions, List.getElem?_map, bind, Option.bind]
    cases p.extensions[x]? with
    | none => rfl
    | some extension => cases extension <;> rfl

/-- The same runtimes are referred to, since a hint that is erased is followed by a task of its runtime. -/
theorem alive (r : RuntimeId) : q.alive r = p.alive r := by
  have consumers : q.queues.entries.any (·.2.consumers.contains r) =
      p.queues.entries.any (·.2.consumers.contains r) := by
    rw [same.queues]
    simp only [Assoc.mapValues, List.any_map]
    rfl
  unfold Page.alive
  rw [same.names, consumers, same.futures, same.agenda.uses]

/-- Loads have ended in the same way. -/
theorem outcome (a : Awaited) : q.outcome a = p.outcome a := by
  cases a with
  | ready result => rfl
  | attempt r c n =>
    simp only [Page.outcome, (same.runtime r).outcomes, same.alive]
  | manual handler c => simp only [Page.outcome, same.manual]

/-- So have joins of loads. -/
theorem joined (parts : List Awaited) : q.joined parts = p.joined parts := by
  unfold Page.joined
  rw [funext same.outcome]

/-- The same entries can run. -/
theorem readyEntries (r : RuntimeId) : q.readyEntries r = p.readyEntries r := by
  unfold Page.readyEntries
  rw [(same.runtime r).worklist, (same.store r).isLoaded]

/-- A request for a chunk is made in the same way. -/
theorem request (r : RuntimeId) (c : ChunkId) (n : Attempt) : q.request r c n = p.request r c n := by
  unfold Page.request
  rw [(same.runtime r).options]

/-- A request is found by the same reference. -/
theorem request? (ref : RequestRef) : q.request? ref = p.request? ref := by
  cases ref <;> simp only [Page.request?, same.requests]

end

/-! ## Changing -/

section

variable (same : p.Alike w q)

include same

/-- Calling for alike tasks keeps pages alike. -/
theorem call {ts us : List Task} (alike : Agenda.Alike w ts us) :
    (p.call ts).Alike w (q.call us) where
  silent := same.silent
  count := same.count
  runtime := same.runtime
  log := same.log
  agenda := alike.append same.agenda
  frame := by
    rw [same.frame]
    rfl

/-- Calling a script, on the second page without its hints, keeps pages alike. -/
theorem callScript (s : Script) : (p.callScript s).Alike w (q.callScript (Script.without w s)) :=
  same.call (.script s)

/-- Noting alike events keeps pages alike. -/
theorem note (es es' : List Event) (noted : Log.Alike w es es') :
    (p.note es).Alike w (q.note es') where
  silent := same.silent
  count := same.count
  runtime := same.runtime
  log := noted.append same.log
  agenda := same.agenda
  frame := by
    rw [same.frame]
    rfl

/-- So does a change that makes alike runtimes of alike ones. -/
theorem modifyRuntime {f f' : Runtime → Runtime}
    (changed : (f (p.runtime r)).Alike w (f' (q.runtime r))) :
    (p.modifyRuntime r f).Alike w (q.modifyRuntime r f') where
  silent := same.silent
  count := by
    rw [length_modifyRuntime, length_modifyRuntime, same.count]
  runtime r' := by
    rw [runtime_modifyRuntime, runtime_modifyRuntime, same.count]
    split
    · exact changed
    · exact same.runtime r'
  log := same.log
  agenda := same.agenda
  frame := by
    rw [same.frame]
    rfl

/-- So does setting alike stores. -/
theorem setStore (r : RuntimeId) {s s' : Store} (stores : s.Alike s') :
    (p.setStore r s).Alike w (q.setStore r s') :=
  same.modifyRuntime ((same.runtime r).setStore stores)

/-- So does the same change of a future. -/
theorem modifyFuture (f : FutureId) (g : Future → Future) :
    (p.modifyFuture f g).Alike w (q.modifyFuture f g) where
  silent := same.silent
  count := same.count
  runtime := same.runtime
  log := same.log
  agenda := same.agenda
  frame := by
    rw [same.frame]
    rfl

theorem setManual (key : String × ChunkId) (result : Option LoadResult) :
    Alike w { p with manual := p.manual.set key result } { q with manual := q.manual.set key result } where
  silent := same.silent
  count := same.count
  runtime := same.runtime
  log := same.log
  agenda := same.agenda
  frame := by
    rw [same.frame]
    rfl

/-- So does the same change of a bootstrap. -/
theorem setBootstrap (x : ExtensionId) (b : Bootstrap) :
    (p.setBootstrap x b).Alike w (q.setBootstrap x b) where
  silent := same.silent
  count := same.count
  runtime := same.runtime
  log := same.log
  agenda := same.agenda
  frame := by
    have extensions : (p.extensions.set x (.bootstrap b)).map (Extension.without w) =
        (p.extensions.map (Extension.without w)).set x (.bootstrap b) := List.map_set
    unfold Page.setBootstrap Page.without
    rw [extensions, same.frame]
    rfl

theorem report (r : RuntimeId) (e : LoadError) : (p.report r e).Alike w (q.report r e) := by
  refine same.note _ _ ⟨?_, fun _ => rfl⟩
  rw [(same.runtime r).sink]

/-- An attempt ends in the same way on both pages. -/
theorem settleAttempt (r : RuntimeId) (c : ChunkId) (n : Attempt) (result : LoadResult) :
    (p.settleAttempt r c n result).Alike w (q.settleAttempt r c n result) := by
  refine (same.modifyRuntime ?_).note _ _ ⟨rfl, fun _ => rfl⟩
  exact (same.runtime r).modify (f := fun rt => { rt with outcomes := rt.outcomes.set n result })
    (fun _ _ => rfl) fun _ => rfl

/-- So does a future. -/
theorem settleFuture (f : FutureId) (result : LoadResult) :
    (p.settleFuture f result).Alike w (q.settleFuture f result) := by
  unfold Page.settleFuture
  rw [same.futures]
  split
  · exact same
  · exact (same.modifyFuture f _).note _ _ ⟨rfl, fun _ => rfl⟩

/-- A new future has the same number on both pages. -/
theorem addFuture (label : Option String) (progress : Progress) :
    (q.addFuture label progress).1 = (p.addFuture label progress).1 ∧
      (p.addFuture label progress).2.Alike w (q.addFuture label progress).2 := by
  unfold Page.addFuture
  rw [same.futures]
  exact ⟨rfl, same.silent, same.count, same.runtime, same.log, same.agenda, by rw [same.frame]; rfl⟩

end

end Alike

end Page

end ChunkLoading
