import ChunkLoading.Proofs.Core
import Mathlib.Data.List.Basic
import Mathlib.Data.List.GetD
import Mathlib.Tactic.Simps.Basic

/-!
# Without extensions

Taken away are the extensions that commands make, name and set, also those of the scripts that commands bring
(`Command.unwatched`). A page is made plain by blanking its answers, and a bare one has no extensions either
(`Page.plain`): extensions are only told of by answers, and by what they report themselves.
-/

namespace ChunkLoading

/-! ## Commands -/

def Blueprint.unwatched (b : Blueprint) : Blueprint := { b with bootstrap := none }

mutual

/-- A command without the extensions that it, and the scripts that it brings, make, name and set. -/
def Command.unwatched : Command → Command
  | .create name plan _ => .create name (plan.map Blueprint.unwatched) none
  | .push queue d => .push queue (DeliverySpec.unwatched d)
  | .setExtension name _ => .setExtension name none
  -- The call is still made and answered, but comes to nothing.
  | .createBootstrap hot _ _ => .createBootstrap hot (.error (.noBootstrap hot)) none
  | .observe hot d => .observe hot (DeliverySpec.unwatched d)
  | .receive hot c ms => .receive hot c (ModuleSpec.unwatchedAll ms)
  | c => c

def Script.unwatched : List Command → List Command
  | [] => []
  | c :: cs => c.unwatched :: Script.unwatched cs

def ModuleSpec.unwatched : ModuleSpec Command → ModuleSpec Command
  | ⟨id, key, script⟩ => ⟨id, key, Script.unwatched script⟩

def ModuleSpec.unwatchedAll : List (ModuleSpec Command) → List (ModuleSpec Command)
  | [] => []
  | m :: ms => m.unwatched :: ModuleSpec.unwatchedAll ms

def DeliverySpec.unwatched : DeliverySpec Command → DeliverySpec Command
  | ⟨chunks, modules, entries, prefetch⟩ => ⟨chunks, ModuleSpec.unwatchedAll modules, entries, prefetch⟩

end

/-- A script is made plain command by command. -/
theorem Script.unwatched_eq (s : Script) : Script.unwatched s = s.map Command.unwatched := by
  induction s with
  | nil => rfl
  | cons c s ih => rw [Script.unwatched, ih, List.map_cons]

theorem ModuleSpec.unwatchedAll_eq (ms : List (ModuleSpec Command)) :
    ModuleSpec.unwatchedAll ms = ms.map ModuleSpec.unwatched := by
  induction ms with
  | nil => rfl
  | cons m ms ih => rw [ModuleSpec.unwatchedAll, ih, List.map_cons]

section

variable (bare : Bool)

/-- The command on a bare page, or on one that only has blank answers. -/
def Command.plain (c : Command) : Command := if bare then c.unwatched else c

def Script.plain (s : Script) : Script := s.map (Command.plain bare)

def ModuleSpec.plain (m : ModuleSpec Command) : ModuleSpec Command :=
  { m with script := Script.plain bare m.script }

def DeliverySpec.plain (d : DeliverySpec Command) : DeliverySpec Command :=
  { d with modules := d.modules.map (ModuleSpec.plain bare) }

end

variable {bare : Bool}

/-- With extensions kept, there is nothing to take away from a command. -/
@[simp] theorem Command.plain_false (c : Command) : c.plain false = c := rfl

/-- With extensions taken away, a command is what it is without them. -/
@[simp] theorem Command.plain_true (c : Command) : c.plain true = c.unwatched := rfl

@[simp] theorem Script.plain_false (s : Script) : Script.plain false s = s := List.map_id s

@[simp] theorem ModuleSpec.plain_false (m : ModuleSpec Command) : m.plain false = m := by
  simp [ModuleSpec.plain]

@[simp] theorem DeliverySpec.plain_false (d : DeliverySpec Command) : d.plain false = d := by
  have same : ModuleSpec.plain false = id := funext ModuleSpec.plain_false
  simp [DeliverySpec.plain, same]

theorem ModuleSpec.plain_true (m : ModuleSpec Command) : m.plain true = m.unwatched := by
  obtain ⟨id, key, script⟩ := m
  rw [ModuleSpec.unwatched, Script.unwatched_eq]
  rfl

theorem DeliverySpec.plain_true (d : DeliverySpec Command) : d.plain true = d.unwatched := by
  obtain ⟨chunks, modules, entries, prefetch⟩ := d
  rw [DeliverySpec.unwatched, ModuleSpec.unwatchedAll_eq, ← funext ModuleSpec.plain_true]
  rfl

/-- A push keeps its queue, and its delivery is made plain. -/
@[simp] theorem Command.plain_push (queue : String) (d : DeliverySpec Command) :
    (Command.push queue d).plain bare = .push queue (d.plain bare) := by
  cases bare with
  | false => simp
  | true => simp [Command.unwatched, DeliverySpec.plain_true]

@[simp] theorem Command.plain_observe (hot : String) (d : DeliverySpec Command) :
    (Command.observe hot d).plain bare = .observe hot (d.plain bare) := by
  cases bare with
  | false => simp
  | true => simp [Command.unwatched, DeliverySpec.plain_true]

@[simp] theorem Command.plain_receive (hot : String) (c : ChunkId) (ms : List (ModuleSpec Command)) :
    (Command.receive hot c ms).plain bare = .receive hot c (ms.map (ModuleSpec.plain bare)) := by
  cases bare with
  | false =>
    have same : ModuleSpec.plain false = id := funext ModuleSpec.plain_false
    simp [same]
  | true => simp [Command.unwatched, ModuleSpec.unwatchedAll_eq, funext ModuleSpec.plain_true]

/-! ## Data of a page -/

/-- Whether an event stays: answers do not, and what extensions report stays unless they are taken away. -/
def Event.stays (bare : Bool) : Event → Bool
  | .answered _ => false
  | .tapped .. | .described _ => !bare
  | _ => true

/-- A task with a blank answer, if it stays: showings do unless the extensions are taken away. -/
def Task.plain? (bare : Bool) : Task → Option Task
  | .perform command nested => some (.perform (command.plain bare) nested)
  | .conclude _ nested inUse => some (.conclude .done nested inUse)
  | .observe x d => if bare then none else some (.observe x d)
  | t => some t

section

variable (bare : Bool)

def Runtime.plain (rt : Runtime) : Runtime :=
  { rt with extension := if bare then none else rt.extension }

def Factory.plain (f : Factory) : Factory := { f with script := Script.plain bare f.script }

/-- What a host does, plainly. -/
def plainRules (rules : List (ChunkId × Script)) : List (ChunkId × Script) :=
  rules.map fun rule => (rule.1, Script.plain bare rule.2)

/-- The page with blank answers; a bare one has no extensions. -/
@[simps]
def Page.plain (p : Page) : Page :=
  { p with
    runtimes := p.runtimes.map (Runtime.plain bare)
    factories := p.factories.map (Factory.plain bare)
    extensions := if bare then [] else p.extensions
    bootstraps := if bare then .empty else p.bootstraps
    onInject := plainRules bare p.onInject
    onHint := plainRules bare p.onHint
    log := p.log.filter (Event.stays bare)
    answer := .done
    agenda := p.agenda.filterMap (Task.plain? bare) }

end

@[simp] theorem Runtime.plain_false (rt : Runtime) : rt.plain false = rt := rfl

@[simp] theorem Factory.plain_false (f : Factory) : f.plain false = f := by simp [Factory.plain]

/-- Nor is there anything to take away from what hosts do. -/
@[simp] theorem plainRules_false (rules : List (ChunkId × Script)) : plainRules false rules = rules := by
  simp [plainRules]

namespace Page

variable {p : Page} {r : RuntimeId}

/-- To blank the answers once more changes nothing. -/
@[simp] theorem plain_plain (p : Page) : (p.plain bare).plain false = p.plain bare := by
  have runtimes : Runtime.plain false = id := rfl
  have factories : Factory.plain false = id := funext Factory.plain_false
  have log (es : List Event) : (es.filter (Event.stays bare)).filter (Event.stays false) =
      es.filter (Event.stays bare) := by
    rw [List.filter_filter]
    refine List.filter_congr fun e _ => ?_
    cases e <;> cases bare <;> rfl
  have agenda (ts : List Task) : (ts.filterMap (Task.plain? bare)).filterMap (Task.plain? false) =
      ts.filterMap (Task.plain? bare) := by
    rw [List.filterMap_filterMap]
    refine List.filterMap_congr fun t _ => ?_
    cases t <;> cases bare <;> rfl
  simp [plain, runtimes, factories, log, agenda]

/-! ## Looking -/

/-- A runtime of the plain page is the plain runtime. -/
@[simp] theorem runtime_plain (p : Page) (r : RuntimeId) :
    (p.plain bare).runtime r = (p.runtime r).plain bare := by
  have never : noRuntime.plain bare = noRuntime := by cases bare <;> rfl
  show (p.runtimes.map (Runtime.plain bare)).getD r noRuntime = _
  rw [← never, List.getD_map]
  rfl

/-- The stores are those of the page. -/
@[simp] theorem store_plain (p : Page) (r : RuntimeId) : (p.plain bare).store r = p.store r := by
  simp [store, Runtime.plain]

/-- And so are the worklists. -/
theorem worklist_plain (p : Page) (r : RuntimeId) :
    ((p.plain bare).runtime r).worklist = (p.runtime r).worklist := by
  rw [runtime_plain]
  rfl

/-- The queues are those of the page: parcels carry no answers. -/
@[simp] theorem queue_plain (p : Page) (name : String) : (p.plain bare).queue name = p.queue name := rfl

@[simp] theorem nameOf?_plain (p : Page) (r : RuntimeId) : (p.plain bare).nameOf? r = p.nameOf? r := rfl

/-- A request is found by the same reference. -/
@[simp] theorem request?_plain (p : Page) (ref : RequestRef) :
    (p.plain bare).request? ref = p.request? ref := by
  cases ref <;> rfl

/-- No runtime is in use by a showing. -/
@[simp] theorem alive_plain (p : Page) (r : RuntimeId) : (p.plain bare).alive r = p.alive r := by
  have agenda : (p.agenda.filterMap (Task.plain? bare)).any (Task.uses r) = p.agenda.any (Task.uses r) := by
    rw [List.any_filterMap]
    refine congrArg (p.agenda.any ·) (funext fun t => ?_)
    cases t <;> cases bare <;> rfl
  unfold alive
  rw [← agenda]
  rfl

/-- Loads have ended in the same way. -/
@[simp] theorem outcome_plain (p : Page) : (p.plain bare).outcome = p.outcome := by
  funext a
  cases a with
  | attempt r c n => simp [outcome, Runtime.plain]
  | _ => rfl

/-- So have joins of loads. -/
@[simp] theorem joined_plain (p : Page) : (p.plain bare).joined = p.joined := by
  funext parts
  simp [joined]

/-- What a host does is made plain. -/
theorem hostScript_plain (rules : List (ChunkId × Script)) (c : ChunkId) :
    hostScript (plainRules bare rules) c = Script.plain bare (hostScript rules c) := by
  unfold hostScript plainRules
  induction rules with
  | nil => rfl
  | cons rule rules ih =>
    simp only [List.map_cons, List.filter_cons]
    split
    · rw [List.flatMap_cons, List.flatMap_cons, ih]
      exact List.map_append.symm
    · exact ih

/-! ## Changing -/

/-- Of the events that happen, the plain page has those that stay. -/
@[simp] theorem plain_note (p : Page) (es : List Event) :
    (p.note es).plain bare = (p.plain bare).note (es.filter (Event.stays bare)) := by
  simp [note, plain, List.filter_reverse]

/-- Of the tasks that are called for, the plain page has those that stay, made plain. -/
@[simp] theorem plain_call (p : Page) (ts : List Task) :
    (p.call ts).plain bare = (p.plain bare).call (ts.filterMap (Task.plain? bare)) := by
  simp [call, plain]

/-- Tasks of a kind that stays as it is. -/
theorem plain?_map {β : Type} {task : β → Task} (stays : ∀ b, (task b).plain? bare = some (task b))
    (bs : List β) : (bs.map task).filterMap (Task.plain? bare) = bs.map task := by
  rw [List.filterMap_map, ← List.filterMap_eq_map]
  exact List.filterMap_congr fun b _ => stays b

/-- A script that is called is made plain. -/
@[simp] theorem plain_callScript (p : Page) (s : Script) :
    (p.callScript s).plain bare = (p.plain bare).callScript (Script.plain bare s) := by
  simp [callScript, Script.plain, List.filterMap_map, Function.comp_def, Task.plain?]

/-- A change of a runtime that plain runtimes have in common. -/
theorem plain_modifyRuntime {f g : Runtime → Runtime} (same : ∀ rt, (f rt).plain bare = g (rt.plain bare)) :
    (p.modifyRuntime r f).plain bare = (p.plain bare).modifyRuntime r g := by
  have runtimes : (p.runtimes.modify r f).map (Runtime.plain bare) =
      (p.runtimes.map (Runtime.plain bare)).modify r g := by
    refine List.ext_getElem? fun i => ?_
    simp only [List.getElem?_map, List.getElem?_modify]
    cases p.runtimes[i]? with
    | none => rfl
    | some rt =>
      simp only [Option.map_some]
      split
      · exact congrArg some (same rt)
      · rfl
  simp [modifyRuntime, plain, runtimes]

@[simp] theorem plain_setStore (p : Page) (r : RuntimeId) (s : Store) :
    (p.setStore r s).plain bare = (p.plain bare).setStore r s :=
  plain_modifyRuntime fun _ => rfl

@[simp] theorem plain_modifyFuture (p : Page) (f : FutureId) (g : Future → Future) :
    (p.modifyFuture f g).plain bare = (p.plain bare).modifyFuture f g := rfl

@[simp] theorem plain_report (p : Page) (r : RuntimeId) (e : LoadError) :
    (p.report r e).plain bare = (p.plain bare).report r e := by
  unfold report
  rw [plain_note, runtime_plain]
  rfl

/-- An attempt that ends is beside extensions. -/
@[simp] theorem plain_settleAttempt (p : Page) (r : RuntimeId) (c : ChunkId) (n : Attempt)
    (result : LoadResult) :
    (p.settleAttempt r c n result).plain bare = (p.plain bare).settleAttempt r c n result := by
  unfold settleAttempt
  rw [plain_note, plain_modifyRuntime]
  · rfl
  · exact fun _ => rfl

/-- So is a future that settles. -/
@[simp] theorem plain_settleFuture (p : Page) (f : FutureId) (result : LoadResult) :
    (p.settleFuture f result).plain bare = (p.plain bare).settleFuture f result := by
  unfold settleFuture
  rw [plain_futures]
  split
  · rfl
  · rw [plain_note, plain_modifyFuture]
    rfl

theorem addFuture_plain (p : Page) (label : Option String) (progress : Progress) :
    (p.plain bare).addFuture label progress =
      ((p.addFuture label progress).1, (p.addFuture label progress).2.plain bare) := rfl

/-- A factory gets the same number, and its script is made plain. -/
theorem addFactory_plain (p : Page) (m : ModuleSpec Command) :
    (p.plain bare).addFactory (m.plain bare) =
      ((p.addFactory m).1, (p.addFactory m).2.plain bare) := by
  unfold addFactory
  have key : (m.plain bare).key = m.key := rfl
  rw [key, plain_keyed]
  split
  · simp [plain, ModuleSpec.plain, Factory.plain]
  · split
    · rfl
    · simp [plain, ModuleSpec.plain, Factory.plain]

/-- And so do the factories of several modules. -/
theorem addModules_plain (p : Page) (ms : List (ModuleSpec Command)) :
    (p.plain bare).addModules (ms.map (ModuleSpec.plain bare)) =
      ((p.addModules ms).1, (p.addModules ms).2.plain bare) := by
  induction ms generalizing p with
  | nil => rfl
  | cons m ms ih =>
    simp only [List.map_cons, addModules, addFactory_plain, ih]
    rfl

/-- A delivery is known by the same factories. -/
theorem addDelivery_plain (p : Page) (d : DeliverySpec Command) :
    (p.plain bare).addDelivery (d.plain bare) =
      ((p.addDelivery d).1, (p.addDelivery d).2.plain bare) := by
  simp only [addDelivery, DeliverySpec.plain, addModules_plain]

end Page

end ChunkLoading
