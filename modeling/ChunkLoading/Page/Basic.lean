import ChunkLoading.Page.Command

/-!
# Pages

A page holds runtimes, queues, bootstraps and futures, and an agenda of tasks that are still to be
done. The first task of the agenda is the one at hand; what a task calls for is put in front of the
rest, so that a call is finished before its caller goes on. Nothing else happens between two tasks:
a host, an extension or a factory that calls back finds the page as it stands then.
-/

namespace ChunkLoading

/-- What is called when a module runs. -/
structure Factory where
  module : ModuleId
  key : Option String
  script : Script

/-- An observer of deliveries. -/
inductive Extension where
  | tap (name : String) (describes : Bool) (script : Script)
  | bootstrap (b : Bootstrap)

/-- Who waits for the contributions to a chunk. -/
inductive Caller where
  /-- A call for the chunk, whose future may have a name of its own. -/
  | ensure (label : Option String) (nested : Bool)
  /-- An import, with the chunks that come after and the loads that came before. -/
  | importing (future : FutureId) (rest : List ChunkId) (loads : List (List Awaited))
      (module : ModuleId)

inductive Task where
  | perform (command : Command) (nested : Bool)
  /-- Gives an answer; until then a runtime may be in use. -/
  | conclude (answer : Answer) (nested : Bool) (inUse : Option RuntimeId)
  /-- Asks the remaining handlers for a chunk. -/
  | gather (runtime : RuntimeId) (chunk : ChunkId) (handlers : List Handler) (got : List Awaited)
      (caller : Caller)
  | hint (runtime : RuntimeId) (chunk : ChunkId) (kind : HintKind)
  | merge (runtime : RuntimeId) (delivery : Delivery)
  | observe (extension : ExtensionId) (delivery : Delivery)
  /-- Ends the attempts that waited for a delivery, given the modules that clashed. -/
  | resolve (runtime : RuntimeId) (delivery : Delivery) (waiting : List (ChunkId × Attempt))
      (clashes : List ModuleId)
  /-- Registers the entries of a delivery and looks for entries to run. -/
  | defer (runtime : RuntimeId) (entries : List DeferredEntry)
  | enter (runtime : RuntimeId) (entry : DeferredEntry)
  | execute (runtime : RuntimeId) (factory : FactoryId)
  /-- Polls futures from one on; the flag tells whether this pass has settled any. -/
  | pass (next : FutureId) (settledAny : Bool)
  /-- Asks for the remaining chunks of an import, and then waits for all of them. -/
  | load (future : FutureId) (runtime : RuntimeId) (rest : List ChunkId)
      (loads : List (List Awaited)) (module : ModuleId)
  | settle (future : FutureId) (runtime : RuntimeId) (result : LoadResult)
  /-- Ends the poll of an import. -/
  | polled (future : FutureId) (settledAny : Bool)

/-- Whether a task uses a runtime. -/
def Task.uses (r : RuntimeId) : Task → Bool
  | .conclude _ _ inUse => inUse = some r
  | .gather r' .. | .hint r' .. | .merge r' .. | .resolve r' .. | .defer r' .. | .enter r' ..
  | .execute r' .. | .load _ r' .. | .settle _ r' .. => r' = r
  | .perform .. | .observe .. | .pass .. | .polled .. => false

structure Page where
  runtimes : List Runtime
  names : Assoc String RuntimeId
  queues : Assoc String Queue
  factories : List Factory
  /-- The factories made under a key. -/
  keyed : Assoc String FactoryId
  extensions : List Extension
  bootstraps : Assoc String ExtensionId
  futures : List Future
  /-- The loads of handlers that end when they are told to. -/
  manual : Assoc (String × ChunkId) (Option LoadResult)
  requests : List Request
  /-- What the host does when it gets a resource request for a chunk. -/
  onInject : List (ChunkId × Script)
  /-- What the host does when it gets a hint for a chunk. -/
  onHint : List (ChunkId × Script)
  /-- All events, the newest first. -/
  log : List Event
  /-- The answer to the command that was given last. -/
  answer : Answer
  agenda : List Task

namespace Page

/-- A page on which nothing has happened, with a host that answers by scripts. -/
def fresh (onInject onHint : List (ChunkId × Script)) : Page where
  runtimes := []
  names := .empty
  queues := .empty
  factories := []
  keyed := .empty
  extensions := []
  bootstraps := .empty
  futures := []
  manual := .empty
  requests := []
  onInject := onInject
  onHint := onHint
  log := []
  answer := .done
  agenda := []

/-! ## Looking -/

/-- A runtime that never was: it has no handler and does nothing. -/
def noRuntime : Runtime where
  options := .standard
  handlers := []
  onDemand := false
  prefetch := false
  store := .empty
  worklist := none
  extension := none
  sink := none
  outcomes := .empty

/-- The runtime with a number. -/
def runtime (p : Page) (r : RuntimeId) : Runtime := p.runtimes.getD r noRuntime

def store (p : Page) (r : RuntimeId) : Store := (p.runtime r).store

/-- The name that a runtime goes by, if it has one. -/
def nameOf? (p : Page) (r : RuntimeId) : Option String :=
  (p.names.entries.find? (·.2 = r)).map (·.1)

def queue (p : Page) (name : String) : Queue := (p.queues.get? name).getD .empty

/-- The bootstrap that goes by a name, with its number as an extension. -/
def bootstrap? (p : Page) (name : String) : Option (ExtensionId × Bootstrap) := do
  let x ← p.bootstraps.get? name
  match p.extensions[x]? with
  | some (.bootstrap b) => some (x, b)
  | _ => none

/-- The script of a host rule for a chunk: that of all rules with the chunk, in order. -/
def hostScript (rules : List (ChunkId × Script)) (c : ChunkId) : Script :=
  (rules.filter (·.1 = c)).flatMap (·.2)

/-- Whether a runtime is still there: it has a name, a queue keeps it, an import that has not
settled holds it, or a task at hand uses it. -/
def alive (p : Page) (r : RuntimeId) : Bool :=
  p.names.entries.any (·.2 = r)
    || p.queues.entries.any (·.2.consumers.contains r)
    || p.futures.any (·.progress.holds r)
    || p.agenda.any (Task.uses r)

/-- How a load that somebody waits for ended, if it did. -/
def outcome (p : Page) : Awaited → Option LoadResult
  | .ready result => some result
  | .attempt r c n =>
    match (p.runtime r).outcomes.get? n with
    | some result => some result
    | none => if p.alive r then none else some (.failed (.abandoned c))
  | .manual handler c => (p.manual.get? (handler, c)).join

/-- How a call for a chunk stands. -/
def joined (p : Page) (parts : List Awaited) : Option LoadResult :=
  Join.all (parts.map p.outcome)

/-- The number of futures that have not settled. -/
def unsettled (p : Page) : Nat := p.futures.countP (!·.progress.isSettled)

/-! ## Changing -/

def note (p : Page) (es : List Event) : Page := { p with log := es.reverse ++ p.log }

/-- Puts tasks in front of the agenda. -/
def call (p : Page) (ts : List Task) : Page := { p with agenda := ts ++ p.agenda }

/-- Puts a script in front of the agenda. -/
def callScript (p : Page) (s : Script) : Page := p.call (s.map (.perform · true))

def modifyRuntime (p : Page) (r : RuntimeId) (f : Runtime → Runtime) : Page :=
  { p with runtimes := p.runtimes.modify r f }

def setStore (p : Page) (r : RuntimeId) (s : Store) : Page :=
  p.modifyRuntime r ({ · with store := s })

def modifyFuture (p : Page) (f : FutureId) (g : Future → Future) : Page :=
  { p with futures := p.futures.modify f g }

/-- Hands a failure to the sink of a runtime. -/
def report (p : Page) (r : RuntimeId) (e : LoadError) : Page :=
  p.note [.reported r (p.runtime r).sink e]

/-- Ends an attempt. -/
def settleAttempt (p : Page) (r : RuntimeId) (c : ChunkId) (n : Attempt) (result : LoadResult) :
    Page :=
  (p.modifyRuntime r fun rt => { rt with outcomes := rt.outcomes.set n result }).note
    [.resolved r c n result]

/-- Settles a future. -/
def settleFuture (p : Page) (f : FutureId) (result : LoadResult) : Page :=
  match p.futures[f]? with
  | none => p
  | some future =>
    (p.modifyFuture f ({ · with progress := .settled result })).note
      [.settled future.name result]

/-- Adds a future, and gives its name. -/
def addFuture (p : Page) (label : Option String) (progress : Progress) : String × Page :=
  let name := label.getD ("f" ++ String.ofList (Numeral.digits p.futures.length))
  (name, { p with futures := p.futures ++ [⟨name, progress, false⟩] })

/-- Makes the factory of a module, or finds the one made first under its key. -/
def addFactory (p : Page) (m : ModuleSpec Command) : FactoryId × Page :=
  let new : Page := { p with factories := p.factories ++ [⟨m.id, m.key, m.script⟩] }
  match m.key with
  | none => (p.factories.length, new)
  | some key =>
    match p.keyed.get? key with
    | some f => (f, p)
    | none => (p.factories.length, { new with keyed := p.keyed.set key p.factories.length })

/-- Makes the factories of modules in order. -/
def addModules (p : Page) : List (ModuleSpec Command) → List (ModuleId × FactoryId) × Page
  | [] => ([], p)
  | m :: ms =>
    let (f, p) := p.addFactory m
    let (fs, p) := p.addModules ms
    ((m.id, f) :: fs, p)

/-- Makes a delivery with its factories. -/
def addDelivery (p : Page) (d : DeliverySpec Command) : Delivery × Page :=
  let (modules, p) := p.addModules d.modules
  (⟨d.chunks, modules, d.entries, d.prefetch⟩, p)

/-- Adds an extension, or finds a bootstrap by its name. -/
def addExtension (p : Page) : ExtensionSpec Command → Except Failure (ExtensionId × Page)
  | .tap name describes script =>
    .ok (p.extensions.length,
      { p with extensions := p.extensions ++ [.tap name describes script] })
  | .bootstrap name =>
    match p.bootstraps.get? name with
    | some x => .ok (x, p)
    | none => .error (.noBootstrap name)

def addBootstrap (p : Page) (b : Bootstrap) : ExtensionId × Page :=
  (p.extensions.length, { p with extensions := p.extensions ++ [.bootstrap b] })

def setBootstrap (p : Page) (x : ExtensionId) (b : Bootstrap) : Page :=
  { p with extensions := p.extensions.set x (.bootstrap b) }

end Page

end ChunkLoading
