import ChunkLoading.Page.Loading

/-!
# Performing commands

What each command does to a page. A command puts its answer on the agenda below whatever it calls,
so that it is answered when all that is done.
-/

namespace ChunkLoading.Page

/-- Answers a command that is done. -/
def answerWith (p : Page) (nested : Bool) (a : Answer) : Page := p.call [.conclude a nested none]

/-- Does something with the runtime of a name. -/
def withRuntime (p : Page) (nested : Bool) (name : String) (act : RuntimeId → Page) : Page :=
  match p.names.get? name with
  | some r => act r
  | none => p.answerWith nested (.failed (.noRuntime name))

/-- Does something with the bootstrap of a name. -/
def withBootstrap (p : Page) (nested : Bool) (name : String)
    (act : ExtensionId → Bootstrap → Page) : Page :=
  match p.bootstrap? name with
  | some (x, b) => act x b
  | none => p.answerWith nested (.failed (.noBootstrap name))

/-- The extension of a new runtime: the one asked for, or else the bootstrap of its blueprint, which
passes deliveries on to no other extension. -/
def newExtension (p : Page) (b : Blueprint) :
    Option (ExtensionSpec Command) → Except Failure (Option ExtensionId × Page)
  | some spec => (p.addExtension spec).map fun (x, p) => (some x, p)
  | none =>
    match b.bootstrap with
    | some boot => let (x, p) := p.addBootstrap { boot with previous := none }; .ok (some x, p)
    | none => .ok (none, p)

/-- Builds a runtime and gives it a name. -/
def addRuntime (p : Page) (name : String) (plan : Except Failure Blueprint)
    (extension : Option (ExtensionSpec Command)) : Except Failure Page := do
  let b ← plan
  let (x, p) ← p.newExtension b extension
  let rt ← (b.build x).mapError .load
  return { p with
    runtimes := p.runtimes ++ [rt]
    names := p.names.set name p.runtimes.length }

/-- Makes a runtime the newest consumer of a queue, and merges all that was pushed before. -/
def install (p : Page) (r : RuntimeId) (queue : String) : Page :=
  let q := p.queue queue
  if q.consumers.contains r then p
  else
    { p with queues := p.queues.set queue { q with consumers := q.consumers ++ [r] } }.call
      (q.delivered.map (.merge r ·))

/-- Pushes a delivery; every installed runtime merges it, the newest first. -/
def push (p : Page) (queue : String) (d : Delivery) : Page :=
  let q := p.queue queue
  { p with queues := p.queues.set queue { q with delivered := q.delivered ++ [d] } }.call
    (q.consumers.reverse.map (.merge · d))

/-- The request that is meant, if there is one. -/
def request? (p : Page) : RequestRef → Option Request
  | .number n => p.requests[n]?
  | .newest c => p.requests.reverse.find? (·.chunk = c)

/-- Registers startup entries; without a worklist they run at once. -/
def startup (p : Page) (r : RuntimeId) (es : List DeferredEntry) : Page :=
  match (p.runtime r).worklist with
  | some _ => p.defer r es
  | none => p.call (es.map (.enter r ·))

/-- The factories of an update in ascending order of their modules. -/
def updateFactories (u : PendingUpdate) : List FactoryId :=
  (Id.sort u.modules.keys).filterMap u.modules.get?

/-- Ends the update of a bootstrap; its factories are then run on a runtime, if it is there. -/
def finishUpdate (p : Page) (nested : Bool) (x : ExtensionId) (b : Bootstrap) (next : String)
    (runOn : Option String) : Page :=
  match b.finish? next with
  | none => p.answerWith nested .done
  | some (u, b) =>
    let p := p.setBootstrap x b
    match runOn.bind p.names.get? with
    | none => p.answerWith nested (.update u)
    | some r =>
      p.call ((updateFactories u).map (.execute r ·) ++ [.conclude (.update u) nested (some r)])

/-- Sets the result of a load that ends when it is told to, unless it has ended. -/
def settleManual (p : Page) (nested : Bool) (key : String × ChunkId) (result : LoadResult) :
    Page :=
  match p.manual.get? key with
  | some none => { p with manual := p.manual.set key (some result) }.answerWith nested (.flag true)
  | _ => p.answerWith nested .done

/-- Performs a command. -/
def perform (p : Page) (nested : Bool) (command : Command) : Page :=
  /- An answer that waits for all that is called, while a runtime is in use. -/
  let concluding (r : RuntimeId) (a : Answer) : Page := p.call [.conclude a nested (some r)]
  let answer := p.answerWith nested
  match command with
  | .create name plan extension =>
    match p.addRuntime name plan extension with
    | .ok p => p.answerWith nested .done
    | .error e => answer (.failed e)
  | .drop name =>
    { p with names := p.names.erase name }.answerWith nested (.flag (p.names.contains name))
  | .install name queue =>
    p.withRuntime nested name fun r => (concluding r .done).install r queue
  | .push queue spec =>
    let (d, p) := p.addDelivery spec
    (p.answerWith nested .done).push queue d
  | .ensure name c label =>
    p.withRuntime nested name fun r => p.ask r c (.ensure label nested)
  | .load name cs module label =>
    p.withRuntime nested name fun r =>
      let (future, p) := p.addFuture label (.unstarted r cs module)
      p.answerWith nested (.text future)
  | .poll => (answer .done).call [.pass 0 false]
  | .hint name c kind =>
    p.withRuntime nested name fun r =>
      (concluding r (.flag ((p.store r).markHinted c).1)).call [.hint r c kind]
  | .complete ref event =>
    match p.request? ref with
    | none => answer (.failed .noRequest)
    | some q => (p.complete q event).answerWith nested (.chunk q.chunk)
  | .settle handler c result => p.settleManual nested (handler, c) result
  | .execute name module =>
    p.withRuntime nested name fun r =>
      match (p.store r).factory? module with
      | some f => (concluding r .done).call [.execute r f]
      | none => answer (.failed (.load (.violation (.noFactory module))))
  | .startup name entries =>
    p.withRuntime nested name fun r =>
      match entries with
      | .ok es => (concluding r .done).startup r es
      | .error e => answer (.failed e)
  | .runSatisfied name =>
    p.withRuntime nested name fun r =>
      (concluding r (.count (p.readyEntries r).length)).runReady r
  | .states name cs =>
    p.withRuntime nested name fun r => answer (.states (cs.map (p.store r).state))
  | .hasModule name m =>
    p.withRuntime nested name fun r => answer (.flag ((p.store r).hasModule m))
  | .address name c =>
    p.withRuntime nested name fun r => answer (.text ((p.runtime r).options.address c))
  | .describe name =>
    p.withRuntime nested name fun r => answer (.text (p.runtime r).describe)
  | .setExtension name none =>
    p.withRuntime nested name fun r =>
      (p.modifyRuntime r ({ · with extension := none })).answerWith nested
        (.flag (p.runtime r).extension.isSome)
  | .setExtension name (some spec) =>
    p.withRuntime nested name fun r =>
      match p.addExtension spec with
      | .ok (x, p') =>
        (p'.modifyRuntime r ({ · with extension := some x })).answerWith nested
          (.flag (p.runtime r).extension.isSome)
      | .error e => answer (.failed e)
  | .setSink name sink =>
    p.withRuntime nested name fun r =>
      (p.modifyRuntime r ({ · with sink := some sink })).answerWith nested .done
  | .report name result =>
    p.withRuntime nested name fun r =>
      match result with
      | .ok => answer .done
      | .failed e => (p.report r e).answerWith nested .done
  | .createBootstrap hot plan previous =>
    let made : Except Failure Page := do
      let b ← plan
      let (previous, p) ← match previous with
        | none => pure (none, p)
        | some spec => (p.addExtension spec).map fun (x, p) => (some x, p)
      let (x, p) := p.addBootstrap { b with previous := previous }
      return { p with bootstraps := p.bootstraps.set hot x }
    match made with
    | .ok p => p.answerWith nested .done
    | .error e => answer (.failed e)
  | .observe hot spec =>
    let (d, p) := p.addDelivery spec
    p.withBootstrap nested hot fun x _ => (p.answerWith nested .done).call [.observe x d]
  | .manifestAddress hot =>
    p.withBootstrap nested hot fun _ b =>
      answer (match b.manifestAddress with
        | .ok a => .text a
        | .error e => .failed (.template e))
  | .updateAddress hot c =>
    p.withBootstrap nested hot fun _ b =>
      answer (match b.chunkAddress c with
        | .ok a => .text a
        | .error e => .failed (.template e))
  | .applyManifest hot manifest =>
    p.withBootstrap nested hot fun x b =>
      match b.applyText manifest with
      | .ok (addresses, b) => (p.setBootstrap x b).answerWith nested (.texts addresses)
      | .error .malformed => answer (.failed .malformedManifest)
      | .error (.template e) => answer (.failed (.template e))
  | .receive hot c specs =>
    let (modules, p) := p.addModules specs
    p.withBootstrap nested hot fun x b =>
      (p.setBootstrap x (b.receive c modules)).answerWith nested .done
  | .finish hot next runOn =>
    p.withBootstrap nested hot fun x b => p.finishUpdate nested x b next runOn

end ChunkLoading.Page
