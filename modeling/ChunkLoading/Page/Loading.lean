import ChunkLoading.Page.Basic

/-!
# Loading chunks

What a runtime does when chunks are asked for, hinted or delivered, when resources end, and when
entries can run. Each function is one task; whatever calls back is put on the agenda.
-/

namespace ChunkLoading.Page

/-! ## Hints -/

/-- Hints a chunk to the host, if it was not requested yet. -/
def hint (p : Page) (r : RuntimeId) (c : ChunkId) (kind : HintKind) : Page :=
  match (p.store r).markHinted c with
  | (false, s) => p.setStore r s
  | (true, s) =>
    let o := (p.runtime r).options
    ((p.setStore r s).note [.hinted r c kind (o.address c) o.nonce o.crossOrigin]).callScript
      (hostScript p.onHint c)

/-! ## Requests -/

/-- The resource that an attempt asks for. -/
def request (p : Page) (r : RuntimeId) (c : ChunkId) (n : Attempt) : Request :=
  let o := (p.runtime r).options
  { runtime := r
    chunk := c
    attempt := n
    address := o.address c
    timeoutMillis := o.timeoutMillis
    nonce := o.nonce
    crossOrigin := o.crossOrigin
    resourceType := o.resourceType }

/-- Hands a resource request to the host. -/
def inject (p : Page) (q : Request) : Page :=
  ({ p with requests := p.requests ++ [q] }.note [.injected p.requests.length q]).callScript
    (hostScript p.onInject q.chunk)

/-- Asks one handler for a chunk, and then the ones after it. -/
def gatherFrom (p : Page) (r : RuntimeId) (c : ChunkId) (h : Handler) (rest : List Handler)
    (got : List Awaited) (caller : Caller) : Page :=
  let next (got : List Awaited) : Page := p.call [.gather r c rest got caller]
  match h with
  | .script only =>
    if Handler.serves only c then
      match (p.store r).beginLoad c with
      | (.ready, s) => (next (got ++ [.ready .ok])).setStore r s
      | (.attached n, s) => (next (got ++ [.attempt r c n])).setStore r s
      | (.started n, s) =>
        ((next (got ++ [.attempt r c n])).setStore r s).inject (p.request r c n)
    else next got
  | .noop => next (got ++ [.ready .ok])
  | .preload children =>
    (next got).call (((children.get? c).getD []).map (.hint r · .preload))
  | .custom name only answer =>
    if Handler.serves only c then
      let asked := (next (got ++ [match answer with
        | .settled result => .ready result
        | .manual => .manual name c])).note [.asked name c true]
      match answer with
      | .settled _ => asked
      | .manual =>
        match p.manual.get? (name, c) with
        | some _ => asked
        | none => { asked with manual := asked.manual.set (name, c) none }
    else (next got).note [.asked name c false]

/-- Gives the contributions to a chunk to the one who asked. -/
def gathered (p : Page) (r : RuntimeId) (got : List Awaited) : Caller → Page
  | .ensure label nested =>
    let (name, p) := p.addFuture label (.ensuring got)
    p.call [.conclude (.text name) nested (some r)]
  | .importing f rest loads module => p.call [.load f r rest (loads ++ [got]) module]

/-- Asks the remaining handlers for a chunk. -/
def gather (p : Page) (r : RuntimeId) (c : ChunkId) (handlers : List Handler)
    (got : List Awaited) (caller : Caller) : Page :=
  match handlers with
  | [] => p.gathered r got caller
  | h :: rest => p.gatherFrom r c h rest got caller

/-- Asks a runtime for a chunk: all handlers, or none if nothing is loaded on demand. -/
def ask (p : Page) (r : RuntimeId) (c : ChunkId) (caller : Caller) : Page :=
  let rt := p.runtime r
  if rt.onDemand then p.call [.gather r c rt.handlers [] caller]
  else p.call [.gather r c [] [.ready (.failed (.violation (.loadsNothing c)))] caller]

/-- Takes the host's report on a resource: the attempt fails if it is still under way. -/
def complete (p : Page) (q : Request) (e : ResourceEvent) : Page :=
  if p.alive q.runtime then
    match (p.store q.runtime).fail q.chunk q.attempt with
    | (false, s) => p.setStore q.runtime s
    | (true, s) =>
      ((p.setStore q.runtime s).note [.rejected q.runtime q.chunk q.attempt]).settleAttempt
        q.runtime q.chunk q.attempt (.failed (e.failure q.chunk q.address))
  else p

/-! ## Deliveries -/

/-- Merges a delivery: states and factories at once, then the extension, the hints, the attempts
that waited, and last the entries. -/
def merge (p : Page) (r : RuntimeId) (d : Delivery) : Page :=
  let rt := p.runtime r
  let m := rt.store.merge d
  let observers := rt.extension.toList.map (.observe · d)
  let hints := if rt.prefetch then d.prefetch.map (.hint r · .prefetch) else []
  ((p.setStore r m.store).note (.merged r d :: m.loaded.map (.loaded r ·))).call
    (observers ++ hints ++ [.resolve r d m.waiting m.clashes, .defer r d.entries])

/-- Shows a delivery to an extension. -/
def observe (p : Page) (x : ExtensionId) (d : Delivery) : Page :=
  match p.extensions[x]? with
  | none => p
  | some (.tap name describes script) =>
    let description := if describes then [Event.described d.describe] else []
    (p.note (.tapped name d :: description)).callScript script
  | some (.bootstrap b) =>
    (p.setBootstrap x (b.noteLoaded d.chunks)).call (b.previous.toList.map (.observe · d))

/-- How the attempts that waited for a delivery end, given the modules that clashed. -/
def mergeResult (d : Delivery) (clashes : List ModuleId) : LoadResult :=
  if clashes = [] then .ok else .failed (.violation (.collision d.chunks clashes))

/-- Ends the attempts that waited for a delivery, all with one result. -/
def resolve (p : Page) (r : RuntimeId) (d : Delivery) (waiting : List (ChunkId × Attempt))
    (clashes : List ModuleId) : Page :=
  waiting.foldl (fun p w => p.settleAttempt r w.1 w.2 (mergeResult d clashes)) p

/-! ## Entries -/

/-- The waiting entries of a runtime that can run. -/
def readyEntries (p : Page) (r : RuntimeId) : List DeferredEntry :=
  ((p.runtime r).worklist.getD []).ready (p.store r).isLoaded

/-- Takes the entries that can run from the worklist, and runs them in order. -/
def runReady (p : Page) (r : RuntimeId) : Page :=
  (p.modifyRuntime r fun rt =>
    { rt with worklist := rt.worklist.map (·.waiting rt.store.isLoaded) }).call
    ((p.readyEntries r).map (.enter r ·))

/-- Adds entries to the worklist, if there is one. -/
def addEntries (p : Page) (r : RuntimeId) (es : List DeferredEntry) : Page :=
  match (p.runtime r).worklist with
  | none => p
  | some w =>
    (p.modifyRuntime r ({ · with worklist := some (w ++ es) })).note [.registered r es]

/-- Registers entries and runs those that can. -/
def defer (p : Page) (r : RuntimeId) (es : List DeferredEntry) : Page :=
  (p.addEntries r es).runReady r

/-- Runs an entry, or reports that its module is missing. -/
def enter (p : Page) (r : RuntimeId) (e : DeferredEntry) : Page :=
  let p := p.note [.entered r e]
  match (p.store r).factory? e.entry with
  | some f => p.call [.execute r f]
  | none => p.report r (.violation (.noFactory e.entry))

/-- Runs a factory. -/
def execute (p : Page) (r : RuntimeId) (f : FactoryId) : Page :=
  match p.factories[f]? with
  | none => p
  | some fac =>
    (p.note [.executed r (p.nameOf? r) f fac.module fac.key]).callScript fac.script

/-! ## Futures -/

/-- Ends an import: the module runs when all chunks are there, and a failure is reported. -/
def endImport (p : Page) (f : FutureId) (r : RuntimeId) (module : ModuleId) :
    LoadResult → Page
  | .ok =>
    match (p.store r).factory? module with
    | some fac => p.call [.execute r fac, .settle f r .ok]
    | none =>
      let e := .violation (.noFactory module)
      (p.report r e).settleFuture f (.failed e)
  | .failed e => (p.report r e).settleFuture f (.failed e)

/-- Asks for the next chunk of an import; after the last one, looks how its loads stand. -/
def load (p : Page) (f : FutureId) (r : RuntimeId) (rest : List ChunkId)
    (loads : List (List Awaited)) (module : ModuleId) : Page :=
  match rest with
  | c :: rest => p.ask r c (.importing f rest loads module)
  | [] =>
    let p := p.modifyFuture f ({ · with progress := .importing r loads module })
    match Join.all (loads.map p.joined) with
    | none => p
    | some result => p.endImport f r module result

/-- Polls an import; it is not polled again meanwhile. -/
def pollImport (p : Page) (f : FutureId) (settledAny : Bool) (t : Task) : Page :=
  (p.modifyFuture f ({ · with polling := true })).call [t, .polled f settledAny]

/-- Polls the futures from one on. A pass that has settled any is followed by another one. -/
def pass (p : Page) (next : FutureId) (settledAny : Bool) : Page :=
  match p.futures[next]? with
  | none => if settledAny then p.call [.pass 0 false] else p
  | some future =>
    if future.polling then p.call [.pass (next + 1) settledAny]
    else
      match future.progress with
      | .settled _ => p.call [.pass (next + 1) settledAny]
      | .ensuring parts =>
        match p.joined parts with
        | none => p.call [.pass (next + 1) settledAny]
        | some result => (p.settleFuture next result).call [.pass (next + 1) true]
      | .unstarted r chunks module =>
        p.pollImport next settledAny (.load next r chunks [] module)
      | .importing r loads module =>
        p.pollImport next settledAny (.load next r [] loads module)

/-- Ends the poll of an import and goes on with the pass. -/
def polled (p : Page) (f : FutureId) (settledAny : Bool) : Page :=
  let settled := p.futures[f]?.any (·.progress.isSettled)
  (p.modifyFuture f ({ · with polling := false })).call [.pass (f + 1) (settledAny || settled)]

end ChunkLoading.Page
