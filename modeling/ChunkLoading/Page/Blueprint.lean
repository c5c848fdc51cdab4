import ChunkLoading.Page.LoadError
import ChunkLoading.Page.HotUpdate
import ChunkLoading.Page.Options
import ChunkLoading.Requirements

/-!
# Building a runtime

A blueprint says what a runtime is made of. `Blueprint.forChunk` takes it from the configuration
and the graph of a build; `Blueprint.build` makes the runtime, or tells why none can run.
-/

namespace ChunkLoading

/-- How a handler of the host's own answers. -/
inductive HandlerAnswer where
  /-- With a load that ended already. -/
  | settled (result : LoadResult)
  /-- With a load that ends when it is told to. -/
  | manual
  deriving DecidableEq

/-- A way of bringing in chunks. A handler that serves only some chunks lists them. -/
inductive Handler where
  /-- Asks the host for a resource. -/
  | script (only : Option (List ChunkId))
  /-- Takes every chunk to be there. -/
  | noop
  /-- Hints the preload children of a chunk, and loads nothing. -/
  | preload (children : Assoc ChunkId (List ChunkId))
  /-- Leaves the load to the host. -/
  | custom (name : String) (only : Option (List ChunkId)) (answer : HandlerAnswer)
  deriving DecidableEq

/-- Whether a handler that serves some chunks, or all, serves a given one. -/
def Handler.serves (only : Option (List ChunkId)) (c : ChunkId) : Bool :=
  match only with
  | none => true
  | some cs => cs.contains c

structure Runtime where
  options : Options
  handlers : List Handler
  /-- Whether chunks can be asked for at all. -/
  onDemand : Bool
  /-- Whether prefetch hints of deliveries are followed. -/
  prefetch : Bool
  store : Store
  /-- The waiting entries, if entries can wait. -/
  worklist : Option Worklist
  extension : Option ExtensionId
  /-- The sink of errors that nobody else handles, if one is set. -/
  sink : Option String
  /-- How the load attempts that ended did so. -/
  outcomes : Assoc Attempt LoadResult
  deriving DecidableEq

namespace Runtime

def describe (r : Runtime) : String :=
  Quoted.record "Runtime"
    [("options", r.options.describe),
      ("handlers", String.ofList (Numeral.digits r.handlers.length))]

/-- The number of entries that wait. -/
def deferred (r : Runtime) : Nat := (r.worklist.getD []).length

end Runtime

structure Blueprint where
  options : Options
  onDemand : Bool
  /-- Whether the script handler is built in. -/
  scriptLoading : Bool
  /-- Whether every chunk is taken to be there when the script handler is not built in. -/
  noopLoading : Bool
  entryDeferral : Bool
  prefetch : Bool
  /-- Chunks that ship with the runtime. -/
  initialChunks : List ChunkId
  preload : Assoc ChunkId (List ChunkId)
  /-- Handlers besides the built-in ones. -/
  handlers : List Handler
  /-- The bootstrap for updates, if the build has one. -/
  bootstrap : Option Bootstrap
  sink : Option String
  deriving DecidableEq

/-- Why there is no blueprint for a chunk. -/
inductive BlueprintError where
  | unknownChunk (id : ChunkId)
  | violation (v : Violation)
  | template (e : TemplateError)
  deriving DecidableEq

def BlueprintError.message : BlueprintError → String
  | .unknownChunk id => "Unknown chunk '" ++ id.text ++ "'"
  | .violation v => (LoadError.violation v).message
  | .template e => e.message

namespace Blueprint

def standard : Blueprint where
  options := .standard
  onDemand := true
  scriptLoading := true
  noopLoading := false
  entryDeferral := true
  prefetch := true
  initialChunks := []
  preload := .empty
  handlers := []
  bootstrap := none
  sink := none

/-- The bootstrap of a chunk's runtime, if updates are on and the chunk calls for loading code. -/
def bootstrapFor (config : Config) (g : Graph) (c : ChunkId) (needs : Requirements) :
    Except TemplateError (Option Bootstrap) :=
  if config.hot.enabled && needs.chunkLoadingCode then do
    let b ← Bootstrap.ofConfig config g.fullHash
    return some (b.noteLoaded [c])
  else return none

/-- The blueprint of the runtime that ships with a chunk. -/
def forChunk (config : Config) (g : Graph) (asked : ChunkId) : Except BlueprintError Blueprint := do
  let some c := g.resolve? asked.text | .error (.unknownChunk asked)
  let needs := g.requirementsOf c
  if needs.onDemandLoading && config.loading.method = .none then
    .error (.violation (.noMethod c))
  let options ← (Options.ofConfig config g).mapError .template
  let bootstrap ← (bootstrapFor config g c needs).mapError .template
  return { standard with
    options := options
    onDemand := needs.onDemandLoading
    scriptLoading := !needs.isNoopLoading
    noopLoading := needs.isNoopLoading
    entryDeferral := g.needsEntryDeferral
    prefetch := needs.prefetch
    initialChunks := [c]
    preload := .ofList g.preloadMap
    bootstrap := bootstrap }

/-- The handlers of a runtime that loads on demand, other than the host's own. -/
def builtIn (b : Blueprint) : List Handler :=
  (if b.scriptLoading then [.script none] else if b.noopLoading then [.noop] else [])
    ++ (if b.preload.isEmpty then [] else [.preload b.preload])

def allHandlers (b : Blueprint) : List Handler :=
  (if b.onDemand then b.builtIn else []) ++ b.handlers

/-- Makes the runtime, with an extension that is registered already. -/
def build (b : Blueprint) (extension : Option ExtensionId) : Except LoadError Runtime :=
  if b.onDemand && b.allHandlers.isEmpty then .error (.violation .noHandler)
  else .ok {
    options := b.options
    handlers := b.allHandlers
    onDemand := b.onDemand
    prefetch := b.prefetch
    store := b.initialChunks.foldl Store.markInitial .empty
    worklist := if b.entryDeferral then some [] else none
    extension := extension
    sink := b.sink
    outcomes := .empty }

end Blueprint

end ChunkLoading
