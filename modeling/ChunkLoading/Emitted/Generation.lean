import ChunkLoading.Config.Basic
import ChunkLoading.Emitted.Section
import ChunkLoading.Data.Assoc
import ChunkLoading.Requirements

/-!
# Generating a runtime

The runtime that is emitted for a chunk: which sections it needs, what they are made from, and the
whole text. A chunk that needs nothing gets an empty runtime.
-/

namespace ChunkLoading

/-- Why no runtime can be emitted. -/
inductive GenerateError where
  | unknownChunk (asked : ChunkId)
  | noHandler (chunk : ChunkId)
  | template (e : TemplateError)
  deriving DecidableEq

def GenerateError.message : GenerateError → String
  | .unknownChunk c => "Unknown chunk '" ++ c.text ++ "'"
  | .noHandler c =>
    "Chunk " ++ c.text
      ++ " needs on-demand loading but no chunk loading handler is enabled (loading.method = \"none\")"
  | .template e => e.message

/-- The runtime emitted for a chunk. -/
structure GeneratedRuntime where
  chunk : ChunkId
  requirements : Requirements
  code : String

def GeneratedRuntime.size (r : GeneratedRuntime) : Nat := r.code.utf8ByteSize

/-! ## Features -/

/-- The parts of a runtime that are emitted. -/
structure Features where
  /-- Anything at all. -/
  merger : Bool
  /-- Asking for chunks. -/
  loading : Bool
  /-- Asking for chunks comes to nothing. -/
  noopLoading : Bool
  scriptLoader : Bool
  filenames : Bool
  prefetch : Bool
  preload : Bool
  deferral : Bool
  hot : Bool
  deriving DecidableEq

/-- The features that a chunk's requirements call for. Entries are deferred in all chunks of a
build or in none. -/
def Features.of (config : Config) (needs : Requirements) (deferral hasPreloads : Bool) :
    Features :=
  let full := needs.onDemandLoading && !needs.isNoopLoading
  let hot := config.hot.enabled && needs.chunkLoadingCode
  { merger := !needs.isEmpty || deferral
    loading := needs.onDemandLoading
    noopLoading := needs.isNoopLoading
    scriptLoader := full || hot
    filenames := full || needs.prefetch
    prefetch := needs.prefetch
    preload := full && hasPreloads
    deferral := deferral
    hot := hot }

/-! ## Data of sections -/

/-- A table as it is written: keys ascending, and of two values of a key the later. -/
def sortedTable {α : Type} (ps : List (String × α)) : List (String × α) :=
  (Assoc.ofList ps).entries.mergeSort fun x y => x.1 ≤ y.1

namespace Graph

/-- The preload children of a chunk and of the chunks that it loads, by id text. -/
def emittedPreloads (g : Graph) (c : ChunkId) : List (String × List ChunkId) :=
  let map := g.preloadMap
  sortedTable ((c :: g.asyncChunks c).filterMap fun id => (map.lookup id).map (id.text, ·))

/-- The filenames of the chunks that a chunk loads, by id text. -/
def emittedFilenames (g : Graph) (config : Config) (c : ChunkId) :
    Except TemplateError (List (String × String)) := do
  let template ← Template.parse config.output.chunkFilename
  let names ← g.filenames template
  let reachable := g.asyncChunks c
  return sortedTable ((names.filter (reachable.contains ·.1)).map fun n => (n.1.text, n.2))

/-- The calls that start a runtime: entries first, then prefetches. -/
def startupCalls (g : Graph) (c : ChunkId) (f : Features) : List StartupCall :=
  let entries := g.entriesOf c
  (if f.deferral then (if entries.isEmpty then [] else [.deferEntries entries])
    else entries.map (.runEntry ·.entry))
  ++ (if f.prefetch then [.prefetch (g.childChunks c .prefetch)] else [])

/-- The addresses of updates as expressions that look up the current build. -/
def updateSettings (g : Graph) (config : Config) (c : ChunkId) :
    Except TemplateError UpdateSettings := do
  let runtime := Literal.string config.hot.runtime
  let chunkTemplate ← Template.parse config.hot.chunkAddress
  let chunkAddress ← chunkTemplate.expression fun
    | .id => some "chunkId"
    | .fullHash => some "__chunkwise_require__.h()"
    | .runtime => some runtime
    | _ => none
  let manifestTemplate ← Template.parse config.hot.entryAddress
  let manifestAddress ← manifestTemplate.expression fun
    | .fullHash => some "__chunkwise_require__.h()"
    | .runtime => some runtime
    | _ => none
  return {
    hash := g.fullHash
    chunkAddress := chunkAddress
    manifestAddress := manifestAddress
    chunk := c
    namespaceName := config.output.globalNamespace
    callback := config.hot.callback }

end Graph

def Config.resourceSettings (config : Config) : ResourceSettings where
  publicPath := config.output.publicPath
  nonce := config.loading.nonce
  crossOrigin := config.loading.crossOrigin
  timeoutMillis := config.loading.timeoutMillis
  resourceType := config.loading.resourceType

/-! ## The whole runtime -/

/-- A section that is there only if a feature is. -/
def Section.when (feature : Bool) (s : Section) : List Section := if feature then [s] else []

namespace Graph

/-- The sections of a chunk's runtime, in order. -/
def sections (g : Graph) (config : Config) (c : ChunkId) (f : Features) :
    Except TemplateError (List Section) := do
  let filenames ← if f.filenames then g.emittedFilenames config c else pure []
  let update ← if f.hot then some <$> g.updateSettings config c else pure none
  let preloads := if f.preload then some (g.emittedPreloads c) else none
  return [.requireFunction]
    ++ Section.when (f.scriptLoader || f.filenames) (.resources config.resourceSettings)
    ++ [.installedChunks c]
    ++ Section.when f.loading .ensureChunk
    ++ Section.when f.filenames (.filenames filenames)
    ++ Section.when f.scriptLoader .scriptLoader
    ++ Section.when f.loading (if f.noopLoading then .noopHandler else .scriptHandler)
    ++ Section.when (f.prefetch || f.preload) (.hints f.prefetch preloads)
    ++ Section.when f.deferral .scheduler
    ++ update.toList.map .hotUpdate
    ++ [.merger f.prefetch f.deferral config.output.globalNamespace config.output.deliveryArray,
      .startup (g.startupCalls c f)]

/-- The comment that names the chunk and the build. -/
def headerLine (g : Graph) (c : ChunkId) : String :=
  "// chunkwise runtime for chunk " ++ c.literal ++ " (build " ++ g.fullHash ++ ")"

/-- The text of a runtime from its sections. -/
def runtimeText (g : Graph) (c : ChunkId) (ss : List Section) : String :=
  unlines [g.headerLine c, "(() => \x7b"] ++ "\n".intercalate (ss.map Section.text)
    ++ unlines ["\x7d)();"]

/-- The features of a chunk's runtime. -/
def featuresOf (g : Graph) (config : Config) (c : ChunkId) : Features :=
  Features.of config (g.requirementsOf c) g.needsEntryDeferral !(g.emittedPreloads c).isEmpty

/-- Emits the runtime of the chunk that has the text of the given id. -/
def generate (g : Graph) (config : Config) (asked : ChunkId) :
    Except GenerateError GeneratedRuntime := do
  let some c := g.resolve? asked.text | .error (.unknownChunk asked)
  let needs := g.requirementsOf c
  if needs.onDemandLoading && config.loading.method = .none then .error (.noHandler c)
  let f := g.featuresOf config c
  if f.merger then
    let ss ← (g.sections config c f).mapError .template
    return ⟨c, needs, g.runtimeText c ss⟩
  else return ⟨c, needs, ""⟩

/-- Emits the runtimes of all chunks, in the order of the graph. -/
def generateAll (g : Graph) (config : Config) : Except GenerateError (List GeneratedRuntime) :=
  g.chunks.mapM fun c => g.generate config c.id

end Graph

end ChunkLoading
