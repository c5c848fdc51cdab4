import ChunkLoading.Config.Basic
import ChunkLoading.Page.Store
import ChunkLoading.Template

/-!
# Hot updates

A bootstrap watches the deliveries of a page to know which chunks are loaded. From the manifest of
an update it tells which updated chunks to fetch, collects the factories that they bring, and hands
them over when all have arrived. An update belongs to the build that is current when it begins.
-/

namespace ChunkLoading

/-- The manifest of an update. -/
structure Manifest where
  chunks : List ChunkId
  removedChunks : List ChunkId
  removedModules : List ModuleId
  deriving DecidableEq

def Manifest.ofJson? (v : Json) : Option Manifest := do
  let fs ← v.fields? ["c", "r", "m"]
  return {
    chunks := ← fs.withDefault? "c" [] (Json.list? Id.ofJson?)
    removedChunks := ← fs.withDefault? "r" [] (Json.list? Id.ofJson?)
    removedModules := ← fs.withDefault? "m" [] (Json.list? Id.ofJson?) }

/-- An update whose chunks are being collected. -/
structure PendingUpdate where
  /-- The build that is updated. -/
  hash : String
  manifest : Manifest
  modules : Assoc ModuleId FactoryId
  /-- The chunks that have not arrived. -/
  awaiting : List ChunkId
  deriving DecidableEq

def PendingUpdate.isComplete (u : PendingUpdate) : Bool := u.awaiting.isEmpty

/-- Takes in a chunk for an update. -/
def PendingUpdate.receive (u : PendingUpdate) (c : ChunkId) (modules : List (ModuleId × FactoryId)) :
    PendingUpdate :=
  { u with modules := u.modules.setAll modules, awaiting := u.awaiting.filter (· ≠ c) }

/-- The number of a delivery extension. -/
abbrev ExtensionId := Nat

structure Bootstrap where
  publicPath : String
  runtimeName : String
  chunkTemplate : Template
  manifestTemplate : Template
  /-- The extension that deliveries are passed on to. -/
  previous : Option ExtensionId
  currentHash : String
  /-- The chunks known to be loaded, each once. -/
  loaded : List ChunkId
  /-- The updates that are being collected, by the builds that they change. -/
  updates : Assoc String PendingUpdate
  deriving DecidableEq

/-- Why an update cannot begin. -/
inductive UpdateError where
  | malformed
  | template (e : TemplateError)
  deriving DecidableEq

namespace Bootstrap

def ofConfig (config : Config) (hash : String) : Except TemplateError Bootstrap := do
  return {
    publicPath := config.output.publicPath
    runtimeName := config.hot.runtime
    chunkTemplate := ← Template.parse config.hot.chunkAddress
    manifestTemplate := ← Template.parse config.hot.entryAddress
    previous := none
    currentHash := hash
    loaded := []
    updates := .empty }

/-- The update of the current build that is under way. -/
def pending (b : Bootstrap) : Option PendingUpdate := b.updates.get? b.currentHash

/-- Adds chunks to those known to be loaded. -/
def noteLoaded (b : Bootstrap) (cs : List ChunkId) : Bootstrap :=
  { b with loaded := (b.loaded ++ cs).eraseDups }

/-- The address of the manifest of the next update. -/
def manifestAddress (b : Bootstrap) : Except TemplateError String := do
  let path ← b.manifestTemplate.render fun
    | .fullHash => some b.currentHash
    | .runtime => some b.runtimeName
    | _ => none
  return b.publicPath ++ path

/-- The address of an updated chunk. -/
def chunkAddress (b : Bootstrap) (c : ChunkId) : Except TemplateError String := do
  let path ← b.chunkTemplate.render fun
    | .id => some c.text
    | .fullHash => some b.currentHash
    | .runtime => some b.runtimeName
    | _ => none
  return b.publicPath ++ path

/-- Begins an update, in place of one under way, and gives the addresses to fetch in ascending
order: only chunks that are loaded are updated. -/
def apply (b : Bootstrap) (m : Manifest) : Except TemplateError (List String × Bootstrap) := do
  let awaiting := (m.chunks.filter (b.loaded.contains ·)).eraseDups
  let addresses ← awaiting.mapM b.chunkAddress
  return (addresses.mergeSort fun x y => x ≤ y,
    { b with updates := b.updates.set b.currentHash ⟨b.currentHash, m, .empty, awaiting⟩ })

/-- Begins an update from the text of its manifest. -/
def applyText (b : Bootstrap) (s : String) : Except UpdateError (List String × Bootstrap) :=
  match (Json.read? s).bind Manifest.ofJson? with
  | none => .error .malformed
  | some m => (b.apply m).mapError .template

/-- Takes in an updated chunk; without an update under way it is ignored. -/
def receive (b : Bootstrap) (c : ChunkId) (modules : List (ModuleId × FactoryId)) : Bootstrap :=
  match b.pending with
  | none => b
  | some u => { b with updates := b.updates.set b.currentHash (u.receive c modules) }

/-- Ends an update whose chunks have all arrived; the build with the given hash is then current. -/
def finish? (b : Bootstrap) (next : String) : Option (PendingUpdate × Bootstrap) :=
  match b.pending with
  | none => none
  | some u =>
    if u.isComplete then
      some (u, { b with
        updates := b.updates.erase b.currentHash
        loaded := b.loaded.filter (!u.manifest.removedChunks.contains ·)
        currentHash := next })
    else none

end Bootstrap

end ChunkLoading
