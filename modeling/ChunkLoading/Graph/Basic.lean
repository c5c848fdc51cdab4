import ChunkLoading.Id
import ChunkLoading.Digest.Sha256

/-!
# Chunk graphs

The chunks of one build, the groups in which they are loaded, and the asynchronous blocks of
modules that ask for a group. A group may have child groups, which its code may load later.
-/

namespace ChunkLoading

/-- A unit of delivered code. -/
structure Chunk where
  id : ChunkId
  name : Option String
  modules : List ModuleId
  /-- The content hash, if the build supplied one. -/
  hash : Option String
  deriving DecidableEq

namespace Chunk

def ofModules (id : ChunkId) (modules : List ModuleId) : Chunk := ⟨id, none, modules, none⟩

/-- The name used in filenames: its own, or else its id. -/
def displayName (c : Chunk) : String := c.name.getD c.id.text

/-- The content hash, made from the list of modules if the build supplied none. -/
def contentHash (c : Chunk) : String :=
  c.hash.getD (Sha256.fingerprintText ("\n".intercalate (c.modules.map Id.text)))

end Chunk

inductive GroupKind where
  /-- Loaded at startup. -/
  | entry
  /-- Loaded on demand. -/
  | async
  deriving DecidableEq

/-- Chunks that are loaded together. -/
structure Group where
  id : String
  kind : GroupKind
  chunks : List ChunkId
  /-- Ids of the groups that code of this group may load. -/
  children : List String
  entryModule : Option ModuleId
  /-- Given when the group is to be prefetched by its parents; higher comes first. -/
  prefetchOrder : Option Int32
  /-- Given when the group is to be preloaded along with its parents; higher comes first. -/
  preloadOrder : Option Int32
  deriving DecidableEq

def Group.isEntry (g : Group) : Bool := g.kind = .entry

/-- A place in a module that loads a group. -/
structure AsyncBlock where
  module : ModuleId
  group : String
  deriving DecidableEq

structure Graph where
  /-- The hash of the build, if it supplied one. -/
  hash : Option String
  chunks : List Chunk
  groups : List Group
  blocks : List AsyncBlock
  deriving DecidableEq

namespace Graph

/-- The chunk with an id. -/
def chunk? (g : Graph) (id : ChunkId) : Option Chunk := g.chunks.find? (·.id = id)

/-- The id of the chunk that has a given id text. -/
def resolve? (g : Graph) (text : String) : Option ChunkId :=
  (g.chunks.map (·.id)).find? (·.text = text)

/-- The group with an id. -/
def group? (g : Graph) (id : String) : Option Group := g.groups.find? (·.id = id)

/-- The groups that contain a chunk. -/
def groupsOf (g : Graph) (c : ChunkId) : List Group := g.groups.filter (·.chunks.contains c)

/-- The entry groups that contain a chunk. -/
def entryGroupsOf (g : Graph) (c : ChunkId) : List Group := (g.groupsOf c).filter (·.isEntry)

end Graph

end ChunkLoading
