import ChunkLoading.Graph.Query

/-!
# What a chunk's runtime needs

The parts of the loading runtime that the code of a chunk calls for, read off the graph.
-/

namespace ChunkLoading

structure Requirements where
  /-- Some code asks for chunks while it runs. -/
  onDemandLoading : Bool
  /-- Some entry of the chunk waits for several chunks. -/
  entryDeferral : Bool
  /-- The chunk has children to prefetch. -/
  prefetch : Bool
  /-- The chunk is loaded along with others or has child groups. -/
  chunkLoadingCode : Bool
  /-- Chunks can be reached that are not loaded with this one. -/
  asyncChunks : Bool
  deriving DecidableEq

namespace Requirements

/-- The written form of requirements. -/
def toJson (r : Requirements) : Json :=
  .ofMembers [("needs_on_demand_loading", .bool r.onDemandLoading),
    ("needs_entry_deferral", .bool r.entryDeferral),
    ("needs_prefetch_support", .bool r.prefetch),
    ("needs_chunk_loading_code", .bool r.chunkLoadingCode),
    ("has_async_chunks", .bool r.asyncChunks)]

/-- Nothing needs to be emitted. -/
def isEmpty (r : Requirements) : Bool :=
  !r.onDemandLoading && !r.entryDeferral && !r.prefetch && !r.chunkLoadingCode

/-- Code asks for chunks, but this chunk has none to load. -/
def isNoopLoading (r : Requirements) : Bool :=
  r.onDemandLoading && !r.asyncChunks

end Requirements

namespace Graph

/-- Whether a chunk is loaded along with others, so that its entries have to wait. -/
def defersEntries (g : Graph) (c : ChunkId) : Bool :=
  (g.groupsOf c).any fun group => 1 < group.chunks.length

/-- The requirements of a chunk id. -/
def requirementsOf (g : Graph) (c : ChunkId) : Requirements :=
  let hasAsync := !(g.asyncChunks c).isEmpty
  { onDemandLoading := hasAsync || g.hasNonemptyBlock
    entryDeferral := g.defersEntries c
    prefetch := !(g.childChunks c .prefetch).isEmpty
    chunkLoadingCode :=
      (g.groupsOf c).any fun group => 1 < group.chunks.length || !group.children.isEmpty
    asyncChunks := hasAsync }

/-- The requirements of a chunk of the graph. -/
def analyze? (g : Graph) (c : ChunkId) : Option Requirements :=
  (g.chunk? c).map fun _ => g.requirementsOf c

/-- Whether the entries of some chunk of the build wait for several chunks. -/
def needsEntryDeferral (g : Graph) : Bool :=
  g.chunks.any fun c => g.defersEntries c.id

end Graph

end ChunkLoading
