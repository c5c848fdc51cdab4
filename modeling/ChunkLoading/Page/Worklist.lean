import ChunkLoading.Graph.Basic

/-!
# Deferred entries

An entry module waits in a worklist until all the chunks that it needs are loaded. The worklist
keeps the order in which entries were registered.
-/

namespace ChunkLoading

/-- An entry module and the chunks that it needs. -/
structure DeferredEntry where
  entry : ModuleId
  chunks : List ChunkId
  deriving DecidableEq

namespace DeferredEntry

/-- Whether all needed chunks are loaded. -/
def isReady (loaded : ChunkId → Bool) (e : DeferredEntry) : Bool := e.chunks.all loaded

def describe (e : DeferredEntry) : String :=
  Quoted.record "DeferredEntry"
    [("entry", e.entry.describe), ("chunks", Quoted.list Id.describe e.chunks)]

end DeferredEntry

/-- The startup entries of a chunk: those of the entry groups that contain it. -/
def Graph.entriesOf (g : Graph) (c : ChunkId) : List DeferredEntry :=
  (g.entryGroupsOf c).filterMap fun group => group.entryModule.map (⟨·, group.chunks⟩)

/-- Entries that wait, in the order of their registration. -/
abbrev Worklist := List DeferredEntry

namespace Worklist

/-- The entries that can run now. -/
def ready (loaded : ChunkId → Bool) (w : Worklist) : List DeferredEntry :=
  w.filter (·.isReady loaded)

/-- The entries that still wait. -/
def waiting (loaded : ChunkId → Bool) (w : Worklist) : Worklist :=
  w.filter (!·.isReady loaded)

end Worklist

end ChunkLoading
