import ChunkLoading.Page.Worklist

/-!
# Deliveries

A chunk announces itself with a delivery: the chunks that it completes, factories for its modules,
entries to be run once their chunks are there, and chunks to prefetch. A factory is known by its
number; two deliveries may carry the same one.
-/

namespace ChunkLoading

/-- The number of a module factory. -/
abbrev FactoryId := Nat

structure Delivery where
  chunks : List ChunkId
  modules : List (ModuleId × FactoryId)
  entries : List DeferredEntry
  prefetch : List ChunkId
  deriving DecidableEq

namespace Delivery

def moduleIds (d : Delivery) : List ModuleId := d.modules.map (·.1)

def describe (d : Delivery) : String :=
  Quoted.record "ChunkDelivery"
    [("chunk_ids", Quoted.list Id.describe d.chunks),
      ("modules", Quoted.list Id.describe d.moduleIds),
      ("entries", Quoted.list DeferredEntry.describe d.entries),
      ("prefetch", Quoted.list Id.describe d.prefetch)]

end Delivery

/-- The number of a runtime. -/
abbrev RuntimeId := Nat

/-- The channel between chunks and runtimes: every delivery ever pushed, in order, and the
installed runtimes, oldest first. -/
structure Queue where
  delivered : List Delivery
  consumers : List RuntimeId
  deriving DecidableEq

namespace Queue

def empty : Queue := ⟨[], []⟩

/-- The number of deliveries that wait for a first runtime. -/
def pending (q : Queue) : Nat := if q.consumers.isEmpty then q.delivered.length else 0

end Queue

end ChunkLoading
