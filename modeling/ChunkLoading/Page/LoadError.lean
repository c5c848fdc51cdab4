import ChunkLoading.Id

/-!
# Failed loads

Why a chunk was not loaded, or why a build cannot run at all.
-/

namespace ChunkLoading

/-- What the host saw of a delivery that failed. -/
inductive DeliveryFault where
  /-- The resource could not be fetched or read. -/
  | transport
  /-- The resource ran but did not deliver its chunk. -/
  | missing
  deriving DecidableEq

def DeliveryFault.word : DeliveryFault → String
  | .transport => "error"
  | .missing => "missing"

/-- A promise of the build that does not hold. -/
inductive Violation where
  | loadsNothing (chunk : ChunkId)
  | noHandler
  | noMethod (chunk : ChunkId)
  | noFactory (module : ModuleId)
  | collision (chunks : List ChunkId) (modules : List ModuleId)
  | other (reason : String)
  deriving DecidableEq

def Violation.reason : Violation → String
  | .loadsNothing c =>
    "ensure_chunk(" ++ c.text ++ ") on a runtime built without on-demand loading"
  | .noHandler => "on-demand loading requested without any chunk handler"
  | .noMethod c =>
    "chunk " ++ c.text ++ " needs on-demand loading but loading.method is \"none\""
  | .noFactory m => "module " ++ m.text ++ " has no factory"
  | .collision cs ms =>
    "chunks " ++ Quoted.list Id.describe cs ++ " deliver modules already registered by another chunk: "
      ++ ", ".intercalate (ms.map Id.text)
  | .other reason => reason

inductive LoadError where
  | delivery (chunk : ChunkId) (fault : DeliveryFault) (address : String)
  | timeout (chunk : ChunkId) (address : String)
  | violation (v : Violation)
  /-- The runtime went away while the chunk was loading. -/
  | abandoned (chunk : ChunkId)
  deriving DecidableEq

namespace LoadError

/-- The chunk that an error is about, if it is about one. -/
def chunk? : LoadError → Option ChunkId
  | .delivery c _ _ | .timeout c _ | .abandoned c => some c
  | .violation _ => none

def message : LoadError → String
  | .delivery c fault address =>
    "Loading chunk " ++ c.text ++ " failed.\n(" ++ fault.word ++ ": " ++ address ++ ")"
  | .timeout c address => "Loading chunk " ++ c.text ++ " failed.\n(timeout: " ++ address ++ ")"
  | .violation v => "build invariant violated: " ++ v.reason
  | .abandoned c => "runtime dropped while chunk " ++ c.text ++ " was loading"

end LoadError

/-- How a load ended. -/
inductive LoadResult where
  | ok
  | failed (e : LoadError)
  deriving DecidableEq

end ChunkLoading
