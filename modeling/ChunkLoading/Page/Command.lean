import ChunkLoading.Config.Document
import ChunkLoading.Graph.Validity
import ChunkLoading.Page.Future

/-!
# Commands, answers and events

What can be asked of a page, what it answers, and what it reports while it works. Factories,
extensions and the host may have a script: commands that are performed in place when they are
called. Runtimes, queues, bootstraps and futures go by names.
-/

namespace ChunkLoading

inductive HintKind where
  | preload
  | prefetch
  deriving DecidableEq

def HintKind.word : HintKind → String
  | .preload => "preload"
  | .prefetch => "prefetch"

/-- How a resource ended, as the host saw it. -/
inductive ResourceEvent where
  /-- It ran. -/
  | load
  /-- It could not be fetched or read. -/
  | error
  /-- The time limit passed first. -/
  | timeout
  deriving DecidableEq

/-- The failure that an attempt to load a chunk ends with when its resource ended. -/
def ResourceEvent.failure (e : ResourceEvent) (c : ChunkId) (address : String) : LoadError :=
  match e with
  | .timeout => .timeout c address
  | .error => .delivery c .transport address
  | .load => .delivery c .missing address

/-! ## Commands -/

/-- A module that is delivered. Modules with one key share the factory made first under it. -/
structure ModuleSpec (σ : Type) where
  id : ModuleId
  key : Option String
  script : List σ
  deriving Inhabited

structure DeliverySpec (σ : Type) where
  chunks : List ChunkId
  modules : List (ModuleSpec σ)
  entries : List DeferredEntry
  prefetch : List ChunkId
  deriving Inhabited

/-- An observer of deliveries. -/
inductive ExtensionSpec (σ : Type) where
  /-- A tap reports deliveries under its name, perhaps with a description. -/
  | tap (name : String) (describes : Bool) (script : List σ)
  /-- A bootstrap for updates. -/
  | bootstrap (name : String)
  deriving Inhabited

/-- A resource request, by its number or as the newest one for a chunk. -/
inductive RequestRef where
  | number (n : Nat)
  | newest (chunk : ChunkId)
  deriving DecidableEq

/-- Why a command cannot be carried out. -/
inductive Failure where
  | config (e : Config.ReadError)
  | graph (e : Graph.ReadError)
  | template (e : TemplateError)
  | blueprint (e : BlueprintError)
  | load (e : LoadError)
  | malformedManifest
  | noRuntime (name : String)
  | noBootstrap (name : String)
  | noRequest
  deriving DecidableEq

inductive Command where
  /-- Builds a runtime and names it; an older one of that name loses the name. -/
  | create (name : String) (plan : Except Failure Blueprint)
      (extension : Option (ExtensionSpec Command))
  | drop (name : String)
  | install (name queue : String)
  | push (queue : String) (delivery : DeliverySpec Command)
  | ensure (name : String) (chunk : ChunkId) (label : Option String)
  | load (name : String) (chunks : List ChunkId) (module : ModuleId) (label : Option String)
  | poll
  | hint (name : String) (chunk : ChunkId) (kind : HintKind)
  | complete (request : RequestRef) (event : ResourceEvent)
  | settle (handler : String) (chunk : ChunkId) (result : LoadResult)
  | execute (name : String) (module : ModuleId)
  | startup (name : String) (entries : Except Failure (List DeferredEntry))
  | runSatisfied (name : String)
  | states (name : String) (chunks : List ChunkId)
  | hasModule (name : String) (module : ModuleId)
  | address (name : String) (chunk : ChunkId)
  | describe (name : String)
  | setExtension (name : String) (extension : Option (ExtensionSpec Command))
  | setSink (name sink : String)
  | report (name : String) (result : LoadResult)
  | createBootstrap (hot : String) (plan : Except Failure Bootstrap)
      (previous : Option (ExtensionSpec Command))
  | observe (hot : String) (delivery : DeliverySpec Command)
  | manifestAddress (hot : String)
  | updateAddress (hot : String) (chunk : ChunkId)
  | applyManifest (hot manifest : String)
  | receive (hot : String) (chunk : ChunkId) (modules : List (ModuleSpec Command))
  /-- Ends an update; its factories are then run on a runtime, if one is given. -/
  | finish (hot next : String) (runOn : Option String)

instance : Inhabited Command := ⟨.poll⟩

/-- Commands performed in place. -/
abbrev Script := List Command

/-! ## Answers and events -/

inductive Answer where
  | done
  | flag (b : Bool)
  | count (n : Nat)
  | text (s : String)
  | texts (ss : List String)
  | chunk (c : ChunkId)
  | states (ss : List ChunkState)
  | update (u : PendingUpdate)
  | failed (f : Failure)
  deriving DecidableEq

/-- A resource that a runtime asked the host for. -/
structure Request where
  runtime : RuntimeId
  chunk : ChunkId
  attempt : Attempt
  address : String
  timeoutMillis : Nat
  nonce : Option String
  crossOrigin : Option String
  resourceType : Option String
  deriving DecidableEq

inductive Event where
  /-- The host got a resource request. -/
  | injected (number : Nat) (request : Request)
  | hinted (runtime : RuntimeId) (chunk : ChunkId) (kind : HintKind) (address : String)
      (nonce crossOrigin : Option String)
  /-- An attempt failed, and its chunk can be requested again. -/
  | rejected (runtime : RuntimeId) (chunk : ChunkId) (attempt : Attempt)
  | loaded (runtime : RuntimeId) (chunk : ChunkId)
  /-- An attempt ended. -/
  | resolved (runtime : RuntimeId) (chunk : ChunkId) (attempt : Attempt) (result : LoadResult)
  | merged (runtime : RuntimeId) (delivery : Delivery)
  /-- Entries were added to a runtime's worklist. -/
  | registered (runtime : RuntimeId) (entries : List DeferredEntry)
  | entered (runtime : RuntimeId) (entry : DeferredEntry)
  /-- A factory ran; the runtime's name is given if it has one. -/
  | executed (runtime : RuntimeId) (name : Option String) (factory : FactoryId)
      (module : ModuleId) (key : Option String)
  | tapped (name : String) (delivery : Delivery)
  | described (text : String)
  /-- A failure that nobody else handles went to a runtime's sink, if it has one. -/
  | reported (runtime : RuntimeId) (sink : Option String) (error : LoadError)
  | asked (handler : String) (chunk : ChunkId) (serves : Bool)
  /-- A command of a script was answered. -/
  | answered (answer : Answer)
  | settled (future : String) (result : LoadResult)
  deriving DecidableEq

end ChunkLoading
