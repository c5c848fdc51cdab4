import ChunkLoading.Data.Assoc
import ChunkLoading.Page.Delivery

/-!
# Chunk states

One state for each chunk of a runtime, and the table of module factories. States change only
along the life cycle of a chunk:

    notRequested → hintOnly → loading → loaded
    notRequested → loading,  notRequested → loaded,  hintOnly → loaded
    loading → failed → notRequested
-/

namespace ChunkLoading

/-- The number of a load attempt, counted from one in each runtime. -/
abbrev Attempt := Nat

inductive ChunkState where
  | notRequested
  | hintOnly
  | loading (attempt : Attempt)
  | loaded
  | failed
  deriving DecidableEq

namespace ChunkState

/-- The steps of the life cycle. -/
def canBecome : ChunkState → ChunkState → Bool
  | .notRequested, .hintOnly | .notRequested, .loading _ | .notRequested, .loaded => true
  | .hintOnly, .loading _ | .hintOnly, .loaded => true
  | .loading _, .loaded | .loading _, .failed => true
  | .failed, .notRequested => true
  | _, _ => false

def word : ChunkState → String
  | .notRequested => "NotRequested"
  | .hintOnly => "HintOnly"
  | .loading _ => "Loading"
  | .loaded => "Loaded"
  | .failed => "Failed"

end ChunkState

structure Store where
  states : Assoc ChunkId ChunkState
  factories : Assoc ModuleId FactoryId
  /-- The number of load attempts started so far. -/
  attempts : Nat
  /-- The number of steps that were refused because they leave the life cycle. -/
  refusals : Nat
  deriving DecidableEq

/-- What a request for a chunk comes to. -/
inductive Begin where
  /-- The chunk is there. -/
  | ready
  /-- An attempt is under way. -/
  | attached (attempt : Attempt)
  /-- A new attempt was started. -/
  | started (attempt : Attempt)
  deriving DecidableEq

/-- What becomes of a factory that is registered. -/
inductive Registration where
  | added
  /-- The same factory is there already. -/
  | duplicate
  /-- Another factory holds the id, and stays. -/
  | collision
  deriving DecidableEq

namespace Store

def empty : Store := ⟨⟨[]⟩, ⟨[]⟩, 0, 0⟩

/-! ## States -/

/-- The state of a chunk; one that was never heard of is not requested. -/
def state (s : Store) (c : ChunkId) : ChunkState := (s.states.get? c).getD .notRequested

def isLoaded (s : Store) (c : ChunkId) : Bool := s.state c = .loaded

/-- Gives a chunk a state; one that is not requested is forgotten. -/
def assign (s : Store) (c : ChunkId) (next : ChunkState) : Store :=
  { s with states := if next = .notRequested then s.states.erase c else s.states.set c next }

/-- Moves a chunk to its next state, and tells whether it did; a step outside the life cycle is
refused. -/
def become (s : Store) (c : ChunkId) (next : ChunkState) : Bool × Store :=
  if (s.state c).canBecome next then (true, s.assign c next)
  else (false, { s with refusals := s.refusals + 1 })

/-- Marks a chunk that shipped with the runtime. -/
def markInitial (s : Store) (c : ChunkId) : Store :=
  if s.isLoaded c then s else (s.become c .loaded).2

/-- Starts or joins a load. -/
def beginLoad (s : Store) (c : ChunkId) : Begin × Store :=
  match s.state c with
  | .loaded => (.ready, s)
  | .loading n => (.attached n, s)
  | _ =>
    let s := { s with attempts := s.attempts + 1 }
    match s.become c (.loading s.attempts) with
    | (true, s) => (.started s.attempts, s)
    | (false, s) => (.ready, s)

/-- Records a hint, and tells whether it did; only a chunk that was not requested accepts one. -/
def markHinted (s : Store) (c : ChunkId) : Bool × Store :=
  if s.state c = .notRequested then s.become c .hintOnly else (false, s)

/-- Marks a delivered chunk, and gives the attempt that waited for it. -/
def markLoaded (s : Store) (c : ChunkId) : Option Attempt × Store :=
  if s.isLoaded c then (none, s)
  else
    match s.state c, s.become c .loaded with
    | .loading n, (true, s) => (some n, s)
    | _, (_, s) => (none, s)

/-- Ends an attempt, and tells whether it was under way: the chunk fails and can be requested
again. -/
def fail (s : Store) (c : ChunkId) (n : Attempt) : Bool × Store :=
  if s.state c = .loading n then
    match s.become c .failed with
    | (true, s) => (true, (s.become c .notRequested).2)
    | (false, s) => (false, s)
  else (false, s)

/-! ## Factories -/

def factory? (s : Store) (m : ModuleId) : Option FactoryId := s.factories.get? m

def hasModule (s : Store) (m : ModuleId) : Bool := (s.factory? m).isSome

/-- Registers a factory; the first one of an id stays. -/
def register (s : Store) (m : ModuleId) (f : FactoryId) : Registration × Store :=
  match s.factory? m with
  | none => (.added, { s with factories := s.factories.set m f })
  | some g => (if g = f then .duplicate else .collision, s)

/-! ## Merging a delivery -/

/-- Marks chunks in order; gives those whose attempts waited, with the attempts. -/
def markAll (s : Store) : List ChunkId → List (ChunkId × Attempt) × Store
  | [] => ([], s)
  | c :: cs =>
    let (n?, s) := s.markLoaded c
    let (waiting, s) := s.markAll cs
    match n? with
    | some n => ((c, n) :: waiting, s)
    | none => (waiting, s)

/-- Registers factories in order; gives the modules that collided. -/
def registerAll (s : Store) : List (ModuleId × FactoryId) → List ModuleId × Store
  | [] => ([], s)
  | (m, f) :: rest =>
    let (outcome, s) := s.register m f
    let (clashes, s) := s.registerAll rest
    if outcome = .collision then (m :: clashes, s) else (clashes, s)

/-- What merging a delivery into a store comes to. -/
structure Merged where
  store : Store
  /-- The chunks that became loaded. -/
  loaded : List ChunkId
  /-- The attempts that the delivery ends. -/
  waiting : List (ChunkId × Attempt)
  /-- Modules that clash; none count when all chunks of the delivery were loaded before. -/
  clashes : List ModuleId

def merge (s : Store) (d : Delivery) : Merged :=
  let again := d.chunks.all s.isLoaded
  let (waiting, marked) := s.markAll d.chunks
  let (clashes, merged) := marked.registerAll d.modules
  { store := merged
    loaded := (d.chunks.filter (!s.isLoaded ·)).eraseDups
    waiting := waiting
    clashes := if again then [] else clashes }

end Store

end ChunkLoading
