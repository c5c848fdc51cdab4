import ChunkLoading.Page.Blueprint

/-!
# Futures

What callers wait for. A call for a chunk waits for what every handler contributed; an import waits
for all of its chunks and then runs a module. How a join of several loads ends depends on their
number: up to thirty are looked at together, so that the first failure in the list ends the join
whatever comes before it; more are taken in strict order.
-/

namespace ChunkLoading

/-- A single load that somebody waits for. -/
inductive Awaited where
  /-- It ended already. -/
  | ready (result : LoadResult)
  /-- An attempt of a runtime to load a chunk. -/
  | attempt (runtime : RuntimeId) (chunk : ChunkId) (number : Attempt)
  /-- A load that a handler of the host's own ends. -/
  | manual (handler : String) (chunk : ChunkId)
  deriving DecidableEq

namespace Join

/-- The largest number of loads that are looked at together. -/
def small : Nat := 30

/-- The first failure among the loads that ended. -/
def firstFailure? (results : List (Option LoadResult)) : Option LoadError :=
  results.findSome? fun
    | some (.failed e) => some e
    | _ => none

/-- Joins loads by looking at all of them. -/
def together (results : List (Option LoadResult)) : Option LoadResult :=
  match firstFailure? results with
  | some e => some (.failed e)
  | none => if results.all Option.isSome then some .ok else none

/-- Joins loads by taking one after the other. -/
def inOrder : List (Option LoadResult) → Option LoadResult
  | [] => some .ok
  | some .ok :: rest => inOrder rest
  | other :: _ => other

/-- How a join of loads stands, given how each stands. -/
def all (results : List (Option LoadResult)) : Option LoadResult :=
  if results.length ≤ small then together results else inOrder results

end Join

/-- How far a future has come. -/
inductive Progress where
  /-- It waits for the contributions to one chunk. -/
  | ensuring (parts : List Awaited)
  /-- It is an import that has not begun. -/
  | unstarted (runtime : RuntimeId) (chunks : List ChunkId) (module : ModuleId)
  /-- It is an import that waits for the contributions to its chunks. -/
  | importing (runtime : RuntimeId) (loads : List (List Awaited)) (module : ModuleId)
  | settled (result : LoadResult)
  deriving DecidableEq

namespace Progress

def isSettled : Progress → Bool
  | .settled _ => true
  | _ => false

/-- Whether the future keeps a runtime alive: an import does until it settles. -/
def holds (r : RuntimeId) : Progress → Bool
  | .unstarted r' _ _ | .importing r' _ _ => r' = r
  | .ensuring _ | .settled _ => false

end Progress

/-- The number of a future, in the order of creation. -/
abbrev FutureId := Nat

structure Future where
  name : String
  progress : Progress
  /-- Whether it is being polled at this moment. -/
  polling : Bool
  deriving DecidableEq

end ChunkLoading
