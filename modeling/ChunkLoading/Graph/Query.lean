import ChunkLoading.Graph.Record
import ChunkLoading.Template

/-!
# Questions to a graph

Which chunks are loaded together with a chunk, which may be loaded later, in which order children
are hinted, and under which filenames chunks are found.
-/

namespace ChunkLoading.Graph

/-! ## Reachable chunks -/

/-- A chunk and the chunks that share a group with it, each once. -/
def initialChunks (g : Graph) (c : ChunkId) : List ChunkId :=
  (c :: (g.groupsOf c).flatMap (·.chunks)).eraseDups

/-- The ids of the child groups of some groups, each once. -/
def childIds (groups : List Group) : List String :=
  (groups.flatMap (·.children)).eraseDups

/-- Visits groups breadth first. `seen` holds every id that was ever put on the queue. -/
def visit (g : Graph) : Nat → List String → List String → List Group
  | 0, _, _ => []
  | _, _, [] => []
  | fuel + 1, seen, id :: queue =>
    match g.group? id with
    | none => visit g fuel seen queue
    | some group =>
      let new := (childIds [group]).filter (!seen.contains ·)
      group :: visit g fuel (seen ++ new) (queue ++ new)

/-- The groups reached through child groups from the groups of a chunk, nearest first. Every id is
queued once and is a child of some group, so the number of children bounds the search. -/
def descendants (g : Graph) (c : ChunkId) : List Group :=
  let start := childIds (g.groupsOf c)
  visit g (g.groups.flatMap (·.children)).length start start

/-- The chunks of descendant groups that are not loaded together with the chunk itself. -/
def asyncChunks (g : Graph) (c : ChunkId) : List ChunkId :=
  (((g.descendants c).flatMap (·.chunks)).filter
    (!(g.initialChunks c).contains ·)).eraseDups

/-! ## Ordered children -/

/-- The two reasons to hint a child group. -/
inductive ChildOrder where
  | prefetch
  | preload
  deriving DecidableEq

/-- The order of a group in a class. -/
def ChildOrder.of (o : ChildOrder) (group : Group) : Option Int32 :=
  match o with
  | .prefetch => group.prefetchOrder
  | .preload => group.preloadOrder

/-- The child groups of a chunk that have an order, each once, with that order. -/
def orderedChildren (g : Graph) (c : ChunkId) (o : ChildOrder) : List (Int32 × Group) :=
  ((childIds (g.groupsOf c)).filterMap g.group?).filterMap fun group =>
    (o.of group).map (·, group)

/-- The other chunks of child groups with an order, highest order first and otherwise as
declared. -/
def childChunks (g : Graph) (c : ChunkId) (o : ChildOrder) : List ChunkId :=
  let sorted := (g.orderedChildren c o).mergeSort fun x y => y.1 ≤ x.1
  ((sorted.flatMap (·.2.chunks)).filter (· ≠ c)).eraseDups

/-- The preload children of a list of chunks, without the chunks that have none. -/
def preloadsOf (g : Graph) (cs : List ChunkId) : List (ChunkId × List ChunkId) :=
  cs.filterMap fun c =>
    match g.childChunks c .preload with
    | [] => none
    | children => some (c, children)

/-- The preload children of every chunk that has any. -/
def preloadMap (g : Graph) : List (ChunkId × List ChunkId) :=
  g.preloadsOf (g.chunks.map (·.id)).eraseDups

/-! ## Blocks -/

/-- Whether some asynchronous block loads a group that has chunks. -/
def hasNonemptyBlock (g : Graph) : Bool :=
  g.blocks.any fun b => (g.group? b.group).any fun group => !group.chunks.isEmpty

/-! ## Filenames -/

/-- The values of a chunk's placeholders in a build with the given hash. -/
def filenameValue (fullHash : String) (c : Chunk) : Placeholder → Option String
  | .id => some c.id.text
  | .name => some c.displayName
  | .contentHash => some c.contentHash
  | .fullHash => some fullHash
  | .runtime => none

/-- The filename of every chunk, in ascending order of ids; of two chunks with one id the later
counts. -/
def filenames (g : Graph) (t : Template) : Except TemplateError (List (ChunkId × String)) := do
  let hash := g.fullHash
  let named ← g.chunks.mapM fun c => return (c.id, ← t.render (filenameValue hash c))
  let ids := Id.sort (g.chunks.map (·.id)).eraseDups
  return ids.filterMap fun id => (named.reverse.lookup id).map (id, ·)

end ChunkLoading.Graph
