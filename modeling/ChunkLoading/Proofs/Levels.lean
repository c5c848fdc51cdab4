import ChunkLoading.Proofs.Lists
import ChunkLoading.Proofs.Reachability
import Mathlib.Order.Lattice.Nat

/-!
# The search goes level by level

A group is at a distance: the least number of child steps that lead to it. The search over groups is a loop
over a queue, and `Graph.Search` is that loop without a bound; `Front` is its invariant: the queue holds
groups of one distance and behind them groups of the next one, and all nearer groups were queued before. So
groups are visited by increasing distance (`Search.ordered`), and so are the chunks that they bring
(`asyncChunks_by_distance`).
-/

namespace ChunkLoading.Graph

variable {g : Graph} {c x y : ChunkId} {n m : Nat} {seen queue level after : List String} {id id' : String}
  {group : Group} {visited : List Group}

/-! ## Distances -/

/-- The ids of the groups that are reached by a number of child steps from the groups of a chunk. -/
inductive ReachesIn (g : Graph) (c : ChunkId) : Nat → String → Prop where
  | child {group : Group} {id : String} (own : group ∈ g.groupsOf c) (member : id ∈ group.children) :
      ReachesIn g c 1 id
  | next {n : Nat} {group : Group} {id id' : String} (reached : ReachesIn g c n id)
      (found : g.group? id = some group) (member : id' ∈ group.children) : ReachesIn g c (n + 1) id'

/-- A chunk is reached by a number of child steps if a group that contains it is. -/
def ReachesChunkIn (g : Graph) (c : ChunkId) (n : Nat) (x : ChunkId) : Prop :=
  ∃ id group, g.ReachesIn c n id ∧ g.group? id = some group ∧ x ∈ group.chunks

/-- The least number of child steps that lead to a group. -/
def Distance (g : Graph) (c : ChunkId) (n : Nat) (id : String) : Prop :=
  IsLeast {n | g.ReachesIn c n id} n

/-- The least number of child steps that lead to a chunk. -/
def ChunkDistance (g : Graph) (c : ChunkId) (n : Nat) (x : ChunkId) : Prop :=
  IsLeast {n | g.ReachesChunkIn c n x} n

theorem reaches_iff : g.Reaches c id ↔ ∃ n, g.ReachesIn c n id := by
  constructor
  · intro reached
    induction reached with
    | child own member => exact ⟨1, .child own member⟩
    | next _ found member ih =>
      obtain ⟨n, reached⟩ := ih
      exact ⟨n + 1, .next reached found member⟩
  · rintro ⟨n, reached⟩
    induction reached with
    | child own member => exact .child own member
    | next _ found member ih => exact .next ih found member

/-- Whatever is reached is reached in a number of steps. -/
theorem reachesChunk_iff : g.ReachesChunk c x ↔ ∃ n, g.ReachesChunkIn c n x := by
  constructor
  · rintro ⟨id, group, reached, found, member⟩
    obtain ⟨n, reached⟩ := reaches_iff.mp reached
    exact ⟨n, id, group, reached, found, member⟩
  · rintro ⟨n, id, group, reached, found, member⟩
    exact ⟨id, group, reaches_iff.mpr ⟨n, reached⟩, found, member⟩

theorem ReachesIn.distance (reached : g.ReachesIn c n id) : ∃ m, m ≤ n ∧ g.Distance c m id := by
  have least : IsLeast {n | g.ReachesIn c n id} _ := isLeast_csInf ⟨n, reached⟩
  exact ⟨_, least.2 reached, least⟩

/-! ## The search as a loop -/

/-- The loop of the search: the first id of the queue is taken until none is left. A derivation is a run of
the loop that comes to its end, with the groups that it visits. -/
inductive Search (g : Graph) : List String → List String → List Group → Prop where
  | done (seen : List String) : Search g seen [] []
  /-- An id without a group is skipped. -/
  | skip {seen queue : List String} {id : String} {visited : List Group}
      (absent : g.group? id = none) (rest : Search g seen queue visited) :
      Search g seen (id :: queue) visited
  /-- A group is visited, and those of its children are queued that were not before. -/
  | visit {seen queue : List String} {id : String} {group : Group} {visited : List Group}
      (found : g.group? id = some group)
      (rest : Search g (seen ++ newIds group seen) (queue ++ newIds group seen) visited) :
      Search g seen (id :: queue) (group :: visited)

/-- The loop ends if the search has as many steps left as ids can still be taken from the queue. -/
theorem search_visit {fuel : Nat} (enough : queue.length + (g.unseen seen).length ≤ fuel) :
    g.Search seen queue (g.visit fuel seen queue) := by
  -- A step takes an id from the queue, and what it queues is no longer unseen: the bound shrinks.
  induction fuel generalizing seen queue with
  | zero =>
    have none : queue = [] := List.length_eq_zero_iff.mp (by omega)
    subst none
    exact .done seen
  | succ fuel ih =>
    cases queue with
    | nil => exact .done seen
    | cons id queue =>
      have left : queue.length + (g.unseen seen).length ≤ fuel := by
        rw [List.length_cons] at enough
        omega
      rw [Graph.visit]
      cases found : g.group? id with
      | none => exact .skip found (ih left)
      | some group =>
        -- What the group queues was unseen before.
        have count := length_unseen (group_mem found) seen
        have enough' : (queue ++ newIds group seen).length +
            (g.unseen (seen ++ newIds group seen)).length ≤ fuel := by
          rw [List.length_append]
          omega
        exact .visit found (ih enough')

theorem search_descendants (g : Graph) (c : ChunkId) :
    g.Search (childIds (g.groupsOf c)) (childIds (g.groupsOf c)) (g.descendants c) :=
  search_visit (descendants_bound g c)

/-! ## The front of the search -/

/-- Where the search stands when the ids at a distance are next: `level` are those that were not taken yet,
and `after` are those at the next distance that are known already. -/
structure Front (g : Graph) (c : ChunkId) (n : Nat) (seen level after : List String) : Prop where
  here : ∀ id ∈ level, g.Distance c n id
  beyond : ∀ id ∈ after, g.Distance c (n + 1) id
  /-- The search begins with the child groups. -/
  start : ∀ id, g.ReachesIn c 1 id → id ∈ seen
  /-- What is near was queued. -/
  near : ∀ id m, m ≤ n → g.Distance c m id → id ∈ seen
  /-- What was queued is not far. -/
  bounded : ∀ id ∈ seen, ∃ m, m ≤ n + 1 ∧ g.Distance c m id
  /-- What was queued at the next distance is still to be taken. -/
  waiting : ∀ id ∈ seen, g.Distance c (n + 1) id → id ∈ after
  /-- The children of the groups that were taken were queued. -/
  children : ∀ id, g.Distance c n id → ∀ group, g.group? id = some group →
    ∀ id' ∈ group.children, id' ∈ seen ∨ id ∈ level

/-- At the start all children of the chunk's groups are queued. -/
theorem front_start (g : Graph) (c : ChunkId) :
    g.Front c 0 (childIds (g.groupsOf c)) [] (childIds (g.groupsOf c)) := by
  have own {id : String} : id ∈ childIds (g.groupsOf c) ↔ g.ReachesIn c 1 id := by
    rw [mem_childIds]
    constructor
    · rintro ⟨group, own, member⟩
      exact .child own member
    · rintro (⟨own, member⟩ | ⟨reached, -, -⟩)
      · exact ⟨_, own, member⟩
      · cases reached
  -- Nothing is reached without a step.
  have positive {n : Nat} {id : String} (reached : g.ReachesIn c n id) : 1 ≤ n := by
    cases reached <;> omega
  have first {id : String} (member : id ∈ childIds (g.groupsOf c)) : g.Distance c 1 id :=
    ⟨own.mp member, fun _ reached => positive reached⟩
  refine ⟨by simp, fun id => first, fun id => own.mpr, ?_, fun id member => ⟨1, le_rfl, first member⟩,
    fun id member _ => member, ?_⟩
  · intro id m near distance
    have := positive distance.1
    omega
  · intro id distance
    have := positive distance.1
    omega

namespace Front

/-- When all ids at a distance were taken, those at the next one are complete. -/
theorem turn (front : g.Front c n seen [] after) : g.Front c (n + 1) seen after [] := by
  have near : ∀ id m, m ≤ n + 1 → g.Distance c m id → id ∈ seen := by
    intro id m below distance
    rcases Nat.lt_or_eq_of_le below with below | rfl
    · exact front.near id m (Nat.le_of_lt_succ below) distance
    · -- The last step to the id comes from a group at the distance that was dealt with.
      generalize level : n + 1 = k at distance
      obtain ⟨reached, least⟩ := distance
      cases reached with
      | child own member => exact front.start id (.child own member)
      | @next k' group before _ reached found member =>
        obtain rfl : n = k' := Nat.succ.inj level
        obtain ⟨m, below, distance⟩ := reached.distance
        have least : n + 1 ≤ m + 1 := least (ReachesIn.next distance.1 found member)
        obtain rfl : m = n := by omega
        rcases front.children before distance group found id member with known | left
        · exact known
        · cases left
  refine ⟨front.beyond, by simp, front.start, near, ?_, ?_, ?_⟩
  · -- Whatever is known is within the old bound, and so within the new one.
    intro id member
    obtain ⟨m, below, distance⟩ := front.bounded id member
    exact ⟨m, by omega, distance⟩
  · -- No id beyond the next distance is known yet.
    intro id member distance
    obtain ⟨m, below, distance'⟩ := front.bounded id member
    have := distance.unique distance'
    omega
  · intro id distance group _ id' _
    exact .inr (front.waiting id (near id (n + 1) le_rfl distance) distance)

/-- The first id of the queue is one of those that are next. -/
theorem head (front : g.Front c n seen level after) (split : level ++ after = id :: queue) :
    ∃ k level' after', n ≤ k ∧ queue = level' ++ after' ∧ g.Front c k seen (id :: level') after' := by
  cases level with
  | cons id' level =>
    obtain ⟨rfl, rfl⟩ := List.cons.inj split
    exact ⟨n, level, after, le_rfl, rfl, front⟩
  | nil =>
    obtain rfl : after = id :: queue := split
    exact ⟨n + 1, _, [], Nat.le_succ n, by simp, front.turn⟩

/-- An id that names no group leads nowhere. -/
theorem skip (front : g.Front c n seen (id :: level) after) (absent : g.group? id = none) :
    g.Front c n seen level after := by
  refine { front with
    here := fun id' member => front.here id' (List.mem_cons_of_mem _ member)
    children := ?_ }
  intro id' distance group found child member
  rcases front.children id' distance group found child member with known | left
  · exact .inl known
  · rcases List.mem_cons.mp left with rfl | left
    · rw [absent] at found
      cases found
    · exact .inr left

/-- The children of a group that were not queued before are one step further than the group. -/
theorem distance_of_new (front : g.Front c n seen (id :: level) after) (found : g.group? id = some group)
    (new : id' ∈ newIds group seen) : g.Distance c (n + 1) id' := by
  obtain ⟨member, unseen⟩ := mem_newIds.mp new
  have reached : g.ReachesIn c (n + 1) id' :=
    .next (front.here id List.mem_cons_self).1 found member
  refine ⟨reached, fun m reached' => ?_⟩
  obtain ⟨k, below, distance⟩ := reached'.distance
  by_contra nearer
  exact unseen (front.near id' k (by omega) distance)

theorem visit (front : g.Front c n seen (id :: level) after) (found : g.group? id = some group) :
    g.Front c n (seen ++ newIds group seen) level (after ++ newIds group seen) := by
  have old {id : String} (member : id ∈ seen) : id ∈ seen ++ newIds group seen :=
    List.mem_append_left _ member
  have new {id' : String} (member : id' ∈ newIds group seen) : g.Distance c (n + 1) id' :=
    front.distance_of_new found member
  refine ⟨fun id' member => front.here id' (List.mem_cons_of_mem _ member), ?_,
    fun id' reached => old (front.start id' reached),
    fun id' m below distance => old (front.near id' m below distance), ?_, ?_, ?_⟩
  · intro id' member
    rcases List.mem_append.mp member with member | member
    · exact front.beyond id' member
    · exact new member
  · intro id' member
    rcases List.mem_append.mp member with member | member
    · exact front.bounded id' member
    · exact ⟨n + 1, le_rfl, new member⟩
  · -- At the next distance, the new ids are queued behind those that were.
    intro id' member distance
    rcases List.mem_append.mp member with member | member
    · exact List.mem_append_left _ (front.waiting id' member distance)
    · exact List.mem_append_right _ member
  · intro id' distance group' found' child member
    rcases front.children id' distance group' found' child member with known | left
    · exact .inl (old known)
    · rcases List.mem_cons.mp left with rfl | left
      · -- The children of the group that is taken now are known, or they are new.
        obtain rfl := Option.some.inj (found.symm.trans found')
        by_cases known : child ∈ seen
        · exact .inl (old known)
        · exact .inl (List.mem_append_right _ (mem_newIds.mpr ⟨member, known⟩))
      · exact .inr left

end Front

/-! ## Groups by distance -/

/-- A group is not further than another one. -/
def NotFurther (g : Graph) (c : ChunkId) (a b : Group) : Prop :=
  ∀ m n, g.Distance c m a.id → g.Distance c n b.id → m ≤ n

/-- **The search visits groups by increasing distance.** -/
theorem Search.ordered (search : g.Search seen queue visited) (front : g.Front c n seen level after)
    (split : queue = level ++ after) : visited.Pairwise (g.NotFurther c) ∧
      ∀ group ∈ visited, g.group? group.id = some group ∧ ∃ m, n ≤ m ∧ g.Distance c m group.id := by
  -- Along the run the front moves on: with each id that is taken, and to the next distance at the end of one.
  induction search generalizing n level after with
  | done seen => exact ⟨.nil, by simp⟩
  | skip absent rest ih =>
    -- An id that names no group is passed over.
    obtain ⟨k, level', after', further, split, front⟩ := front.head split.symm
    obtain ⟨ordered, far⟩ := ih (front.skip absent) split
    refine ⟨ordered, fun group member => ?_⟩
    obtain ⟨found, m, below, distance⟩ := far group member
    exact ⟨found, m, further.trans below, distance⟩
  | @visit seen queue id group visited found rest ih =>
    obtain ⟨k, level', after', further, split, front⟩ := front.head split.symm
    -- The group that is taken is at the distance of the front, and the later ones are no nearer.
    have same : group.id = id := id_eq_of_group? found
    have distance : g.Distance c k group.id := same ▸ front.here id List.mem_cons_self
    obtain ⟨ordered, far⟩ := ih (front.visit found) (by rw [split, List.append_assoc])
    refine ⟨List.pairwise_cons.mpr ⟨fun later member => ?_, ordered⟩, fun other member => ?_⟩
    · intro m n first second
      obtain ⟨-, k', below, distance'⟩ := far later member
      have := first.unique distance
      have := second.unique distance'
      omega
    · rcases List.mem_cons.mp member with rfl | member
      · exact ⟨same ▸ found, k, further, distance⟩
      · obtain ⟨found', m, below, distance'⟩ := far other member
        exact ⟨found', m, further.trans below, distance'⟩

/-! ## Chunks by distance -/

/-- A chunk is not further than another one. -/
def ChunkNotFurther (g : Graph) (c x y : ChunkId) : Prop :=
  ∀ m n, g.ChunkDistance c m x → g.ChunkDistance c n y → m ≤ n

/-- Chunks that come earlier in groups ordered by distance are not further than those that come first later,
if all groups of the latter are among them. -/
theorem notFurther_of_flatMap (ordered : visited.Pairwise (g.NotFurther c))
    (found : ∀ group ∈ visited, g.group? group.id = some group ∧ ∃ m, g.Distance c m group.id)
    (all : ∀ group, g.group? group.id = some group → (∃ n, g.ReachesIn c n group.id) → y ∈ group.chunks →
      group ∈ visited)
    {before after : List ChunkId} (split : visited.flatMap (·.chunks) = before ++ y :: after)
    (first : y ∉ before) (member : x ∈ before) : g.ChunkNotFurther c x y := by
  obtain ⟨earlier, group, later, front, back, rfl, chunks, rfl⟩ := exists_of_flatMap split first
  intro m n nearest nearest'
  obtain ⟨id, group', reached, found', inside'⟩ := nearest'.1
  obtain rfl := id_eq_of_group? found'
  obtain ⟨k', below, distance'⟩ := reached.distance
  have late : group' ∈ group :: later := by
    rcases List.mem_append.mp (all group' found' ⟨n, reached⟩ inside') with early | late
    · exact absurd (List.mem_append_left _ (List.mem_flatMap.mpr ⟨group', early, inside'⟩)) first
    · exact late
  rw [List.pairwise_append, List.pairwise_cons] at ordered
  -- The one chunk is in a group that comes no later than the nearest group with the other one.
  obtain ⟨group'', visited, inside, before⟩ : ∃ group'' ∈ earlier ++ group :: later, x ∈ group''.chunks ∧
      (group'' = group' ∨ g.NotFurther c group'' group') := by
    rcases List.mem_append.mp member with member | member
    · obtain ⟨group'', early, inside⟩ := List.mem_flatMap.mp member
      exact ⟨group'', List.mem_append_left _ early, inside, .inr (ordered.2.2 group'' early group' late)⟩
    · refine ⟨group, List.mem_append_right _ List.mem_cons_self, ?_, ?_⟩
      · rw [chunks]
        exact List.mem_append_left _ member
      · rcases List.mem_cons.mp late with rfl | late
        · exact .inl rfl
        · exact .inr (ordered.2.1.1 group' late)
  obtain ⟨same, k, distance⟩ := found group'' visited
  have near : m ≤ k := nearest.2 ⟨group''.id, group'', distance.1, same, inside⟩
  rcases before with rfl | before
  · have := distance.unique distance'
    omega
  · have := before k k' distance distance'
    omega

/-- **Which chunks may be loaded later.** The search for them comes to its end, whatever cycles, repetitions
and ids without a group there are. It gives each chunk once: those that child steps lead to and that are not
loaded along with the chunk, and so neither the chunk itself nor one that shares a group with it. Chunks that
fewer steps lead to come first. -/
theorem asyncChunks_by_distance (g : Graph) (c : ChunkId) :
    g.Search (childIds (g.groupsOf c)) (childIds (g.groupsOf c)) (g.descendants c) ∧
    (g.asyncChunks c).Nodup ∧
    (∀ x, x ∈ g.asyncChunks c ↔ x ∉ g.initialChunks c ∧ ∃ n, g.ReachesChunkIn c n x) ∧
    (∀ x ∈ g.asyncChunks c, ∃ n, g.ChunkDistance c n x) ∧
    (g.asyncChunks c).Pairwise (g.ChunkNotFurther c) ∧
    c ∉ g.asyncChunks c ∧
    ∀ group ∈ g.groupsOf c, ∀ x ∈ group.chunks, x ∉ g.asyncChunks c := by
  have search := search_descendants g c
  have exact (x : ChunkId) :
      x ∈ g.asyncChunks c ↔ x ∉ g.initialChunks c ∧ ∃ n, g.ReachesChunkIn c n x := by
    rw [mem_asyncChunks, reachesChunk_iff, and_comm]
  have absent {x : ChunkId} (initial : x ∈ g.initialChunks c) : x ∉ g.asyncChunks c :=
    fun member => ((exact x).mp member).1 initial
  refine ⟨search, nodup_eraseDups _, exact, ?_, ?_, ?_, ?_⟩
  · -- Where there is a way, there is a shortest one.
    intro x member
    obtain ⟨-, n, reached⟩ := (exact x).mp member
    have least : IsLeast {n | g.ReachesChunkIn c n x} _ := isLeast_csInf ⟨n, reached⟩
    exact ⟨_, least⟩
  · -- Groups are visited in the order of their distances, and the first group with a chunk places it.
    obtain ⟨ordered, far⟩ := search.ordered (front_start g c) (List.nil_append _).symm
    refine pairwise_eraseDups fun before y after split first x member => ?_
    obtain ⟨before', after', split', first', earlier⟩ := exists_split_of_filter split first
    refine notFurther_of_flatMap ordered ?_ ?_ split' first' (earlier x member)
    · intro group visited
      obtain ⟨found, m, -, distance⟩ := far group visited
      exact ⟨found, m, distance⟩
    · intro group found reached _
      exact mem_descendants.mpr ⟨group.id, reaches_iff.mpr reached, found⟩
  · exact absent (List.mem_eraseDups.mpr List.mem_cons_self)
  · intro group own x member
    exact absent (List.mem_eraseDups.mpr
      (List.mem_cons_of_mem _ (List.mem_flatMap.mpr ⟨group, own, member⟩)))

end ChunkLoading.Graph
