import ChunkLoading.Graph.Query
import ChunkLoading.Proofs.Lists
import ChunkLoading.Proofs.Store
import Mathlib.Data.List.Perm.Subperm

/-!
# Groups that are reached

`Graph.Reaches` says which groups are reached from a chunk through child groups. The breadth first
search finds exactly those (`mem_descendants`), whatever cycles and repetitions the graph has: every id
is queued at most once, so that the search is over before its bound is used up.
-/

namespace ChunkLoading.Graph

variable {g : Graph} {c x : ChunkId} {fuel : Nat} {seen queue : List String} {id : String}
  {group : Group}

/-- The ids of the groups that are reached through child groups from the groups of a chunk. -/
inductive Reaches (g : Graph) (c : ChunkId) : String → Prop where
  | child {group : Group} {id : String} (own : group ∈ g.groupsOf c) (member : id ∈ group.children) :
      Reaches g c id
  | next {group : Group} {id id' : String} (reached : Reaches g c id)
      (found : g.group? id = some group) (member : id' ∈ group.children) : Reaches g c id'

/-- A chunk is reached if it is in a group that is. -/
def ReachesChunk (g : Graph) (c x : ChunkId) : Prop :=
  ∃ id group, g.Reaches c id ∧ g.group? id = some group ∧ x ∈ group.chunks

theorem mem_childIds {groups : List Group} :
    id ∈ childIds groups ↔ ∃ group ∈ groups, id ∈ group.children := by
  rw [childIds, List.mem_eraseDups, List.mem_flatMap]

theorem group_mem (found : g.group? id = some group) : group ∈ g.groups :=
  List.mem_of_find?_eq_some found

theorem id_eq_of_group? (found : g.group? id = some group) : group.id = id := by
  simpa using List.find?_some found

/-! ## What is visited is reached -/

theorem reaches_of_mem_visit (reached : ∀ id ∈ queue, g.Reaches c id)
    (visited : group ∈ g.visit fuel seen queue) :
    ∃ id, g.Reaches c id ∧ g.group? id = some group := by
  induction fuel generalizing seen queue with
  | zero => simp [visit] at visited
  | succ fuel ih =>
    cases queue with
    | nil => simp [visit] at visited
    | cons id queue =>
      have later : ∀ id ∈ queue, g.Reaches c id :=
        fun id' member => reached id' (List.mem_cons_of_mem _ member)
      rw [visit] at visited
      cases found : g.group? id with
      | none =>
        rw [found] at visited
        exact ih later visited
      | some first =>
        rw [found] at visited
        -- The group is the first of the queue, or it is visited later.
        rcases List.mem_cons.mp visited with rfl | visited
        · exact ⟨id, reached id List.mem_cons_self, found⟩
        · refine ih ?_ visited
          intro id' member
          rcases List.mem_append.mp member with member | member
          · exact later id' member
          · -- The new ids are those of children of a group that is reached.
            obtain ⟨group', own, child⟩ := mem_childIds.mp (List.mem_filter.mp member).1
            obtain rfl := List.mem_singleton.mp own
            exact .next (reached id List.mem_cons_self) found child

/-! ## What is reached is visited -/

/-- The ids of all child groups, each once. -/
def allChildIds (g : Graph) : List String := childIds g.groups

/-- The ids that were not queued yet. -/
def unseen (g : Graph) (seen : List String) : List String :=
  g.allChildIds.filter (!seen.contains ·)

/-- The ids that a group queues. -/
def newIds (group : Group) (seen : List String) : List String :=
  (childIds [group]).filter (!seen.contains ·)

theorem mem_newIds : id ∈ newIds group seen ↔ id ∈ group.children ∧ id ∉ seen := by
  rw [newIds, List.mem_filter, mem_childIds]
  simp

theorem nodup_newIds (group : Group) (seen : List String) : (newIds group seen).Nodup :=
  (nodup_eraseDups _).filter _

theorem mem_unseen : id ∈ g.unseen seen ↔ id ∈ g.allChildIds ∧ id ∉ seen := by
  rw [unseen, List.mem_filter]
  simp

theorem nodup_unseen (g : Graph) (seen : List String) : (g.unseen seen).Nodup :=
  (nodup_eraseDups _).filter _

/-- What a group queues is not unseen any more. -/
theorem length_unseen (member : group ∈ g.groups) (seen : List String) :
    (newIds group seen).length + (g.unseen (seen ++ newIds group seen)).length =
      (g.unseen seen).length := by
  have apart : (newIds group seen ++ g.unseen (seen ++ newIds group seen)).Nodup := by
    refine List.nodup_append.mpr ⟨nodup_newIds group seen, nodup_unseen g _, ?_⟩
    rintro id new _ later rfl
    exact (mem_unseen.mp later).2 (List.mem_append_right _ new)
  have same : (newIds group seen ++ g.unseen (seen ++ newIds group seen)).Perm (g.unseen seen) := by
    refine (List.perm_ext_iff_of_nodup apart (nodup_unseen g seen)).mpr fun id => ?_
    have known : id ∈ group.children → id ∈ g.allChildIds :=
      fun child => mem_childIds.mpr ⟨group, member, child⟩
    rw [List.mem_append, mem_newIds, mem_unseen, mem_unseen, List.mem_append, mem_newIds]
    by_cases child : id ∈ group.children <;> by_cases old : id ∈ seen <;> simp [child, old, known]
  rw [← List.length_append, same.length_eq]

/-- What a search from a queue is to find: the groups on the queue, and with every group its children,
unless they were queued before. -/
structure Closed (g : Graph) (seen queue : List String) (visited : List Group) : Prop where
  queued : ∀ id ∈ queue, ∀ group, g.group? id = some group → group ∈ visited
  children : ∀ group ∈ visited, ∀ id ∈ group.children, id ∈ seen ∨
    ∀ group', g.group? id = some group' → group' ∈ visited

/-- An id without a group brings nothing. -/
theorem Closed.skip {visited : List Group} (closed : g.Closed seen queue visited)
    (absent : g.group? id = none) : g.Closed seen (id :: queue) visited where
  queued id' member group' found := by
    rcases List.mem_cons.mp member with rfl | member
    · rw [absent] at found
      cases found
    · exact closed.queued id' member group' found
  children := closed.children

/-- A group is visited, and its children are queued unless they were before. -/
theorem Closed.visit {visited : List Group} (found : g.group? id = some group)
    (closed : g.Closed (seen ++ newIds group seen) (queue ++ newIds group seen) visited) :
    g.Closed seen (id :: queue) (group :: visited) where
  queued id' member group' found' := by
    rcases List.mem_cons.mp member with rfl | member
    · rw [found] at found'
      cases found'
      exact List.mem_cons_self
    · exact List.mem_cons_of_mem _ (closed.queued id' (List.mem_append_left _ member) group' found')
  children group' member id' child := by
    -- What is known afterwards was seen before, or it is queued now.
    have known (known : id' ∈ seen ++ newIds group seen) : id' ∈ seen ∨
        ∀ group', g.group? id' = some group' → group' ∈ group :: visited := by
      rcases List.mem_append.mp known with old | new
      · exact .inl old
      · exact .inr fun group' found' => List.mem_cons_of_mem _
          (closed.queued id' (List.mem_append_right _ new) group' found')
    rcases List.mem_cons.mp member with rfl | member
    · refine known ?_
      by_cases old : id' ∈ seen
      · exact List.mem_append_left _ old
      · exact List.mem_append_right _ (mem_newIds.mpr ⟨child, old⟩)
    · rcases closed.children group' member id' child with old | later
      · exact known old
      · exact .inr fun group'' found'' => List.mem_cons_of_mem _ (later group'' found'')

/-- A search finds what it is to find if it has as many steps left as ids can still be taken from the
queue. -/
theorem visit_closed (enough : queue.length + (g.unseen seen).length ≤ fuel) :
    g.Closed seen queue (g.visit fuel seen queue) := by
  induction fuel generalizing seen queue with
  | zero =>
    have none : queue = [] := List.length_eq_zero_iff.mp (by omega)
    subst none
    exact ⟨nofun, nofun⟩
  | succ fuel ih =>
    cases queue with
    | nil => exact ⟨nofun, nofun⟩
    | cons id queue =>
      have left : queue.length + (g.unseen seen).length ≤ fuel := by
        rw [List.length_cons] at enough
        omega
      rw [Graph.visit]
      cases found : g.group? id with
      | none => exact (ih left).skip found
      | some group =>
        have count := length_unseen (group_mem found) seen
        have enough' : (queue ++ newIds group seen).length +
            (g.unseen (seen ++ newIds group seen)).length ≤ fuel := by
          rw [List.length_append]
          omega
        exact (ih enough').visit found

/-- The search from a chunk has steps enough: each id is queued once, and is one of all children. -/
theorem descendants_bound (g : Graph) (c : ChunkId) :
    (childIds (g.groupsOf c)).length + (g.unseen (childIds (g.groupsOf c))).length ≤
      (g.groups.flatMap (·.children)).length := by
  let start := childIds (g.groupsOf c)
  have own : ∀ group ∈ g.groupsOf c, group ∈ g.groups :=
    fun group member => (List.mem_filter.mp member).1
  have apart : (start ++ g.unseen start).Nodup := by
    refine List.nodup_append.mpr ⟨nodup_eraseDups _, nodup_unseen g start, ?_⟩
    rintro id first _ later rfl
    exact (mem_unseen.mp later).2 first
  have subset : start ++ g.unseen start ⊆ g.groups.flatMap (·.children) := by
    intro id member
    rcases List.mem_append.mp member with first | later
    · obtain ⟨group, member, child⟩ := mem_childIds.mp first
      exact List.mem_flatMap.mpr ⟨group, own group member, child⟩
    · obtain ⟨group, member, child⟩ := mem_childIds.mp (mem_unseen.mp later).1
      exact List.mem_flatMap.mpr ⟨group, member, child⟩
  rw [← List.length_append]
  exact (apart.subperm subset).length_le

/-- **The search finds exactly the groups that are reached.** -/
theorem mem_descendants :
    group ∈ g.descendants c ↔ ∃ id, g.Reaches c id ∧ g.group? id = some group := by
  constructor
  · refine reaches_of_mem_visit fun id member => ?_
    obtain ⟨group, own, child⟩ := mem_childIds.mp member
    exact .child own child
  · obtain ⟨queued, closed⟩ := visit_closed (descendants_bound g c)
    rintro ⟨id, reached, found⟩
    induction reached generalizing group with
    | child own' member => exact queued _ (mem_childIds.mpr ⟨_, own', member⟩) group found
    | next _ found' member ih =>
      rcases closed _ (ih found') _ member with first | later
      · exact queued _ first group found
      · exact later group found

/-! ## Chunks -/

/-- The chunks that may be loaded later are those that are reached and not loaded along with the chunk. -/
theorem mem_asyncChunks :
    x ∈ g.asyncChunks c ↔ g.ReachesChunk c x ∧ x ∉ g.initialChunks c := by
  have reached : (∃ group ∈ g.descendants c, x ∈ group.chunks) ↔ g.ReachesChunk c x := by
    constructor
    · rintro ⟨group, visited, member⟩
      obtain ⟨id, reached, found⟩ := mem_descendants.mp visited
      exact ⟨id, group, reached, found, member⟩
    · rintro ⟨id, group, reached, found, member⟩
      exact ⟨group, mem_descendants.mpr ⟨id, reached, found⟩, member⟩
  rw [asyncChunks, List.mem_eraseDups, List.mem_filter, List.mem_flatMap, reached]
  simp

/-- The ordered children are those child groups that have an order. -/
theorem mem_orderedChildren {o : ChildOrder} {v : Int32} : (v, group) ∈ g.orderedChildren c o ↔
    (∃ own ∈ g.groupsOf c, group.id ∈ own.children) ∧ g.group? group.id = some group ∧ o.of group = some v := by
  simp only [orderedChildren, List.mem_filterMap, mem_childIds]
  constructor
  · rintro ⟨group', ⟨id, met, found⟩, ordered⟩
    obtain ⟨v', given, same⟩ := Option.map_eq_some_iff.mp ordered
    obtain ⟨rfl, rfl⟩ := Prod.mk.inj same
    obtain rfl := id_eq_of_group? found
    exact ⟨met, found, given⟩
  · rintro ⟨met, found, given⟩
    exact ⟨group, ⟨group.id, met, found⟩, by rw [given]; rfl⟩

/-- The child chunks are the other chunks of the child groups that have an order. -/
theorem mem_childChunks {o : ChildOrder} : x ∈ g.childChunks c o ↔
    x ≠ c ∧ ∃ own ∈ g.groupsOf c, ∃ id ∈ own.children, ∃ group, g.group? id = some group ∧
      (o.of group).isSome ∧ x ∈ group.chunks := by
  have sorted (p : Int32 × Group) : p ∈ (g.orderedChildren c o).mergeSort (fun x y => y.1 ≤ x.1) ↔
      p ∈ g.orderedChildren c o := (List.mergeSort_perm ..).mem_iff
  simp only [childChunks, List.mem_eraseDups, List.mem_filter, List.mem_flatMap, sorted]
  constructor
  · rintro ⟨⟨⟨v, group⟩, listed, inside⟩, other⟩
    obtain ⟨⟨own, member, child⟩, found, given⟩ := mem_orderedChildren.mp listed
    exact ⟨by simpa using other, own, member, group.id, child, group, found, by rw [given]; rfl, inside⟩
  · rintro ⟨other, own, member, id, child, group, found, ordered, inside⟩
    obtain ⟨v, given⟩ := Option.isSome_iff_exists.mp ordered
    obtain rfl := id_eq_of_group? found
    exact ⟨⟨(v, group), mem_orderedChildren.mpr ⟨⟨own, member, child⟩, found, given⟩, inside⟩, by simpa using other⟩

/-- A child chunk is in a child group of one of the chunk's groups. -/
theorem exists_of_mem_childChunks {o : ChildOrder} (member : x ∈ g.childChunks c o) :
    x ≠ c ∧ ∃ own ∈ g.groupsOf c, ∃ id ∈ own.children, ∃ group, g.group? id = some group ∧
      x ∈ group.chunks := by
  obtain ⟨other, own, listed, id, child, group, found, -, inside⟩ := mem_childChunks.mp member
  exact ⟨other, own, listed, id, child, group, found, inside⟩

/-- The child chunks of a chunk are reached from it. -/
theorem reachesChunk_of_childChunks {o : ChildOrder} (member : x ∈ g.childChunks c o) :
    g.ReachesChunk c x := by
  obtain ⟨-, own, member, id, child, group, found, inside⟩ := exists_of_mem_childChunks member
  exact ⟨id, group, .child member child, found, inside⟩

end ChunkLoading.Graph
