import ChunkLoading.Proofs.Levels

/-!
# Child chunks in their order

Each child chunk has a place: the greatest order among the child groups that contain it, where the first
group of that order is met, and where the chunk stands in that group. A sort that keeps the order of equal
items and the removal of duplicates before and after it come to just this: the child chunks are listed by
their places (`childChunks_by_place`).
-/

namespace ChunkLoading

namespace Graph

variable {g : Graph} {c x y : ChunkId} {o : ChildOrder} {p q : Int32 × Group}

/-! ## Places -/

/-- The ids of the child groups of a chunk as they are met: group by group in the order of the graph, and in
each group in the order of its children. An id may be met more than once. -/
def metIds (g : Graph) (c : ChunkId) : List String := (g.groupsOf c).flatMap (·.children)

/-- The group of an id has an order in a class, and contains a chunk. -/
def Brings (g : Graph) (o : ChildOrder) (x : ChunkId) (v : Int32) (id : String) : Prop :=
  ∃ group, g.group? id = some group ∧ o.of group = some v ∧ x ∈ group.chunks

/-- Where a chunk stands among child chunks. -/
structure Place where
  order : Int32
  met : Nat
  position : Nat

/-- Higher orders come first, then groups that are met earlier, then earlier positions. -/
def Place.Before (a b : Place) : Prop :=
  b.order < a.order ∨
    a.order = b.order ∧ (a.met < b.met ∨ a.met = b.met ∧ a.position < b.position)

/-- The place of a chunk: the greatest order among the child groups that contain it, where the first group
of that order is met that contains it, and where the chunk first stands in that group. -/
structure HasPlace (g : Graph) (c : ChunkId) (o : ChildOrder) (x : ChunkId) (a : Place) : Prop where
  order : IsGreatest {v | ∃ id ∈ g.metIds c, g.Brings o x v id} a.order
  met : FirstAt (g.metIds c) (g.Brings o x a.order) a.met
  position : ∃ id group, (g.metIds c)[a.met]? = some id ∧ g.group? id = some group ∧
    FirstAt group.chunks (· = x) a.position

/-- A chunk has one place at most. -/
theorem HasPlace.unique {a b : Place} (one : g.HasPlace c o x a) (two : g.HasPlace c o x b) : a = b := by
  obtain ⟨order, met, position⟩ := a
  obtain ⟨order', met', position'⟩ := b
  obtain rfl : order = order' :=
    Int32.le_antisymm (two.order.2 one.order.1) (one.order.2 two.order.1)
  obtain rfl : met = met' := one.met.unique two.met
  obtain ⟨id, group, at_met, found, first⟩ := one.position
  obtain ⟨id', group', at_met', found', first'⟩ := two.position
  obtain rfl : id = id' := Option.some.inj (at_met.symm.trans at_met')
  obtain rfl : group = group' := Option.some.inj (found.symm.trans found')
  obtain rfl : position = position' := first.unique first'
  rfl

theorem Place.Before.asymm {a b : Place} (before : a.Before b) : ¬ b.Before a := by
  rintro (higher | ⟨same, later⟩) <;> rcases before with higher' | ⟨same', later'⟩
  · exact Int32.lt_irrefl (Int32.lt_trans higher higher')
  · exact Int32.lt_irrefl (same' ▸ higher)
  · exact Int32.lt_irrefl (same ▸ higher')
  · omega

/-! ## The list of children -/

/-- The ordered children are listed as they are met. -/
theorem orderedChildren_met (g : Graph) (c : ChunkId) (o : ChildOrder) :
    (g.orderedChildren c o).Pairwise fun p q =>
      (g.metIds c).idxOf p.2.id < (g.metIds c).idxOf q.2.id := by
  have ids : (g.metIds c).eraseDups.Pairwise fun a b =>
      (g.metIds c).idxOf a < (g.metIds c).idxOf b := by
    -- The ids that are kept are the first occurrences.
    refine pairwise_eraseDups fun before a after split first b member => ?_
    have index := List.idxOf_lt_length_of_mem member
    rw [split, List.idxOf_append, List.idxOf_append, if_pos member, if_neg first]
    omega
  have groups := ids.filterMap g.group? (S := fun a b =>
      (g.metIds c).idxOf a.id < (g.metIds c).idxOf b.id) fun a b earlier group found group' found' => by
    rw [id_eq_of_group? found, id_eq_of_group? found']
    exact earlier
  -- Groups without an order are left out, the others stay in place.
  refine groups.filterMap _ fun a b earlier p given q given' => ?_
  obtain ⟨v, -, rfl⟩ := Option.map_eq_some_iff.mp given
  obtain ⟨v', -, rfl⟩ := Option.map_eq_some_iff.mp given'
  exact earlier

/-- The ordered children, highest order first. -/
def sortedChildren (g : Graph) (c : ChunkId) (o : ChildOrder) : List (Int32 × Group) :=
  (g.orderedChildren c o).mergeSort fun x y => y.1 ≤ x.1

theorem childChunks_eq : g.childChunks c o =
    (((g.sortedChildren c o).flatMap (·.2.chunks)).filter (· ≠ c)).eraseDups := rfl

theorem mem_metIds {id : String} : id ∈ g.metIds c ↔ ∃ own ∈ g.groupsOf c, id ∈ own.children :=
  List.mem_flatMap

theorem mem_sortedChildren : p ∈ g.sortedChildren c o ↔
    p.2.id ∈ g.metIds c ∧ g.group? p.2.id = some p.2 ∧ o.of p.2 = some p.1 := by
  obtain ⟨v, group⟩ := p
  rw [mem_metIds, ← mem_orderedChildren]
  exact (List.mergeSort_perm ..).mem_iff

/-- Of two ordered children the one with the higher order comes first, and of those with the same order the
one that is met first. -/
def Precedes (g : Graph) (c : ChunkId) (p q : Int32 × Group) : Prop :=
  q.1 < p.1 ∨ p.1 = q.1 ∧ (g.metIds c).idxOf p.2.id < (g.metIds c).idxOf q.2.id

/-- The children are sorted by their order, and among equals by where they are met. -/
theorem sortedChildren_precedes (g : Graph) (c : ChunkId) (o : ChildOrder) :
    (g.sortedChildren c o).Pairwise (g.Precedes c) := by
  have met := g.orderedChildren_met c o
  -- Stability is about items that are listed once, and these are: each is met at an index of its own.
  have once : (g.orderedChildren c o).Nodup := met.imp fun earlier same => by
    rw [same] at earlier
    exact Nat.lt_irrefl _ earlier
  refine (pairwise_mergeSort_stable ?_ ?_ once met).imp ?_
  · intro p q r higher higher'
    simp only [decide_eq_true_eq] at higher higher' ⊢
    exact Int32.le_trans higher' higher
  · intro p q
    simpa using Int32.le_total q.1 p.1
  · rintro p q ⟨higher, stable⟩
    simp only [decide_eq_true_eq] at higher stable
    by_cases same : p.1 = q.1
    · exact .inr ⟨same, stable (same ▸ Int32.le_refl _)⟩
    · exact .inl (Int32.lt_of_le_of_ne higher (Ne.symm same))

/-! ## The order of the chunks -/

/-- The first child in the sorted list that contains a chunk gives the chunk its place. -/
theorem hasPlace_of_first {before after : List (Int32 × Group)}
    (split : g.sortedChildren c o = before ++ p :: after) (inside : x ∈ p.2.chunks)
    (first : ∀ q ∈ before, x ∉ q.2.chunks) :
    g.HasPlace c o x ⟨p.1, (g.metIds c).idxOf p.2.id, p.2.chunks.idxOf x⟩ := by
  have ordered := g.sortedChildren_precedes c o
  rw [split, List.pairwise_append, List.pairwise_cons] at ordered
  -- Every other child that contains the chunk comes later.
  have later (v : Int32) (id : String) (met : id ∈ g.metIds c) (brings : g.Brings o x v id) :
      v = p.1 ∧ id = p.2.id ∨
        v < p.1 ∨ p.1 = v ∧ (g.metIds c).idxOf p.2.id < (g.metIds c).idxOf id := by
    obtain ⟨group, found, given, inside'⟩ := brings
    obtain rfl := id_eq_of_group? found
    have member : (v, group) ∈ g.sortedChildren c o :=
      mem_sortedChildren.mpr ⟨met, found, given⟩
    rw [split] at member
    rcases List.mem_append.mp member with early | member
    · exact absurd inside' (first _ early)
    · rcases List.mem_cons.mp member with rfl | late
      · exact .inl ⟨rfl, rfl⟩
      · have precedes : g.Precedes c p (v, group) := ordered.2.1.1 _ late
        exact .inr precedes
  have member : p ∈ g.sortedChildren c o := by
    rw [split]
    exact List.mem_append_right _ List.mem_cons_self
  obtain ⟨met, found, given⟩ := mem_sortedChildren.mp member
  have at_met := List.getElem?_idxOf met
  -- The order of this child is the greatest, and it is met first among those of its order.
  refine ⟨⟨⟨p.2.id, met, p.2, found, given, inside⟩, ?_⟩, ⟨⟨p.2.id, at_met, p.2, found, given, inside⟩, ?_⟩,
    p.2.id, p.2, at_met, found, firstAt_idxOf inside⟩
  · rintro v ⟨id, met', brings⟩
    rcases later v id met' brings with ⟨rfl, -⟩ | lower | ⟨same, -⟩
    · exact Int32.le_refl _
    · exact Int32.le_of_lt lower
    · exact same ▸ Int32.le_refl _
  · intro j (earlier : j < (g.metIds c).idxOf p.2.id) id at_j brings
    have index := idxOf_le_of_getElem? at_j
    rcases later p.1 id (List.mem_of_getElem? at_j) brings with ⟨-, rfl⟩ | lower | ⟨-, after'⟩
    · omega
    · exact Int32.lt_irrefl lower
    · omega

/-- A chunk that comes before the first occurrence of another one has the earlier place. -/
theorem before_of_split {before after : List ChunkId}
    (split : (g.sortedChildren c o).flatMap (·.2.chunks) = before ++ y :: after) (first : y ∉ before)
    (member : x ∈ before) : ∃ a b, g.HasPlace c o x a ∧ g.HasPlace c o y b ∧ a.Before b := by
  obtain ⟨ps, p, qs, front, back, sorted, chunks, rfl⟩ := exists_of_flatMap split first
  rw [List.mem_append, not_or] at first
  have none : ∀ q ∈ ps, y ∉ q.2.chunks := fun q early inside =>
    first.1 (List.mem_flatMap.mpr ⟨q, early, inside⟩)
  have second := hasPlace_of_first sorted (chunks ▸ by simp) none
  by_cases early : ∃ q ∈ ps, x ∈ q.2.chunks
  · -- The first child with the one chunk comes before the first child with the other.
    have hit : (ps.find? fun q => x ∈ q.2.chunks).isSome = true := by simpa using early
    obtain ⟨q, found⟩ := Option.isSome_iff_exists.mp hit
    obtain ⟨inside, ps₁, ps₂, rfl, none'⟩ := List.find?_eq_some_iff_append.mp found
    have split' : g.sortedChildren c o = ps₁ ++ q :: (ps₂ ++ p :: qs) := by simp [sorted]
    have ordered := g.sortedChildren_precedes c o
    rw [sorted, List.pairwise_append] at ordered
    refine ⟨_, _, hasPlace_of_first split' (by simpa using inside) ?_, second, ?_⟩
    · intro q' before
      simpa using none' q' before
    · rcases ordered.2.2 q (by simp) p List.mem_cons_self with higher | ⟨same, earlier⟩
      · exact .inl higher
      · exact .inr ⟨same, .inl earlier⟩
  · -- Both chunks first come in the same child.
    have late : x ∈ front := by
      rcases List.mem_append.mp member with member | member
      · exact absurd (List.mem_flatMap.mp member) early
      · exact member
    have none' : ∀ q ∈ ps, x ∉ q.2.chunks := fun q member inside => early ⟨q, member, inside⟩
    refine ⟨_, _, hasPlace_of_first sorted (chunks ▸ by simp [late]) none', second, ?_⟩
    refine .inr ⟨rfl, .inr ⟨rfl, ?_⟩⟩
    have index := List.idxOf_lt_length_of_mem late
    show p.2.chunks.idxOf x < p.2.chunks.idxOf y
    rw [chunks, List.idxOf_append, List.idxOf_append, if_pos late, if_neg first.2]
    omega

theorem nodup_childChunks (g : Graph) (c : ChunkId) (o : ChildOrder) : (g.childChunks c o).Nodup :=
  nodup_eraseDups _

/-- The child chunks are listed by their places. -/
theorem childChunks_places (g : Graph) (c : ChunkId) (o : ChildOrder) :
    (g.childChunks c o).Pairwise fun x y =>
      ∃ a b, g.HasPlace c o x a ∧ g.HasPlace c o y b ∧ a.Before b := by
  rw [childChunks_eq]
  refine pairwise_eraseDups fun before y after split first x member => ?_
  -- What is left out of the list is the chunk itself.
  obtain ⟨before', after', split', first', earlier⟩ := exists_split_of_filter split first
  exact before_of_split split' first' (earlier x member)

/-- Every child chunk has a place. -/
theorem exists_place (member : x ∈ g.childChunks c o) : ∃ a, g.HasPlace c o x a := by
  obtain ⟨-, own, met, id, child, group, found, ordered, inside⟩ := mem_childChunks.mp member
  obtain ⟨v, given⟩ := Option.isSome_iff_exists.mp ordered
  obtain rfl := id_eq_of_group? found
  have listed : (v, group) ∈ g.sortedChildren c o :=
    mem_sortedChildren.mpr ⟨mem_metIds.mpr ⟨own, met, child⟩, found, given⟩
  have occurs : x ∈ (g.sortedChildren c o).flatMap (·.2.chunks) := List.mem_flatMap.mpr ⟨_, listed, inside⟩
  obtain ⟨before, after, split, first⟩ := List.eq_append_cons_of_mem occurs
  obtain ⟨ps, p, qs, front, back, sorted, chunks, rfl⟩ := exists_of_flatMap split first
  refine ⟨_, hasPlace_of_first sorted (chunks ▸ by simp) fun q early inside' => ?_⟩
  exact first (List.mem_append_left _ (List.mem_flatMap.mpr ⟨q, early, inside'⟩))

/-- **Child chunks are listed by their places.** Take any graph, any chunk and either ordering class. The
child chunks are, each once, the chunks other than the chunk itself that are in a child group of its groups
with an order in the class. Each of them has exactly one place: the greatest order among these groups that
contain it, where the first group of that order is met that contains it, and where it stands in that group.
One chunk comes before another exactly if its place does: by a higher order, or else by a group that is met
earlier, or else by standing earlier in the same group. -/
theorem childChunks_by_place (g : Graph) (c : ChunkId) (o : ChildOrder) :
    (g.childChunks c o).Nodup ∧
    (∀ x, x ∈ g.childChunks c o ↔ x ≠ c ∧ ∃ own ∈ g.groupsOf c, ∃ id ∈ own.children, ∃ group,
      g.group? id = some group ∧ (o.of group).isSome ∧ x ∈ group.chunks) ∧
    (∀ x ∈ g.childChunks c o, ∃! a, g.HasPlace c o x a) ∧
    ∀ x ∈ g.childChunks c o, ∀ y ∈ g.childChunks c o, ∀ a b, g.HasPlace c o x a → g.HasPlace c o y b →
      ([x, y].Sublist (g.childChunks c o) ↔ a.Before b) := by
  refine ⟨nodup_childChunks g c o, fun x => mem_childChunks, ?_, ?_⟩
  · intro x member
    obtain ⟨a, place⟩ := exists_place member
    exact ⟨a, place, fun b place' => place'.unique place⟩
  · intro x inside y inside' a b place place'
    -- The places are unique, so those that the list goes by are those that are given.
    have listed {x y : ChunkId} {a b : Place} (before : [x, y].Sublist (g.childChunks c o))
        (place : g.HasPlace c o x a) (place' : g.HasPlace c o y b) : a.Before b := by
      obtain ⟨a', b', one, two, before⟩ :=
        List.pairwise_iff_forall_sublist.mp (g.childChunks_places c o) before
      rwa [place.unique one, place'.unique two]
    constructor
    · exact fun before => listed before place place'
    · intro before
      have other : x ≠ y := by
        rintro rfl
        obtain rfl := place.unique place'
        exact before.asymm before
      -- One of the chunks is listed before the other, and then its place comes first too.
      rcases pair_sublist_or inside inside' other with forth | back
      · exact forth
      · exact absurd (listed back place' place) before.asymm

/-- Chunk `3` is in both child groups, and comes first by the higher order of the later one. -/
example : Graph.childChunks ⟨none, [], [⟨"main", .entry, [.number 1], ["a", "b"], none, none, none⟩,
    ⟨"a", .async, [.number 2, .number 3], [], none, some 1, none⟩,
    ⟨"b", .async, [.number 3], [], none, some 2, none⟩], []⟩ (.number 1) .prefetch =
      [.number 3, .number 2] := by cbv

end Graph

end ChunkLoading
