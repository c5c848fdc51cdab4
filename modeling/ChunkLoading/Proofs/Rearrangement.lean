import ChunkLoading.Proofs.Needs
import Mathlib.Data.List.Perm.Basic

/-!
# Rearranged graphs

A build lists its chunks, groups and blocks in some order, and so it does the chunks and the children of each
group and the modules of each chunk. Graphs that differ in these orders alone are `Graph.Rearranged`. The search
over groups and the sort of children do follow these orders, but what they find is said by membership
(`mem_asyncChunks`, `mem_childChunks`), which is the same in any order. Each fact is shown one way, and the other
way is the same fact about the graphs exchanged.
-/

namespace ChunkLoading

/-! ## Rearranged lists -/

/-- A list has items that are related to those of another one, in any order. -/
def RearrangedBy {α : Type} (R : α → α → Prop) (l l' : List α) : Prop :=
  ∃ m, List.Forall₂ R l m ∧ m.Perm l'

namespace RearrangedBy

variable {α β : Type} {R : α → α → Prop} {l l' : List α} {a : α}

/-- What is related both ways may be exchanged. -/
theorem symm (back : ∀ a b, R a b → R b a) (same : RearrangedBy R l l') : RearrangedBy R l' l := by
  obtain ⟨m, related, perm⟩ := same
  have flipped : List.Forall₂ R m l := List.Forall₂.flip (related.imp fun a b => back a b)
  exact List.perm_comp_forall₂ perm.symm flipped

/-- Each item has its like in the other list. -/
theorem exists_of_mem (same : RearrangedBy R l l') (member : a ∈ l) : ∃ b ∈ l', R a b := by
  obtain ⟨m, related, perm⟩ := same
  obtain ⟨i, short, rfl⟩ := List.getElem_of_mem member
  have short' : i < m.length := related.length_eq ▸ short
  exact ⟨m[i], perm.mem_iff.mp (List.getElem_mem short'), related.get short short'⟩

/-- What is the same for related items is a permutation of what it was. -/
theorem map_perm {f : α → β} (same : RearrangedBy R l l') (agree : ∀ a b, R a b → f a = f b) :
    (l.map f).Perm (l'.map f) := by
  obtain ⟨m, related, perm⟩ := same
  have equal : l.map f = m.map f := by
    clear perm
    induction related with
    | nil => rfl
    | cons first _ ih => rw [List.map_cons, List.map_cons, agree _ _ first, ih]
  rw [equal]
  exact perm.map f

end RearrangedBy

/-! ## Rearranged parts -/

/-- Chunks that list their modules in different orders. -/
structure Chunk.Rearranged (a b : Chunk) : Prop where
  id : a.id = b.id
  name : a.name = b.name
  hash : a.hash = b.hash
  modules : a.modules.Perm b.modules

/-- Groups that list their chunks and children in different orders. -/
structure Group.Rearranged (a b : Group) : Prop where
  id : a.id = b.id
  kind : a.kind = b.kind
  entryModule : a.entryModule = b.entryModule
  prefetchOrder : a.prefetchOrder = b.prefetchOrder
  preloadOrder : a.preloadOrder = b.preloadOrder
  chunks : a.chunks.Perm b.chunks
  children : a.children.Perm b.children

/-- Chunks may be exchanged. -/
theorem Chunk.Rearranged.symm {a b : Chunk} (same : a.Rearranged b) : b.Rearranged a :=
  ⟨same.id.symm, same.name.symm, same.hash.symm, same.modules.symm⟩

/-- Groups may be exchanged. -/
theorem Group.Rearranged.symm {a b : Group} (same : a.Rearranged b) : b.Rearranged a :=
  ⟨same.id.symm, same.kind.symm, same.entryModule.symm, same.prefetchOrder.symm, same.preloadOrder.symm,
    same.chunks.symm, same.children.symm⟩

namespace Graph

/-- Groups that list their chunks in another order are hinted in the same place. -/
theorem ChildOrder.of_rearranged {a b : Group} (same : a.Rearranged b) (o : ChildOrder) : o.of a = o.of b := by
  cases o
  · exact same.prefetchOrder
  · exact same.preloadOrder

/-- Graphs that list the same chunks, groups and blocks in different orders, and so what is in them. -/
structure Rearranged (g g' : Graph) : Prop where
  hash : g.hash = g'.hash
  chunks : RearrangedBy Chunk.Rearranged g.chunks g'.chunks
  groups : RearrangedBy Group.Rearranged g.groups g'.groups
  blocks : g.blocks.Perm g'.blocks

variable {g g' : Graph} {c x : ChunkId} {o : ChildOrder} {group : Group} {id : String}

/-- A group of a valid graph is found by its id. -/
theorem Valid.group?_of_mem (valid : g.Valid) (member : group ∈ g.groups) : g.group? group.id = some group := by
  cases found : g.group? group.id with
  | none => exact absurd (List.find?_eq_none.mp found group member) (by simp)
  | some other =>
    rw [List.inj_on_of_nodup_map valid.groupIds (group_mem found) member (id_eq_of_group? found)]

namespace Rearranged

/-- Graphs may be exchanged. -/
theorem symm (same : g.Rearranged g') : g'.Rearranged g where
  hash := same.hash.symm
  chunks := same.chunks.symm fun _ _ => Chunk.Rearranged.symm
  groups := same.groups.symm fun _ _ => Group.Rearranged.symm
  blocks := same.blocks.symm

/-- The chunks have the same ids. -/
theorem chunkIds (same : g.Rearranged g') : (g.chunks.map (·.id)).Perm (g'.chunks.map (·.id)) :=
  same.chunks.map_perm fun _ _ like => like.id

/-- The groups have the same ids. -/
theorem groupIds (same : g.Rearranged g') : (g.groups.map (·.id)).Perm (g'.groups.map (·.id)) :=
  same.groups.map_perm fun _ _ like => like.id

/-- Whether a graph is valid is a matter of members and duplicates, not of order. -/
theorem valid (same : g.Rearranged g') (valid : g.Valid) : g'.Valid where
  texts := (same.chunks.map_perm fun _ _ like => congrArg Id.text like.id).nodup_iff.mp valid.texts
  groupIds := same.groupIds.nodup_iff.mp valid.groupIds
  chunks group' member c inside := by
    obtain ⟨group, member', like⟩ := same.symm.groups.exists_of_mem member
    exact same.chunkIds.mem_iff.mp (valid.chunks group member' c (like.chunks.mem_iff.mp inside))
  children group' member id child := by
    obtain ⟨group, member', like⟩ := same.symm.groups.exists_of_mem member
    exact same.groupIds.mem_iff.mp (valid.children group member' id (like.children.mem_iff.mp child))
  targets block member :=
    same.groupIds.mem_iff.mp (valid.targets block (same.blocks.mem_iff.mpr member))

/-! ## Queries in a rearranged graph -/

/-- An id leads to groups that are alike. In an invalid graph it could lead to another group of that id. -/
theorem exists_group? (same : g.Rearranged g') (valid : g.Valid) (found : g.group? id = some group) :
    ∃ group', g'.group? id = some group' ∧ group.Rearranged group' := by
  obtain ⟨group', member, like⟩ := same.groups.exists_of_mem (group_mem found)
  refine ⟨group', ?_, like⟩
  rw [← id_eq_of_group? found, like.id]
  exact (same.valid valid).group?_of_mem member

/-- Each group of a chunk has its like among the groups of that chunk. -/
theorem exists_groupsOf (same : g.Rearranged g') (own : group ∈ g.groupsOf c) :
    ∃ group' ∈ g'.groupsOf c, group.Rearranged group' := by
  obtain ⟨member, inside⟩ := mem_groupsOf.mp own
  obtain ⟨group', member', like⟩ := same.groups.exists_of_mem member
  exact ⟨group', mem_groupsOf.mpr ⟨member', like.chunks.mem_iff.mp inside⟩, like⟩

/-- The same groups are reached. -/
theorem reaches (same : g.Rearranged g') (valid : g.Valid) (reached : g.Reaches c id) : g'.Reaches c id := by
  -- Each step goes through a group, and that group has its like in the other graph.
  induction reached with
  | child own member =>
    obtain ⟨group', own', like⟩ := same.exists_groupsOf own
    exact .child own' (like.children.mem_iff.mp member)
  | next _ found member ih =>
    obtain ⟨group', found', like⟩ := same.exists_group? valid found
    exact .next ih found' (like.children.mem_iff.mp member)

/-- The same chunks are reached. -/
theorem reachesChunk (same : g.Rearranged g') (valid : g.Valid) (reached : g.ReachesChunk c x) :
    g'.ReachesChunk c x := by
  obtain ⟨id, group, reached, found, inside⟩ := reached
  obtain ⟨group', found', like⟩ := same.exists_group? valid found
  exact ⟨id, group', same.reaches valid reached, found', like.chunks.mem_iff.mp inside⟩

/-- The same chunks are there at first. -/
theorem mem_initialChunks (same : g.Rearranged g') (member : x ∈ g.initialChunks c) :
    x ∈ g'.initialChunks c := by
  rcases Graph.mem_initialChunks.mp member with itself | ⟨other, group, own, inside⟩
  · exact Graph.mem_initialChunks.mpr (.inl itself)
  · obtain ⟨group', own', like⟩ := same.exists_groupsOf own
    exact Graph.mem_initialChunks.mpr (.inr ⟨other, group', own', like.chunks.mem_iff.mp inside⟩)

/-- The same chunks may be loaded later. -/
theorem mem_asyncChunks (same : g.Rearranged g') (valid : g.Valid) (member : x ∈ g.asyncChunks c) :
    x ∈ g'.asyncChunks c := by
  obtain ⟨reached, later⟩ := Graph.mem_asyncChunks.mp member
  refine Graph.mem_asyncChunks.mpr ⟨same.reachesChunk valid reached, ?_⟩
  -- That a chunk is not there at first is a negation, so it needs the graphs exchanged.
  intro first
  exact later (same.symm.mem_initialChunks first)

/-- The same chunks are children of either class. -/
theorem mem_childChunks (same : g.Rearranged g') (valid : g.Valid) (member : x ∈ g.childChunks c o) :
    x ∈ g'.childChunks c o := by
  obtain ⟨other, own, listed, id, child, group, found, ordered, inside⟩ := Graph.mem_childChunks.mp member
  obtain ⟨own', listed', like⟩ := same.exists_groupsOf listed
  obtain ⟨group', found', like'⟩ := same.exists_group? valid found
  rw [ChildOrder.of_rearranged like'] at ordered
  exact Graph.mem_childChunks.mpr ⟨other, own', listed', id, like.children.mem_iff.mp child, group', found',
    ordered, like'.chunks.mem_iff.mp inside⟩

/-- A block that loads something does so in both. -/
theorem hasNonemptyBlock (same : g.Rearranged g') (valid : g.Valid) (some : g.hasNonemptyBlock = true) :
    g'.hasNonemptyBlock = true := by
  obtain ⟨block, member, group, found, chunks⟩ := hasNonemptyBlock_iff.mp some
  obtain ⟨group', found', like⟩ := same.exists_group? valid found
  refine hasNonemptyBlock_iff.mpr ⟨block, same.blocks.mem_iff.mp member, group', found', ?_⟩
  intro none
  have perm := like.chunks
  rw [none] at perm
  exact chunks perm.eq_nil

/-- A group with several chunks has several in both. -/
theorem defersEntries (same : g.Rearranged g') (defers : g.defersEntries c = true) :
    g'.defersEntries c = true := by
  obtain ⟨group, own, several⟩ := defersEntries_iff.mp defers
  obtain ⟨group', own', like⟩ := same.exists_groupsOf own
  exact defersEntries_iff.mpr ⟨group', own', like.chunks.length_eq ▸ several⟩

theorem chunkLoadingCode (same : g.Rearranged g') (needed : (g.requirementsOf c).chunkLoadingCode = true) :
    (g'.requirementsOf c).chunkLoadingCode = true := by
  obtain ⟨group, own, several | children⟩ := chunkLoadingCode_iff.mp needed
  · obtain ⟨group', own', like⟩ := same.exists_groupsOf own
    exact chunkLoadingCode_iff.mpr ⟨group', own', .inl (like.chunks.length_eq ▸ several)⟩
  · obtain ⟨group', own', like⟩ := same.exists_groupsOf own
    refine chunkLoadingCode_iff.mpr ⟨group', own', .inr ?_⟩
    intro none
    have perm := like.children
    rw [none] at perm
    exact children perm.eq_nil

/-- And so entries are deferred in both. -/
theorem needsEntryDeferral (same : g.Rearranged g') (valid : g.Valid)
    (needed : g.needsEntryDeferral = true) : g'.needsEntryDeferral = true := by
  obtain ⟨group, member, several⟩ := valid.needsEntryDeferral_iff.mp needed
  obtain ⟨group', member', like⟩ := same.groups.exists_of_mem member
  exact (same.valid valid).needsEntryDeferral_iff.mpr ⟨group', member', like.chunks.length_eq ▸ several⟩

/-! ## Both ways -/

/-- The chunks that may be loaded later are the same ones, each once. -/
theorem asyncChunks_perm (same : g.Rearranged g') (valid : g.Valid) (c : ChunkId) :
    (g.asyncChunks c).Perm (g'.asyncChunks c) := by
  -- Neither list has duplicates, so the same members make them permutations.
  refine (List.perm_ext_iff_of_nodup (nodup_eraseDups _) (nodup_eraseDups _)).mpr fun x => ?_
  exact ⟨same.mem_asyncChunks valid, same.symm.mem_asyncChunks (same.valid valid)⟩

/-- So are the children of either class. -/
theorem childChunks_perm (same : g.Rearranged g') (valid : g.Valid) (c : ChunkId) (o : ChildOrder) :
    (g.childChunks c o).Perm (g'.childChunks c o) := by
  refine (List.perm_ext_iff_of_nodup (nodup_eraseDups _) (nodup_eraseDups _)).mpr fun x => ?_
  exact ⟨same.mem_childChunks valid, same.symm.mem_childChunks (same.valid valid)⟩

/-- All requirements are the same. -/
theorem requirementsOf_eq (same : g.Rearranged g') (valid : g.Valid) (c : ChunkId) :
    g'.requirementsOf c = g.requirementsOf c := by
  have valid' := same.valid valid
  have async := (same.asyncChunks_perm valid c).isEmpty_eq
  have prefetch := (same.childChunks_perm valid c .prefetch).isEmpty_eq
  have blocks : g'.hasNonemptyBlock = g.hasNonemptyBlock :=
    Bool.eq_iff_iff.mpr ⟨same.symm.hasNonemptyBlock valid', same.hasNonemptyBlock valid⟩
  have defers : g'.defersEntries c = g.defersEntries c :=
    Bool.eq_iff_iff.mpr ⟨same.symm.defersEntries, same.defersEntries⟩
  have code : (g'.requirementsOf c).chunkLoadingCode = (g.requirementsOf c).chunkLoadingCode :=
    Bool.eq_iff_iff.mpr ⟨same.symm.chunkLoadingCode, same.chunkLoadingCode⟩
  simp only [requirementsOf, async, prefetch, blocks, defers, Requirements.mk.injEq, true_and, and_true]
  exact code

end Rearranged

/-- **Analysis does not depend on the order in which a build is listed.** Take a valid graph and another one that
lists the same chunks, groups and blocks in any orders, and so the chunks and children of each group and the
modules of each chunk. The other graph is valid too, entries are deferred in both builds or in none, and every
chunk id has the same requirements in both, or is a chunk of neither; the chunks that may be loaded later, and the
children of either class, are the same ones, each once. -/
theorem analysis_rearranged (passed : g.validate = .ok ()) (same : g.Rearranged g') :
    g'.validate = .ok () ∧ g'.needsEntryDeferral = g.needsEntryDeferral ∧
    ∀ c, g'.analyze? c = g.analyze? c ∧ (g'.asyncChunks c).Perm (g.asyncChunks c) ∧
      ∀ o, (g'.childChunks c o).Perm (g.childChunks c o) := by
  have valid := validate_ok.mp passed
  have valid' := same.valid valid
  refine ⟨validate_ok.mpr valid', ?_, fun c => ⟨?_, ?_, fun o => ?_⟩⟩
  · exact Bool.eq_iff_iff.mpr ⟨same.symm.needsEntryDeferral valid', same.needsEntryDeferral valid⟩
  · rw [analyze?_eq, analyze?_eq, same.requirementsOf_eq valid c]
    exact if_congr same.symm.chunkIds.mem_iff rfl rfl
  · exact (same.asyncChunks_perm valid c).symm
  · exact (same.childChunks_perm valid c o).symm

/-- A build with two chunks that are loaded together and two that one of them may load later. -/
def listedBuild : Graph where
  hash := some "0123"
  chunks := [⟨.number 1, none, [.name "a", .name "b"], none⟩, ⟨.number 2, none, [], none⟩,
    ⟨.number 3, none, [], none⟩, ⟨.number 4, none, [], none⟩]
  groups := [⟨"main", .entry, [.number 1, .number 2], ["late", "more"], some (.name "a"), none, none⟩,
    ⟨"late", .async, [.number 3], [], none, some 1, none⟩,
    ⟨"more", .async, [.number 4], [], none, some 1, none⟩]
  blocks := [⟨.name "a", "late"⟩, ⟨.name "b", "more"⟩]

/-- The same build in other orders. -/
def relistedBuild : Graph where
  hash := some "0123"
  chunks := [⟨.number 4, none, [], none⟩, ⟨.number 3, none, [], none⟩, ⟨.number 2, none, [], none⟩,
    ⟨.number 1, none, [.name "b", .name "a"], none⟩]
  groups := [⟨"more", .async, [.number 4], [], none, some 1, none⟩,
    ⟨"late", .async, [.number 3], [], none, some 1, none⟩,
    ⟨"main", .entry, [.number 2, .number 1], ["more", "late"], some (.name "a"), none, none⟩]
  blocks := [⟨.name "b", "more"⟩, ⟨.name "a", "late"⟩]

/-- The second listing has everything in reverse, so it is compared with the reverse of the first. -/
theorem listedBuild_rearranged : listedBuild.Rearranged relistedBuild where
  hash := rfl
  chunks := ⟨relistedBuild.chunks.reverse,
    .cons ⟨rfl, rfl, rfl, by decide⟩ (.cons ⟨rfl, rfl, rfl, .rfl⟩ (.cons ⟨rfl, rfl, rfl, .rfl⟩
      (.cons ⟨rfl, rfl, rfl, .rfl⟩ .nil))), List.reverse_perm _⟩
  groups := ⟨relistedBuild.groups.reverse,
    .cons ⟨rfl, rfl, rfl, rfl, rfl, by decide, by decide⟩ (.cons ⟨rfl, rfl, rfl, rfl, rfl, .rfl, .rfl⟩
      (.cons ⟨rfl, rfl, rfl, rfl, rfl, .rfl, .rfl⟩ .nil)), List.reverse_perm _⟩
  blocks := by decide

/-- The chunks that may be loaded later are found in another order, and they are the same. -/
theorem analysis_rearranged_listed : listedBuild.validate = .ok () ∧ listedBuild.Rearranged relistedBuild ∧
    relistedBuild.needsEntryDeferral = listedBuild.needsEntryDeferral ∧
    relistedBuild.analyze? (.number 1) = listedBuild.analyze? (.number 1) ∧
    (relistedBuild.asyncChunks (.number 1)).Perm (listedBuild.asyncChunks (.number 1)) ∧
    relistedBuild.asyncChunks (.number 1) ≠ listedBuild.asyncChunks (.number 1) := by
  have valid : listedBuild.validate = .ok () := by decide
  obtain ⟨-, deferral, same⟩ := analysis_rearranged valid listedBuild_rearranged
  obtain ⟨needs, later, -⟩ := same (.number 1)
  exact ⟨valid, listedBuild_rearranged, deferral, needs, later, by decide⟩

end Graph

end ChunkLoading
