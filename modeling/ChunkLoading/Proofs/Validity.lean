import ChunkLoading.Config.Document
import ChunkLoading.Graph.Validity
import ChunkLoading.Proofs.Fallible
import ChunkLoading.Proofs.Lists
import Mathlib.Data.List.Nodup

/-!
# What the checks of inputs establish

`validate` accepts exactly the graphs that are `Valid`: their parts can be told apart, and all that they
refer to is there. The templates of a configuration that can be read are templates.
-/

namespace ChunkLoading

namespace Graph

variable {g : Graph}

/-- The parts of a graph can be told apart, and all that they refer to is there. -/
structure Valid (g : Graph) : Prop where
  texts : (g.chunks.map (·.id.text)).Nodup
  groupIds : (g.groups.map (·.id)).Nodup
  chunks : ∀ group ∈ g.groups, ∀ c ∈ group.chunks, c ∈ g.chunks.map (·.id)
  children : ∀ group ∈ g.groups, ∀ id ∈ group.children, id ∈ g.groups.map (·.id)
  targets : ∀ block ∈ g.blocks, block.group ∈ g.groups.map (·.id)

theorem expect_ok {ok : Bool} {fault : GraphFault} : expect ok fault = .ok () ↔ ok = true := by
  cases ok <;> simp [expect]

theorem checkChunkIds_ok {seen ids : List ChunkId} : checkChunkIds seen ids = .ok () ↔
    (ids.map Id.text).Nodup ∧ ∀ id ∈ ids, ∀ other ∈ seen, other.text ≠ id.text := by
  induction ids generalizing seen with
  | nil => simp [checkChunkIds]
  | cons id ids ih =>
    rw [checkChunkIds]
    cases found : seen.find? (·.text = id.text) with
    | some other =>
      have member : other ∈ seen := List.mem_of_find?_eq_some found
      have same : other.text = id.text := by simpa using List.find?_some found
      simp only [reduceCtorEq, false_iff]
      intro ⟨_, fresh⟩
      exact fresh id List.mem_cons_self other member same
    | none =>
      have fresh : ∀ other ∈ seen, other.text ≠ id.text := by
        simpa using List.find?_eq_none.mp found
      -- The id is seen from here on, so that later ones are told apart from it.
      rw [ih, List.map_cons, List.nodup_cons]
      constructor
      · rintro ⟨nodup, apart⟩
        refine ⟨⟨?_, nodup⟩, ?_⟩
        · intro member
          obtain ⟨later, member, same⟩ := List.mem_map.mp member
          exact apart later member id List.mem_cons_self same.symm
        · intro later member other old
          rcases List.mem_cons.mp member with rfl | member
          · exact fresh other old
          · exact apart later member other (List.mem_cons_of_mem _ old)
      · rintro ⟨⟨absent, nodup⟩, apart⟩
        refine ⟨nodup, ?_⟩
        intro later member other old
        rcases List.mem_cons.mp old with rfl | old
        · exact fun same => absent (same ▸ List.mem_map_of_mem member)
        · exact apart later (List.mem_cons_of_mem _ member) other old

theorem checkGroupIds_ok {seen ids : List String} : checkGroupIds seen ids = .ok () ↔
    ids.Nodup ∧ ∀ id ∈ ids, id ∉ seen := by
  induction ids generalizing seen with
  | nil => simp [checkGroupIds]
  | cons id ids ih =>
    rw [checkGroupIds, then_ok, expect_ok, ih, List.nodup_cons]
    have new : (!seen.contains id) = true ↔ id ∉ seen := by simp
    rw [new]
    constructor
    · rintro ⟨fresh, nodup, apart⟩
      refine ⟨⟨fun member => apart id member List.mem_cons_self, nodup⟩, ?_⟩
      intro later member
      rcases List.mem_cons.mp member with rfl | member
      · exact fresh
      · exact fun old => apart later member (List.mem_cons_of_mem _ old)
    · rintro ⟨⟨absent, nodup⟩, apart⟩
      refine ⟨apart id List.mem_cons_self, nodup, ?_⟩
      intro later member old
      rcases List.mem_cons.mp old with rfl | old
      · exact absent member
      · exact apart later (List.mem_cons_of_mem _ member) old

theorem checkGroup_ok {group : Group} : g.checkGroup group = .ok () ↔
    (∀ c ∈ group.chunks, c ∈ g.chunks.map (·.id)) ∧
    ∀ id ∈ group.children, id ∈ g.groups.map (·.id) := by
  rw [checkGroup, then_ok, forM_ok, forM_ok]
  simp only [expect_ok, List.contains_iff_mem]

theorem checkBlock_ok {block : AsyncBlock} : g.checkBlock block = .ok () ↔
    block.group ∈ g.groups.map (·.id) := by
  rw [checkBlock, expect_ok, List.contains_iff_mem]

/-- **Exactly the valid graphs pass the checks.** -/
theorem validate_ok : g.validate = .ok () ↔ g.Valid := by
  have texts : (g.chunks.map (·.id)).map Id.text = g.chunks.map (·.id.text) := by simp
  rw [validate, then_ok, then_ok, then_ok, checkChunkIds_ok, checkGroupIds_ok, forM_ok, forM_ok,
    texts]
  simp only [checkGroup_ok, checkBlock_ok]
  constructor
  · rintro ⟨⟨texts, -⟩, ⟨groupIds, -⟩, groups, targets⟩
    exact ⟨texts, groupIds, fun group member => (groups group member).1,
      fun group member => (groups group member).2, targets⟩
  · intro valid
    exact ⟨⟨valid.texts, by simp⟩, ⟨valid.groupIds, by simp⟩,
      fun group member => ⟨valid.chunks group member, valid.children group member⟩, valid.targets⟩

/-- A graph that was read is valid. -/
theorem valid_of_read {text : String} (read : Graph.read text = .ok g) : g.Valid := by
  unfold Graph.read at read
  split at read
  · cases read
  · rename_i found _
    split at read
    · rename_i passed
      obtain rfl : found = g := by simpa using read
      exact validate_ok.mp passed
    · cases read

/-- A graph is read from the characters of a text. -/
theorem read_of_chars {text : String} {cs : List Char} (chars : text.toList = cs)
    (made : ((Json.readPrefix? cs).bind fun front =>
      if Json.skipBlanks front.2 = [] then ofJson? front.1 else none) = some g)
    (passed : g.validate = .ok ()) : Graph.read text = .ok g := by
  have found : ofText? text = some g := by
    unfold ofText? Json.read?
    rw [chars, ← made]
    cases Json.readPrefix? cs with
    | none => rfl
    | some front =>
      simp only [Option.bind_some, bind]
      split <;> rfl
  unfold Graph.read
  simp only [found, passed]

/-- The chunks of a valid graph are told apart by the texts of their ids. -/
theorem Valid.text_inj (valid : g.Valid) {c d : ChunkId} (first : c ∈ g.chunks.map (·.id))
    (second : d ∈ g.chunks.map (·.id)) (same : c.text = d.text) : c = d := by
  have texts : ((g.chunks.map (·.id)).map Id.text).Nodup := by
    rw [List.map_map]
    exact valid.texts
  exact List.inj_on_of_nodup_map texts first second same

/-- A chunk of a valid graph is found by the text of its id. -/
theorem Valid.resolve (valid : g.Valid) {c : ChunkId} (member : c ∈ g.chunks.map (·.id)) :
    g.resolve? c.text = some c := by
  unfold resolve?
  cases found : (g.chunks.map (·.id)).find? (·.text = c.text) with
  | none => exact absurd (List.find?_eq_none.mp found c member) (by simp)
  | some d =>
    have same : d.text = c.text := by simpa using List.find?_some found
    rw [valid.text_inj (List.mem_of_find?_eq_some found) member same]

/-- A chunk that is found is one of the graph. -/
theorem mem_of_resolve {text : String} {c : ChunkId} (found : g.resolve? text = some c) :
    c ∈ g.chunks.map (·.id) :=
  List.mem_of_find?_eq_some found

end Graph

namespace Config

variable {config : Config}

theorem readTemplate_ok {s : Setting} {source : String} {t : Template} :
    readTemplate s source = .ok t ↔ Template.parse source = .ok t := by
  unfold readTemplate
  cases Template.parse source <;> simp [Except.mapError]

/-- The three templates of a configuration, as they are read. -/
structure Templates (config : Config) where
  names : Template
  chunkAddress : Template
  entryAddress : Template
  names_read : Template.parse config.output.chunkFilename = .ok names
  chunkAddress_read : Template.parse config.hot.chunkAddress = .ok chunkAddress
  entryAddress_read : Template.parse config.hot.entryAddress = .ok entryAddress

/-- A configuration that was read has its templates. -/
theorem templates_of_read {text : String} (read : Config.read text = .ok config) :
    Nonempty config.Templates := by
  have valid : config.validate = .ok () := by
    unfold Config.read at read
    split at read
    · cases read
    · rename_i found _
      split at read
      · rename_i passed
        obtain rfl : found = config := by simpa using read
        exact passed
      · cases read
  -- The checks come one after the other; those of the templates give what they read.
  unfold validate at valid
  by_cases noTimeout : config.loading.timeoutMillis = 0
  · simp [noTimeout, bind, Except.bind] at valid
  rw [if_neg noTimeout] at valid
  obtain ⟨-, -, valid⟩ := bind_ok.mp valid
  obtain ⟨-, -, valid⟩ := bind_ok.mp valid
  obtain ⟨-, -, valid⟩ := bind_ok.mp valid
  obtain ⟨names, names_read, valid⟩ := bind_ok.mp valid
  obtain ⟨chunkAddress, chunkAddress_read, valid⟩ := bind_ok.mp valid
  obtain ⟨-, -, valid⟩ := bind_ok.mp valid
  obtain ⟨entryAddress, entryAddress_read, -⟩ := bind_ok.mp valid
  exact ⟨names, chunkAddress, entryAddress, readTemplate_ok.mp names_read,
    readTemplate_ok.mp chunkAddress_read, readTemplate_ok.mp entryAddress_read⟩

end Config

end ChunkLoading
