import ChunkLoading.Proofs.Header
import ChunkLoading.Proofs.Quotation
import ChunkLoading.Proofs.Refusal

/-!
# What a chunk needs

The requirements of a chunk come from different questions to the graph: a search, the children in their order,
a look at the groups of the chunk, and one at the blocks of the build. Here each is said in terms of groups and
blocks. A chunk that loads, hints or defers needs loading code (`chunkLoadingCode_of_active`), and a chunk has an
empty runtime exactly if nothing in the graph calls for one (`generates_empty_iff`).
-/

namespace ChunkLoading

/-- A chunk loads, hints or defers: there are chunks that it may load later or children to prefetch, or an
entry of its own may wait for other chunks. -/
def Requirements.Active (needs : Requirements) : Prop :=
  needs.entryDeferral = true ∨ needs.prefetch = true ∨ needs.asyncChunks = true

/-- The sections of a chunk's runtime load, hint or defer: they ask for resources, make hints, or hand over an
entry that needs other chunks than that of the runtime. -/
def ActiveSections (c : ChunkId) (ss : List Section) : Prop :=
  .scriptHandler ∈ ss ∨ (∃ prefetch preloads, .hints prefetch preloads ∈ ss) ∨
    ∃ calls es, .startup calls ∈ ss ∧ .deferEntries es ∈ calls ∧ ∃ e ∈ es, e.chunks ≠ [c]

namespace Graph

variable {config : Config} {g : Graph} {asked c x : ChunkId} {group : Group} {e : DeferredEntry}
  {ss : List Section} {id : String}

/-! ## Groups of a chunk -/

theorem mem_groupsOf : group ∈ g.groupsOf c ↔ group ∈ g.groups ∧ c ∈ group.chunks := by
  rw [groupsOf, List.mem_filter, List.contains_iff_mem]

/-- The entries of a chunk are those of its entry groups that have a module, with all chunks of the group. -/
theorem mem_entriesOf : e ∈ g.entriesOf c ↔ ∃ group ∈ g.groupsOf c, group.isEntry = true ∧
    group.entryModule = some e.entry ∧ group.chunks = e.chunks := by
  obtain ⟨entry, chunks⟩ := e
  simp only [entriesOf, entryGroupsOf, List.mem_filterMap, List.mem_filter, Option.map_eq_some_iff]
  constructor
  · rintro ⟨group, ⟨member, kind⟩, m, given, same⟩
    obtain ⟨rfl, rfl⟩ := DeferredEntry.mk.inj same
    exact ⟨group, member, kind, given, rfl⟩
  · rintro ⟨group, member, kind, given, rfl⟩
    exact ⟨group, ⟨member, kind⟩, entry, given, rfl⟩

/-- Whatever is reached from a chunk is reached through a child of a group of its own. -/
theorem Reaches.own (reached : g.Reaches c id) : ∃ group ∈ g.groupsOf c, group.children ≠ [] := by
  induction reached with
  | child own member => exact ⟨_, own, List.ne_nil_of_mem member⟩
  | next _ _ _ ih => exact ih

/-! ## Each requirement -/

theorem defersEntries_iff : g.defersEntries c = true ↔
    ∃ group ∈ g.groupsOf c, 1 < group.chunks.length := by
  simp [defersEntries]

/-- Code for loading is needed by a chunk with companions or with child groups. -/
theorem chunkLoadingCode_iff : (g.requirementsOf c).chunkLoadingCode = true ↔
    ∃ group ∈ g.groupsOf c, 1 < group.chunks.length ∨ group.children ≠ [] := by
  simp [requirementsOf]

/-- A group with several chunks has one of the graph, so the scan over the chunks does not miss it. -/
theorem Valid.needsEntryDeferral_iff (valid : g.Valid) : g.needsEntryDeferral = true ↔
    ∃ group ∈ g.groups, 1 < group.chunks.length := by
  have scan : g.needsEntryDeferral = true ↔ ∃ chunk ∈ g.chunks, g.defersEntries chunk.id = true := by
    simp [needsEntryDeferral]
  rw [scan]
  constructor
  · rintro ⟨chunk, -, defers⟩
    obtain ⟨group, own, several⟩ := defersEntries_iff.mp defers
    exact ⟨group, (mem_groupsOf.mp own).1, several⟩
  · rintro ⟨group, member, several⟩
    obtain ⟨c, inside⟩ := List.exists_mem_of_length_pos (by omega : 0 < group.chunks.length)
    obtain ⟨chunk, known, rfl⟩ := List.mem_map.mp (valid.chunks group member c inside)
    exact ⟨chunk, known, defersEntries_iff.mpr ⟨group, mem_groupsOf.mpr ⟨member, inside⟩, several⟩⟩

/-- If entries are not deferred, no group has several chunks. -/
theorem Valid.short_of_prompt (valid : g.Valid) (prompt : g.needsEntryDeferral = false)
    (member : group ∈ g.groups) : group.chunks.length ≤ 1 := by
  by_contra several
  rw [valid.needsEntryDeferral_iff.mpr ⟨group, member, Nat.lt_of_not_le several⟩] at prompt
  cases prompt

/-- A chunk of the graph is analyzed, and nothing else is. -/
theorem analyze?_eq : g.analyze? c =
    if c ∈ g.chunks.map (·.id) then some (g.requirementsOf c) else none := by
  rw [analyze?]
  cases found : g.chunk? c with
  | none =>
    have absent : c ∉ g.chunks.map (·.id) := by
      intro known
      obtain ⟨chunk, member, same⟩ := List.mem_map.mp known
      exact List.find?_eq_none.mp found chunk member (by simpa using same)
    rw [if_neg absent]
    rfl
  | some chunk =>
    have same : chunk.id = c := by simpa using List.find?_some found
    have known : c ∈ g.chunks.map (·.id) := List.mem_map.mpr ⟨chunk, List.mem_of_find?_eq_some found, same⟩
    rw [if_pos known]
    rfl

theorem requirementsOf_of_analyze {needs : Requirements} (analyzed : g.analyze? c = some needs) :
    needs = g.requirementsOf c := by
  obtain ⟨_, -, same⟩ := Option.map_eq_some_iff.mp analyzed
  exact same.symm

/-! ## Calls at the start -/

theorem deferEntries_mem_iff {f : Features} {es : List DeferredEntry} : .deferEntries es ∈ g.startupCalls c f ↔
    f.deferral = true ∧ g.entriesOf c ≠ [] ∧ es = g.entriesOf c := by
  have last : .deferEntries es ∉ (if f.prefetch then [StartupCall.prefetch (g.childChunks c .prefetch)]
      else []) := by split <;> simp
  by_cases deferral : f.deferral = true
  · by_cases none : g.entriesOf c = [] <;> simp [startupCalls, deferral, none, last]
  · simp [startupCalls, deferral, last]

theorem runEntry_mem_iff {f : Features} {x : ModuleId} : .runEntry x ∈ g.startupCalls c f ↔
    f.deferral = false ∧ ∃ e ∈ g.entriesOf c, e.entry = x := by
  have last : .runEntry x ∉ (if f.prefetch then [StartupCall.prefetch (g.childChunks c .prefetch)] else []) := by
    split <;> simp
  by_cases deferral : f.deferral = true
  · by_cases none : g.entriesOf c = [] <;> simp [startupCalls, deferral, none, last]
  · simp [startupCalls, deferral, last]

theorem prefetch_mem_iff {f : Features} {cs : List ChunkId} : .prefetch cs ∈ g.startupCalls c f ↔
    f.prefetch = true ∧ cs = g.childChunks c .prefetch := by
  have front : .prefetch cs ∉ (if f.deferral then
      (if (g.entriesOf c).isEmpty then [] else [.deferEntries (g.entriesOf c)])
      else (g.entriesOf c).map (StartupCall.runEntry ·.entry)) := by
    split
    · split <;> simp
    · simp
  show _ ∈ _ ++ _ ↔ _
  rw [List.mem_append, or_iff_right front]
  cases f.prefetch <;> simp

/-! ## The gate of updates -/

/-- A chunk that loads, hints or defers needs loading code: each of the three shows a group of the chunk
that has another chunk, or a child. -/
theorem chunkLoadingCode_of_active (active : (g.requirementsOf c).Active) :
    (g.requirementsOf c).chunkLoadingCode = true := by
  rw [chunkLoadingCode_iff]
  rcases active with defers | prefetches | later
  · -- A group with another chunk is what deferral is about.
    obtain ⟨group, own, several⟩ := defersEntries_iff.mp defers
    exact ⟨group, own, .inl several⟩
  · -- A chunk to prefetch is in a child of such a group.
    have some : g.childChunks c .prefetch ≠ [] := by simpa [requirementsOf] using prefetches
    obtain ⟨x, member⟩ := List.exists_mem_of_ne_nil _ some
    obtain ⟨-, group, own, id, child, -⟩ := exists_of_mem_childChunks member
    exact ⟨group, own, .inr (List.ne_nil_of_mem child)⟩
  · -- A chunk to load later is reached by steps of which the first leads to such a child.
    have some : g.asyncChunks c ≠ [] := by simpa [requirementsOf] using later
    obtain ⟨x, member⟩ := List.exists_mem_of_ne_nil _ some
    obtain ⟨⟨id, -, reached, -⟩, -⟩ := mem_asyncChunks.mp member
    obtain ⟨group, own, children⟩ := reached.own
    exact ⟨group, own, .inr children⟩

/-- An entry of a chunk that needs other chunks makes the chunk defer. -/
theorem defersEntries_of_entry (member : e ∈ g.entriesOf c) (others : e.chunks ≠ [c]) :
    g.defersEntries c = true := by
  obtain ⟨group, own, -, -, chunks⟩ := mem_entriesOf.mp member
  refine defersEntries_iff.mpr ⟨group, own, ?_⟩
  by_contra short
  have alone := eq_singleton_of_mem (mem_groupsOf.mp own).2 (Nat.le_of_not_lt short)
  exact others (chunks.symm.trans alone)

/-- What is emitted loads, hints or defers only if its chunk does. -/
theorem active_of_sections (made : g.sections config c (g.featuresOf config c) = .ok ss)
    (active : ActiveSections c ss) : (g.requirementsOf c).Active := by
  -- A part for which there are later chunks shows that the chunk has some.
  have later (some : g.asyncChunks c ≠ []) : (g.requirementsOf c).Active :=
    .inr (.inr (by simpa [requirementsOf] using some))
  rcases active with loads | ⟨prefetch, preloads, hints⟩ | ⟨calls, es, startup, called, e, member, others⟩
  · refine later fun none => ?_
    have full := (scriptHandler_mem_iff made).mp loads
    simp [featuresOf, Features.of, requirementsOf, Requirements.isNoopLoading, none] at full
  · obtain ⟨prefetches | preloads, -⟩ := (hints_mem_iff made).mp hints
    · exact .inr (.inl prefetches)
    · exact later (preload_featuresOf.mp preloads).1
  · rw [(startup_mem_iff made).mp startup] at called
    obtain ⟨-, -, rfl⟩ := deferEntries_mem_iff.mp called
    exact .inl (defersEntries_of_entry member others)

/-! ## Empty runtimes -/

/-- Nothing in a graph calls for a runtime: no block loads a group with chunks, the groups of the chunk have no
other chunks and no children, and no group of the build has several chunks. -/
structure Bare (g : Graph) (c : ChunkId) : Prop where
  blocks : ∀ block ∈ g.blocks, ∀ group, g.group? block.group = some group → group.chunks = []
  own : ∀ group ∈ g.groups, c ∈ group.chunks → group.chunks.length ≤ 1 ∧ group.children = []
  groups : ∀ group ∈ g.groups, group.chunks.length ≤ 1

theorem Bare.chunkLoadingCode (bare : g.Bare c) : (g.requirementsOf c).chunkLoadingCode = false := by
  refine Bool.eq_false_iff.mpr fun needed => ?_
  obtain ⟨group, own, several | children⟩ := chunkLoadingCode_iff.mp needed
  · have short := bare.groups group (mem_groupsOf.mp own).1
    omega
  · obtain ⟨member, inside⟩ := mem_groupsOf.mp own
    exact children (bare.own group member inside).2

/-- A chunk that calls for nothing has nothing to do with updates. -/
theorem Bare.idle (bare : g.Bare c) : ¬ (g.requirementsOf c).Active := by
  intro active
  have needed := chunkLoadingCode_of_active active
  rw [bare.chunkLoadingCode] at needed
  cases needed

theorem Bare.isEmpty (bare : g.Bare c) : (g.requirementsOf c).isEmpty = true := by
  have idle := bare.idle
  simp only [Requirements.Active, not_or, Bool.not_eq_true] at idle
  obtain ⟨noDeferral, noPrefetch, noAsync⟩ := idle
  have noBlock : g.hasNonemptyBlock = false := by
    refine Bool.eq_false_iff.mpr fun nonempty => ?_
    obtain ⟨block, member, group, found, some⟩ := hasNonemptyBlock_iff.mp nonempty
    exact some (bare.blocks block member group found)
  have noLoading : (g.requirementsOf c).onDemandLoading = false := Bool.or_eq_false_iff.mpr ⟨noAsync, noBlock⟩
  exact Requirements.isEmpty_iff.mpr ⟨noLoading, noDeferral, noPrefetch, bare.chunkLoadingCode⟩

/-- A chunk with no needs calls for nothing, if no entries are deferred. -/
theorem Valid.bare_of_isEmpty (valid : g.Valid) (nothing : (g.requirementsOf c).isEmpty = true)
    (prompt : g.needsEntryDeferral = false) : g.Bare c := by
  obtain ⟨noLoading, -, -, noCode⟩ := Requirements.isEmpty_iff.mp nothing
  constructor
  · intro block member group found
    by_contra some
    rw [onDemandLoading_iff.mpr (.inr ⟨block, member, group, found, some⟩)] at noLoading
    cases noLoading
  · intro group member inside
    refine ⟨valid.short_of_prompt prompt member, ?_⟩
    by_contra children
    rw [chunkLoadingCode_iff.mpr ⟨group, mem_groupsOf.mpr ⟨member, inside⟩, .inr children⟩] at noCode
    cases noCode
  · intro group member
    exact valid.short_of_prompt prompt member

/-- What is emitted depends on the chunk and, for the scheduler, on the whole build. -/
theorem merger_eq_false : (g.featuresOf config c).merger = false ↔
    (g.requirementsOf c).isEmpty = true ∧ g.needsEntryDeferral = false := by
  simp [featuresOf, Features.of]

/-- A chunk has no runtime exactly if nothing in the graph calls for one. -/
theorem Valid.merger_eq_false_iff (valid : g.Valid) :
    (g.featuresOf config c).merger = false ↔ g.Bare c := by
  rw [merger_eq_false]
  constructor
  · rintro ⟨nothing, prompt⟩
    exact valid.bare_of_isEmpty nothing prompt
  · intro bare
    refine ⟨bare.isEmpty, Bool.eq_false_iff.mpr fun deferral => ?_⟩
    obtain ⟨group, member, several⟩ := valid.needsEntryDeferral_iff.mp deferral
    have short := bare.groups group member
    omega

/-- A chunk that needs nothing has an empty runtime, whatever is configured. -/
theorem generate_of_idle (found : g.resolve? asked.text = some c)
    (merger : (g.featuresOf config c).merger = false) :
    g.generate config asked = .ok ⟨c, g.requirementsOf c, ""⟩ := by
  obtain ⟨noLoading, -⟩ := Requirements.isEmpty_iff.mp (merger_eq_false.mp merger).1
  unfold generate
  simp only [found, noLoading, merger]
  rfl

/-- An empty runtime is emitted where nothing calls for one. -/
theorem Valid.generates_empty_iff (valid : g.Valid) (known : c ∈ g.chunks.map (·.id)) :
    (∃ r, g.generate config c = .ok r ∧ r.code = "") ↔ g.Bare c := by
  -- Resolving goes by the text of an id; in a valid graph it leads back to the chunk that is asked for.
  have found := valid.resolve known
  constructor
  · rintro ⟨r, emitted, empty⟩
    obtain rfl : r.chunk = c := Option.some.inj ((resolve_of_generate emitted).symm.trans found)
    have merger : (g.featuresOf config r.chunk).merger = false :=
      Bool.eq_false_iff.mpr fun some => (code_iff_merger emitted).mpr some empty
    exact valid.merger_eq_false_iff.mp merger
  · intro bare
    exact ⟨_, generate_of_idle found (valid.merger_eq_false_iff.mpr bare), rfl⟩

/-! ## Updates of active chunks -/

theorem takesUpdates_of_active (enabled : config.hot.enabled = true)
    (active : (g.requirementsOf c).Active) : g.TakesUpdates config c :=
  ⟨enabled, chunkLoadingCode_iff.mp (chunkLoadingCode_of_active active)⟩

/-- An active chunk has the section of updates in its runtime. -/
theorem update_of_active {r : GeneratedRuntime} (enabled : config.hot.enabled = true)
    (emitted : g.generate config asked = .ok r) (active : r.requirements.Active) :
    ∃ ss s, g.sections config r.chunk (g.featuresOf config r.chunk) = .ok ss ∧
      r.code = g.runtimeText r.chunk ss ∧ .hotUpdate s ∈ ss := by
  rw [(isRuntimeOf_of_generate emitted).2.requirements] at active
  have updates := takesUpdates_of_active enabled active
  obtain ⟨ss, made, code⟩ := sections_of_generate emitted (merger_of_parts (.inr updates))
  obtain ⟨s, -, inside⟩ := update_of_sections made (hot_iff.mpr updates)
  exact ⟨ss, s, made, code, inside⟩

/-- The plan of a chunk that loads others has a bootstrap if updates are on. -/
theorem bootstrap_of_active {b : Blueprint} (enabled : config.hot.enabled = true)
    (planned : Blueprint.forChunk config g asked = .ok b) (found : g.resolve? asked.text = some c)
    (active : (g.requirementsOf c).Active) : b.bootstrap.isSome = true := by
  obtain ⟨c', options, bootstrap, found', -, made, rfl⟩ := Blueprint.forChunk_ok planned
  obtain rfl : c = c' := Option.some.inj (found.symm.trans found')
  rw [Blueprint.bootstrapFor, enabled, chunkLoadingCode_of_active active] at made
  obtain ⟨boot, -, given⟩ := bind_ok.mp made
  rw [← Except.ok.inj given]
  rfl

/-- **When a runtime is needed, and when updates are.** Take any graph. A chunk of it that has chunks to load
later, children to prefetch or entries that may wait for other chunks needs loading code. So if updates are on,
they are left out of no runtime that loads, hints or defers: the runtime that is emitted for such a chunk has
the section of updates, the one that is built for it has a bootstrap, and emitted sections that ask for
resources, make hints, or hand over an entry that needs other chunks than that of the runtime, are those of such
a chunk. If the graph is valid, then whatever is configured, the runtime of a chunk is emitted and is empty
exactly if no block loads a group with chunks, the groups of the chunk have no other chunks and no children,
and no group of the build has several chunks. -/
theorem loading_code_needed (g : Graph) :
    (∀ c needs, g.analyze? c = some needs → needs.Active → needs.chunkLoadingCode = true) ∧
    (∀ config asked, config.hot.enabled = true →
      (∀ r, g.generate config asked = .ok r →
        (r.requirements.Active → ∃ ss s, g.sections config r.chunk (g.featuresOf config r.chunk) = .ok ss ∧
          r.code = g.runtimeText r.chunk ss ∧ .hotUpdate s ∈ ss) ∧
        ∀ ss, g.sections config r.chunk (g.featuresOf config r.chunk) = .ok ss →
          ActiveSections r.chunk ss → r.requirements.Active) ∧
      ∀ b c, Blueprint.forChunk config g asked = .ok b → g.resolve? asked.text = some c →
        (g.requirementsOf c).Active → b.bootstrap.isSome = true) ∧
    (g.validate = .ok () → ∀ config, ∀ c ∈ g.chunks.map (·.id),
      ((∃ r, g.generate config c = .ok r ∧ r.code = "") ↔ g.Bare c)) := by
  refine ⟨?_, ?_, ?_⟩
  · intro c needs analyzed active
    rw [requirementsOf_of_analyze analyzed] at active ⊢
    exact chunkLoadingCode_of_active active
  · intro config asked enabled
    constructor
    · intro r emitted
      refine ⟨update_of_active enabled emitted, fun ss made active => ?_⟩
      rw [(isRuntimeOf_of_generate emitted).2.requirements]
      exact active_of_sections made active
    · intro b c planned found active
      exact bootstrap_of_active enabled planned found active
  · intro passed config c known
    exact (validate_ok.mp passed).generates_empty_iff known

/-- One chunk of a build loads the other one and takes part in updates, while the other one has an empty
runtime. -/
theorem loading_code_needed_split : splitBuild.validate = .ok () ∧
    (∃ needs, splitBuild.analyze? (.name "main") = some needs ∧ needs.Active ∧
      needs.chunkLoadingCode = true) ∧
    (∃ r ss s, splitBuild.generate updated (.name "main") = .ok r ∧
      r.code = splitBuild.runtimeText r.chunk ss ∧ .hotUpdate s ∈ ss ∧ ActiveSections r.chunk ss) ∧
    (∃ b, Blueprint.forChunk updated splitBuild (.name "main") = .ok b ∧ b.bootstrap.isSome = true) ∧
    ∃ r, splitBuild.generate updated (.number 7) = .ok r ∧ r.code = "" := by
  obtain ⟨gate, updates, empty⟩ := loading_code_needed splitBuild
  have valid : splitBuild.validate = .ok () := by decide
  have enabled : updated.hot.enabled = true := rfl
  have active : (splitBuild.requirementsOf (.name "main")).Active := .inr (.inr (by decide))
  have analyzed : splitBuild.analyze? (.name "main") =
      some (splitBuild.requirementsOf (.name "main")) := rfl
  obtain ⟨r, emitted⟩ : ∃ r, splitBuild.generate updated (.name "main") = .ok r :=
    isOk_iff.mp (by decide +kernel)
  obtain ⟨b, planned⟩ : ∃ b, Blueprint.forChunk updated splitBuild (.name "main") = .ok b :=
    isOk_iff.mp (by decide +kernel)
  have found : splitBuild.resolve? (Id.text (.name "main")) = some (.name "main") := by decide
  have bare : splitBuild.Bare (.number 7) := ⟨by decide, by decide, by decide⟩
  refine ⟨valid, ⟨_, analyzed, active, gate _ _ analyzed active⟩, ?_, ?_, ?_⟩
  · have chunk : r.chunk = .name "main" :=
      Option.some.inj ((resolve_of_generate emitted).symm.trans found)
    have needs := (isRuntimeOf_of_generate emitted).2.requirements
    rw [chunk] at needs
    obtain ⟨ss, s, made, code, inside⟩ := ((updates updated _ enabled).1 r emitted).1 (needs ▸ active)
    have loads : .scriptHandler ∈ ss := (scriptHandler_mem_iff made).mpr (by rw [chunk]; decide +kernel)
    exact ⟨r, ss, s, emitted, code, inside, .inl loads⟩
  · exact ⟨b, planned, (updates updated _ enabled).2 b _ planned found active⟩
  · exact (empty valid updated _ (by decide)).mpr bare

end Graph

end ChunkLoading
