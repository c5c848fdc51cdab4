import ChunkLoading.Proofs.Addresses

/-!
# When nothing is emitted

`Config.Templates.Refuses` lists the faults for which no runtime is emitted, each with the faults that
are looked for before it: the chunk is not there, it has no way to load what its code asks for, its
filenames ask for the name of a runtime, or an address of its updates has a placeholder that no
expression stands for. `generate_error_iff` says that these are all faults, and that each is reported in
its turn, the leftmost placeholder of a template first.
-/

namespace ChunkLoading

/-! ## The leftmost placeholder without a value -/

def Segment.placeholder? : Segment → Option Placeholder
  | .slot p _ => some p
  | .literal _ => none

namespace Template

variable {t : Template} {p : Placeholder}

/-- The placeholders of a template, from left to right. -/
def placeholders (t : Template) : List Placeholder := t.segments.filterMap Segment.placeholder?

theorem mem_placeholders : p ∈ t.placeholders ↔ t.uses p = true := by
  rw [uses_iff, placeholders, List.mem_filterMap]
  constructor
  · rintro ⟨segment, member, slot⟩
    cases segment with
    | literal chars => cases slot
    | slot q limit =>
      obtain rfl : q = p := Option.some.inj slot
      exact ⟨limit, member⟩
  · rintro ⟨limit, member⟩
    exact ⟨_, member, rfl⟩

theorem source_of_parse {source : String} (read : parse source = .ok t) : t.source = source := by
  unfold parse at read
  obtain ⟨segs, -, made⟩ := bind_ok.mp read
  rw [← Except.ok.inj made]

/-- A computation along the segments of a template that fails at placeholders without a value fails at
the leftmost of them. -/
theorem mapM_segments {α : Type} {f : Segment → Except TemplateError α} {given : Placeholder → Bool}
    (fault : Placeholder → TemplateError) (literal : ∀ chars, (f (.literal chars)).isOk = true)
    (slot : ∀ q limit, given q = true → (f (.slot q limit)).isOk = true)
    (stop : ∀ q limit, given q = false → f (.slot q limit) = .error (fault q))
    (first : t.placeholders.find? (!given ·) = some p) : t.segments.mapM f = .error (fault p) := by
  -- A segment that does not fail leaves the failure to the later ones.
  have later {segment : Segment} {segments : List Segment} (ok : (f segment).isOk = true)
      (rest : segments.mapM f = .error (fault p)) :
      (segment :: segments).mapM f = .error (fault p) := by
    obtain ⟨a, made⟩ := isOk_iff.mp ok
    rw [List.mapM_cons, made, rest]
    rfl
  cases t with | mk source segments
  unfold placeholders at first
  induction segments with
  | nil => simp at first
  | cons segment segments ih =>
    cases segment with
    | literal chars => exact later (literal chars) (ih first)
    | slot q limit =>
      have listed : (.slot q limit :: segments).filterMap Segment.placeholder? =
          q :: segments.filterMap Segment.placeholder? := rfl
      rw [listed, List.find?_cons] at first
      -- The placeholder has a value, or it is the leftmost that has none.
      cases value : given q with
      | true =>
        rw [value] at first
        exact later (slot q limit value) (ih first)
      | false =>
        rw [value] at first
        obtain rfl : q = p := Option.some.inj first
        rw [List.mapM_cons, stop q limit value]
        rfl

/-- A template that is filled in stops at the leftmost placeholder without a value. -/
theorem render_error {value : Placeholder → Option String}
    (first : t.placeholders.find? (fun q => !(value q).isSome) = some p) :
    t.render value = .error (.unresolved p t.source) := by
  unfold render
  rw [mapM_segments (.unresolved · t.source) (fun _ => rfl) ?_ ?_ first]
  · rfl
  · intro q limit given
    obtain ⟨v, given⟩ := Option.isSome_iff_exists.mp given
    simp [given, Except.isOk, Except.toBool]
  · intro q limit missing
    have missing : value q = none := by simpa using missing
    simp [missing]

/-- So does one that is turned into an expression. -/
theorem expression_error {expr : Placeholder → Option String}
    (first : t.placeholders.find? (fun q => !(expr q).isSome) = some p) :
    t.expression expr = .error (.unresolved p t.source) := by
  unfold expression operands
  rw [mapM_segments (.unresolved · t.source) (fun _ => rfl) ?_ ?_ first]
  · rfl
  · intro q limit given
    obtain ⟨e, given⟩ := Option.isSome_iff_exists.mp given
    simp [given, Except.isOk, Except.toBool]
  · intro q limit missing
    have missing : expr q = none := by simpa using missing
    simp [missing]

end Template

/-- Whether there is an expression for a placeholder in the address of an updated chunk. -/
def Placeholder.inChunkAddress (p : Placeholder) : Bool := p ∈ [.id, .fullHash, .runtime]

/-- Whether there is an expression for a placeholder in the address of an update manifest. -/
def Placeholder.inEntryAddress (p : Placeholder) : Bool := p ∈ [.fullHash, .runtime]

/-! ## What a chunk calls for -/

variable {config : Config} {g : Graph} {c asked : ChunkId} {p : Placeholder} {e : GenerateError}

namespace Graph

/-- Code of the build asks for chunks: there are some that the chunk may load later, or some block loads
a group that has chunks. -/
def LoadsOnDemand (g : Graph) (c : ChunkId) : Prop :=
  g.asyncChunks c ≠ [] ∨
    ∃ block ∈ g.blocks, ∃ group, g.group? block.group = some group ∧ group.chunks ≠ []

/-- The runtime of a chunk needs filenames: for chunks that may be loaded later, or for hints. -/
def NamesChunks (g : Graph) (c : ChunkId) : Prop :=
  g.asyncChunks c ≠ [] ∨ g.childChunks c .prefetch ≠ []

/-- The runtime of a chunk takes part in updates: they are on, and some group of the chunk has another
chunk or a child. -/
def TakesUpdates (g : Graph) (config : Config) (c : ChunkId) : Prop :=
  config.hot.enabled = true ∧
    ∃ group ∈ g.groupsOf c, 1 < group.chunks.length ∨ group.children ≠ []

/-- Some block loads a group that has chunks. -/
theorem hasNonemptyBlock_iff : g.hasNonemptyBlock = true ↔
    ∃ block ∈ g.blocks, ∃ group, g.group? block.group = some group ∧ group.chunks ≠ [] := by
  simp [hasNonemptyBlock, Option.any_eq_true]

/-- A chunk loads on demand if it has later chunks, or some block of the build loads any. -/
theorem onDemandLoading_iff : (g.requirementsOf c).onDemandLoading = true ↔ g.LoadsOnDemand c := by
  rw [LoadsOnDemand, ← hasNonemptyBlock_iff]
  simp [requirementsOf]

theorem serves_iff :
    g.serves config c = true ↔ ¬ (config.loading.method = .none ∧ g.LoadsOnDemand c) := by
  rw [← onDemandLoading_iff, serves]
  simp only [Bool.not_eq_true', Bool.and_eq_false_iff, decide_eq_false_iff_not, not_and]
  cases (g.requirementsOf c).onDemandLoading <;> simp

/-- Filenames are emitted where chunks are named. -/
theorem filenames_iff : (g.featuresOf config c).filenames = true ↔ g.NamesChunks c := by
  unfold NamesChunks
  simp only [featuresOf, Features.of, requirementsOf, Requirements.isNoopLoading]
  by_cases async : g.asyncChunks c = [] <;> simp [async]

/-- Updates are emitted where they are on and the chunk takes part in them. -/
theorem hot_iff : (g.featuresOf config c).hot = true ↔ g.TakesUpdates config c := by
  unfold TakesUpdates
  simp [featuresOf, Features.of, requirementsOf]

/-! ## The error of each part -/

/-- What filenames fail with if they ask for the name of a runtime. -/
theorem filenames_error {t : Template} (known : c ∈ g.chunks.map (·.id))
    (used : t.uses .runtime = true) : g.filenames t = .error (.unresolved .runtime t.source) := by
  have first (chunk : Chunk) : t.placeholders.find?
      (fun q => !(filenameValue g.fullHash chunk q).isSome) = some .runtime := by
    have some : (t.placeholders.find?
        (fun q => !(filenameValue g.fullHash chunk q).isSome)).isSome = true := by
      rw [List.find?_isSome]
      exact ⟨.runtime, Template.mem_placeholders.mpr used, rfl⟩
    obtain ⟨q, found⟩ := Option.isSome_iff_exists.mp some
    -- Every other placeholder has a value.
    have missing := List.find?_some found
    cases q <;> simp_all [filenameValue]
  unfold filenames
  cases chunks : g.chunks with
  | nil => simp [chunks] at known
  | cons chunk rest =>
    dsimp only
    rw [List.mapM_cons, Template.render_error (first chunk)]
    rfl

/-- The filenames that are emitted fail with the template that they are made from. -/
theorem emittedFilenames_error {t : Template}
    (read : Template.parse config.output.chunkFilename = .ok t) (known : c ∈ g.chunks.map (·.id))
    (used : t.uses .runtime = true) :
    g.emittedFilenames config c =
      .error (.unresolved .runtime config.output.chunkFilename) := by
  unfold emittedFilenames
  rw [read]
  show (g.filenames t >>= fun names => pure _) = _
  rw [filenames_error known used, Template.source_of_parse read]
  rfl

/-- The address of an updated chunk is made first. -/
theorem updateSettings_error_chunk (templates : config.Templates)
    (first : templates.chunkAddress.placeholders.find? (!·.inChunkAddress) = some p) :
    g.updateSettings config c = .error (.unresolved p config.hot.chunkAddress) := by
  unfold updateSettings
  rw [templates.chunkAddress_read]
  show (templates.chunkAddress.expression _ >>= fun _ => _) = _
  rw [Template.expression_error (p := p), Template.source_of_parse templates.chunkAddress_read]
  · rfl
  · rw [← first]
    congr 1
    funext q
    cases q <;> rfl

/-- The address of the manifest is made after that of the chunk. -/
theorem updateSettings_error_entry (templates : config.Templates)
    (none : templates.chunkAddress.placeholders.find? (!·.inChunkAddress) = none)
    (first : templates.entryAddress.placeholders.find? (!·.inEntryAddress) = some p) :
    g.updateSettings config c = .error (.unresolved p config.hot.entryAddress) := by
  unfold updateSettings
  rw [templates.chunkAddress_read, templates.entryAddress_read]
  show (templates.chunkAddress.expression _ >>= fun _ =>
    templates.entryAddress.expression _ >>= fun _ => _) = _
  refine bind_error ((Template.isOk_expression _).mpr fun q used => ?_) fun address => ?_
  · have given : q.inChunkAddress = true := by
      simpa using List.find?_eq_none.mp none q (Template.mem_placeholders.mpr used)
    cases q <;> first | rfl | cases given
  · rw [Template.expression_error (p := p), Template.source_of_parse templates.entryAddress_read]
    · rfl
    · rw [← first]
      congr 1
      funext q
      cases q <;> rfl

/-- Filenames are made before anything else that can fail. -/
theorem sections_error_filenames {f : Features} {fault : TemplateError} (emitted : f.filenames = true)
    (failed : g.emittedFilenames config c = .error fault) :
    g.sections config c f = .error fault := by
  unfold sections
  rw [if_pos emitted, failed]
  rfl

/-- The addresses of updates are made after the filenames. -/
theorem sections_error_update {f : Features} {fault : TemplateError}
    (named : f.filenames = true → (g.emittedFilenames config c).isOk = true) (emitted : f.hot = true)
    (failed : g.updateSettings config c = .error fault) : g.sections config c f = .error fault := by
  unfold sections
  cases filenames : f.filenames with
  | false =>
    simp only [emitted, failed]
    rfl
  | true =>
    refine bind_error (named filenames) fun names => ?_
    simp only [emitted, failed]
    rfl

/-- What emits no sections emits no runtime. -/
theorem generate_error {fault : TemplateError} (found : g.resolve? asked.text = some c)
    (served : g.serves config c = true) (merger : (g.featuresOf config c).merger = true)
    (failed : g.sections config c (g.featuresOf config c) = .error fault) :
    g.generate config asked = .error (.template fault) := by
  unfold generate
  simp only [found, guard_eq, served, merger, failed]
  rfl

/-- A runtime with filenames or updates has sections. -/
theorem merger_of_parts (parts : g.NamesChunks c ∨ g.TakesUpdates config c) :
    (g.featuresOf config c).merger = true := by
  by_contra bare
  -- Without a merger there would be nothing for which a filename or an address is needed.
  have none : (g.featuresOf config c).filenames = false ∧ (g.featuresOf config c).hot = false :=
    Features.bare (Bool.eq_false_iff.mpr bare)
  rcases parts with names | updates
  · have filenames : (g.featuresOf config c).filenames = true := filenames_iff.mpr names
    rw [none.1] at filenames
    cases filenames
  · have hot := hot_iff.mpr updates
    rw [none.2] at hot
    cases hot

end Graph

/-! ## All faults, in their order -/

/-- The faults for which no runtime is emitted. Those of the later kinds come up only where there are none
of the earlier kinds. -/
inductive Config.Templates.Refuses (ts : config.Templates) (g : Graph) (asked : ChunkId) :
    GenerateError → Prop
  | unknownChunk (absent : ∀ chunk ∈ g.chunks, chunk.id.text ≠ asked.text) :
      Refuses ts g asked (.unknownChunk asked)
  | noHandler {c : ChunkId} (found : g.resolve? asked.text = some c)
      (none : config.loading.method = .none) (loads : g.LoadsOnDemand c) :
      Refuses ts g asked (.noHandler c)
  | filenames {c : ChunkId} (found : g.resolve? asked.text = some c)
      (handled : ¬ (config.loading.method = .none ∧ g.LoadsOnDemand c))
      (used : ts.names.uses .runtime = true) (names : g.NamesChunks c) :
      Refuses ts g asked (.template (.unresolved .runtime config.output.chunkFilename))
  | chunkAddress {c : ChunkId} {p : Placeholder} (found : g.resolve? asked.text = some c)
      (handled : ¬ (config.loading.method = .none ∧ g.LoadsOnDemand c))
      (named : ¬ (ts.names.uses .runtime = true ∧ g.NamesChunks c))
      (updates : g.TakesUpdates config c)
      (first : ts.chunkAddress.placeholders.find? (!·.inChunkAddress) = some p) :
      Refuses ts g asked (.template (.unresolved p config.hot.chunkAddress))
  | entryAddress {c : ChunkId} {p : Placeholder} (found : g.resolve? asked.text = some c)
      (handled : ¬ (config.loading.method = .none ∧ g.LoadsOnDemand c))
      (named : ¬ (ts.names.uses .runtime = true ∧ g.NamesChunks c))
      (updates : g.TakesUpdates config c)
      (expressed : ts.chunkAddress.placeholders.find? (!·.inChunkAddress) = none)
      (first : ts.entryAddress.placeholders.find? (!·.inEntryAddress) = some p) :
      Refuses ts g asked (.template (.unresolved p config.hot.entryAddress))

namespace Config.Templates

variable {ts : config.Templates}

/-- Filenames that are emitted can be made if their template does not ask for what it cannot have. -/
theorem isOk_filenames_of_named (ts : config.Templates) (found : g.resolve? asked.text = some c)
    (named : ¬ (ts.names.uses .runtime = true ∧ g.NamesChunks c))
    (emitted : (g.featuresOf config c).filenames = true) :
    (g.emittedFilenames config c).isOk = true := by
  have unused : ts.names.uses .runtime = false :=
    Bool.eq_false_iff.mpr fun used => named ⟨used, Graph.filenames_iff.mp emitted⟩
  rw [g.isOk_emittedFilenames ts (Graph.mem_of_resolve found) c, Template.mentions_eq ts.names_read]
  exact unused

/-- The addresses of updates can be expressed if their templates ask for nothing that they cannot have. -/
theorem updatesExpressible_iff (ts : config.Templates) : config.updatesExpressible = true ↔
    ts.chunkAddress.placeholders.find? (!·.inChunkAddress) = none ∧
      ts.entryAddress.placeholders.find? (!·.inEntryAddress) = none := by
  simp only [List.find?_eq_none, Template.mem_placeholders, Placeholder.forall_iff,
    Config.updatesExpressible, Template.mentions_eq ts.chunkAddress_read,
    Template.mentions_eq ts.entryAddress_read]
  simp [Placeholder.inChunkAddress, Placeholder.inEntryAddress, and_assoc]

/-- Each fault is reported. -/
theorem Refuses.generate_error (refuses : ts.Refuses g asked e) :
    g.generate config asked = .error e := by
  cases refuses with
  | unknownChunk absent =>
    -- No chunk has that text.
    have none : g.resolve? asked.text = none := by
      simpa [Graph.resolve?] using absent
    unfold Graph.generate
    rw [none]
  | noHandler found none loads =>
    have served : g.serves config _ = false :=
      Bool.eq_false_iff.mpr fun served => Graph.serves_iff.mp served ⟨none, loads⟩
    unfold Graph.generate
    simp only [found, Graph.guard_eq, served]
    rfl
  | filenames found handled used names =>
    refine Graph.generate_error found (Graph.serves_iff.mpr handled)
      (Graph.merger_of_parts (.inl names)) ?_
    exact Graph.sections_error_filenames (Graph.filenames_iff.mpr names)
      (Graph.emittedFilenames_error ts.names_read (Graph.mem_of_resolve found) used)
  | chunkAddress found handled named updates first =>
    refine Graph.generate_error found (Graph.serves_iff.mpr handled)
      (Graph.merger_of_parts (.inr updates)) ?_
    refine Graph.sections_error_update ?_ (Graph.hot_iff.mpr updates)
      (Graph.updateSettings_error_chunk ts first)
    exact ts.isOk_filenames_of_named found named
  | entryAddress found handled named updates expressed first =>
    refine Graph.generate_error found (Graph.serves_iff.mpr handled)
      (Graph.merger_of_parts (.inr updates)) ?_
    refine Graph.sections_error_update ?_ (Graph.hot_iff.mpr updates)
      (Graph.updateSettings_error_entry ts expressed first)
    exact ts.isOk_filenames_of_named found named

/-- Where there is no fault, a runtime is emitted. -/
theorem generates_of_not_refuses (none : ∀ e, ¬ ts.Refuses g asked e) :
    ∃ r, g.generate config asked = .ok r := by
  cases found : g.resolve? asked.text with
  | none =>
    have absent : ∀ chunk ∈ g.chunks, chunk.id.text ≠ asked.text := by
      simpa [Graph.resolve?] using found
    exact absurd (.unknownChunk absent) (none _)
  | some c =>
    have handled : ¬ (config.loading.method = .none ∧ g.LoadsOnDemand c) :=
      fun unhandled => none _ (.noHandler found unhandled.1 unhandled.2)
    have named : ¬ (ts.names.uses .runtime = true ∧ g.NamesChunks c) :=
      fun unnamed => none _ (.filenames found handled unnamed.1 unnamed.2)
    refine (generates_iff ts g asked).mpr ⟨c, found, Graph.serves_iff.mpr handled, ?_, ?_⟩
    · intro filenames
      rw [Template.mentions_eq ts.names_read]
      exact Bool.eq_false_iff.mpr fun used => named ⟨used, Graph.filenames_iff.mp filenames⟩
    · intro hot
      have updates := Graph.hot_iff.mp hot
      have chunk : ts.chunkAddress.placeholders.find? (!·.inChunkAddress) = Option.none :=
        Option.eq_none_iff_forall_ne_some.mpr fun p first =>
          none _ (.chunkAddress found handled named updates first)
      have entry : ts.entryAddress.placeholders.find? (!·.inEntryAddress) = Option.none :=
        Option.eq_none_iff_forall_ne_some.mpr fun p first =>
          none _ (.entryAddress found handled named updates chunk first)
      exact ts.updatesExpressible_iff.mpr ⟨chunk, entry⟩

/-- **When nothing is emitted.** Take any configuration whose three templates can be read (as those of every
configuration that can be read are, `Config.templates_of_read`), any graph and any chunk id. No runtime is
emitted exactly for these faults, which are looked for in this order: no chunk has the text of the id;
there is no loading method, and there are chunks that may be loaded later, or some block loads a group
that has chunks; filenames ask for the name of a runtime, and there are chunks that may be loaded later
or are prefetched; updates are on, some group of the chunk has another chunk or a child, and the address
of an updated chunk, or else that of the manifest, has a placeholder that no expression stands for, of
which the leftmost one is reported. In every other case a runtime is emitted. -/
theorem generate_error_iff (ts : config.Templates) (g : Graph) (asked : ChunkId) :
    (∀ e, g.generate config asked = .error e ↔ ts.Refuses g asked e) ∧
      ((∃ r, g.generate config asked = .ok r) ↔ ∀ e, ¬ ts.Refuses g asked e) := by
  constructor
  · intro e
    constructor
    · intro failed
      by_contra other
      -- Another fault would be reported instead, and without a fault there is a runtime.
      obtain ⟨r, emitted⟩ : ∃ r, g.generate config asked = .ok r := by
        refine generates_of_not_refuses fun e' (refuses : ts.Refuses g asked e') => other ?_
        have reported := refuses.generate_error
        rw [failed] at reported
        cases reported
        exact refuses
      rw [failed] at emitted
      cases emitted
    · exact Refuses.generate_error
  · constructor
    · rintro ⟨r, emitted⟩ e refuses
      rw [refuses.generate_error] at emitted
      cases emitted
    · exact generates_of_not_refuses

/-- With a manifest that is named by a chunk no runtime is emitted for a chunk whose group may load itself;
what is reported is the leftmost placeholder of the manifest's address. -/
theorem refused_updatedByName : Nonempty updatedByName.Templates ∧
    loopBuild.generate updatedByName (.name "main") =
      .error (.template (.unresolved .name "[name].[fullhash].json")) := by
  obtain ⟨ts⟩ := templates_of_read updatedByName_read
  refine ⟨⟨ts⟩, ((generate_error_iff ts loopBuild (.name "main")).1 _).mpr ?_⟩
  have expressed : ts.chunkAddress.placeholders.find? (!·.inChunkAddress) = none := by
    have given : (Template.parse updatedByName.hot.chunkAddress).map
        (·.placeholders.find? (!·.inChunkAddress)) = .ok none := by decide
    rw [ts.chunkAddress_read] at given
    exact Except.ok.inj given
  have first : ts.entryAddress.placeholders.find? (!·.inEntryAddress) = some .name := by
    have given : (Template.parse updatedByName.hot.entryAddress).map
        (·.placeholders.find? (!·.inEntryAddress)) = .ok (some .name) := by decide
    rw [ts.entryAddress_read] at given
    exact Except.ok.inj given
  have none : loopBuild.asyncChunks (.name "main") = [] := by decide
  have handled : ¬ (updatedByName.loading.method = .none ∧ loopBuild.LoadsOnDemand (.name "main")) :=
    fun unhandled => absurd unhandled.1 (by decide)
  have named : ¬ (ts.names.uses .runtime = true ∧ loopBuild.NamesChunks (.name "main")) := by
    rintro ⟨-, async | prefetched⟩
    · exact async none
    · exact prefetched (by decide +kernel)
  have updates : loopBuild.TakesUpdates updatedByName (.name "main") :=
    ⟨rfl, _, List.mem_filter.mpr ⟨List.mem_cons_self, by decide⟩, .inr (by decide)⟩
  exact .entryAddress (by decide) handled named updates expressed first

end Config.Templates

end ChunkLoading
