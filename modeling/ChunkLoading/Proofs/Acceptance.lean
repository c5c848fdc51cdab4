import ChunkLoading.Emitted.Generation
import ChunkLoading.Page.Blueprint
import ChunkLoading.Proofs.Placeholders
import ChunkLoading.Proofs.Validity

/-!
# Which inputs are accepted

A runtime can be built for a chunk (`launches_iff`), and one can be emitted for it (`generates_iff`),
under nearly the same conditions: the chunk is there and can load what its code asks for. They differ in
the templates that they make use of. A built runtime knows the filenames of all chunks and gives the
addresses of updates when asked; an emitted one has the filenames and the addresses only if it uses
them, and then all at once (`launches_iff_generates`).
-/

namespace ChunkLoading

variable {config : Config} {g : Graph} {c asked : ChunkId}

/-! ## Filenames -/

/-- All chunks have filenames exactly when the template does not ask for the name of a runtime. -/
theorem Graph.isOk_filenames (known : c ∈ g.chunks.map (·.id)) (t : Template) :
    (g.filenames t).isOk = true ↔ t.uses .runtime = false := by
  have named : (g.filenames t).isOk =
      g.chunks.all fun c => (t.render (filenameValue g.fullHash c)).isOk := by
    unfold filenames
    rw [isOk_bind_pure, isOk_mapM]
    exact congrArg (g.chunks.all ·) (funext fun c => isOk_bind_pure ..)
  have value (c : Chunk) (p : Placeholder) :
      (filenameValue g.fullHash c p).isSome = true ↔ p ≠ .runtime := by
    cases p <;> simp [filenameValue]
  rw [named, List.all_eq_true]
  constructor
  · intro all
    obtain ⟨chunk, member, -⟩ := List.mem_map.mp known
    have given := Template.isOk_render _ |>.mp (all chunk member)
    -- There is no value for the name of a runtime.
    cases used : t.uses .runtime with
    | false => rfl
    | true => exact absurd rfl ((value chunk .runtime).mp (given .runtime used))
  · intro unused chunk _
    refine (Template.isOk_render _).mpr fun p used => (value chunk p).mpr ?_
    rintro rfl
    rw [unused] at used
    cases used

theorem Options.isOk_ofConfig (templates : config.Templates) (known : c ∈ g.chunks.map (·.id)) :
    (Options.ofConfig config g).isOk = true ↔
      Template.mentions config.output.chunkFilename .runtime = false := by
  rw [Template.mentions_eq templates.names_read, ← g.isOk_filenames known]
  unfold ofConfig
  rw [templates.names_read]
  show Except.isOk (g.filenames templates.names >>= fun names => pure _) = true ↔ _
  rw [isOk_bind_pure]

theorem Graph.isOk_emittedFilenames (templates : config.Templates)
    (known : c ∈ g.chunks.map (·.id)) (d : ChunkId) :
    (g.emittedFilenames config d).isOk = true ↔
      Template.mentions config.output.chunkFilename .runtime = false := by
  rw [Template.mentions_eq templates.names_read, ← g.isOk_filenames known]
  unfold emittedFilenames
  rw [templates.names_read]
  show Except.isOk (g.filenames templates.names >>= fun names => pure _) = true ↔ _
  rw [isOk_bind_pure]

/-! ## Updates -/

theorem Placeholder.forall_iff {P : Placeholder → Prop} : (∀ p, P p) ↔
    P .id ∧ P .name ∧ P .contentHash ∧ P .fullHash ∧ P .runtime := by
  constructor
  · intro all
    exact ⟨all _, all _, all _, all _, all _⟩
  · rintro ⟨id, name, contentHash, fullHash, runtime⟩ p
    cases p <;> assumption

/-- The addresses of updates can be written as expressions: that of a chunk from its id, and both from
the hash of the build and the name of the runtime. -/
def Config.updatesExpressible (config : Config) : Bool :=
  !Template.mentions config.hot.chunkAddress .name &&
  !Template.mentions config.hot.chunkAddress .contentHash &&
  !Template.mentions config.hot.entryAddress .id &&
  !Template.mentions config.hot.entryAddress .name &&
  !Template.mentions config.hot.entryAddress .contentHash

/-- An update section can be made exactly when its addresses can be written. -/
theorem Graph.isOk_updateSettings (templates : config.Templates) (g : Graph) (c : ChunkId) :
    (g.updateSettings config c).isOk = true ↔ config.updatesExpressible = true := by
  unfold updateSettings
  rw [templates.chunkAddress_read, templates.entryAddress_read]
  show Except.isOk (templates.chunkAddress.expression _ >>= fun chunkAddress =>
    templates.entryAddress.expression _ >>= fun entryAddress => pure _) = true ↔ _
  rw [isOk_bind_bind_pure, Bool.and_eq_true, Template.isOk_expression, Template.isOk_expression]
  -- What has no value must not be used.
  simp [Placeholder.forall_iff, Config.updatesExpressible,
    Template.mentions_eq templates.chunkAddress_read, Template.mentions_eq templates.entryAddress_read,
    and_assoc]

/-- The bootstrap of a built runtime can always be made. -/
theorem Blueprint.isOk_bootstrapFor (templates : config.Templates) (g : Graph) (c : ChunkId)
    (needs : Requirements) : (bootstrapFor config g c needs).isOk = true := by
  unfold bootstrapFor Bootstrap.ofConfig
  rw [templates.chunkAddress_read, templates.entryAddress_read]
  split <;> rfl

/-! ## Building and emitting -/

/-- A chunk has a way to load what its code asks for. -/
def Graph.serves (g : Graph) (config : Config) (c : ChunkId) : Bool :=
  !((g.requirementsOf c).onDemandLoading && config.loading.method = .none)

/-- The guard that both ways of getting a runtime have. -/
theorem Graph.guard_eq (g : Graph) (config : Config) (c : ChunkId) :
    ((g.requirementsOf c).onDemandLoading && config.loading.method = .none) = !g.serves config c :=
  (Bool.not_not _).symm

/-- A runtime with the handlers that its chunk calls for can be built. -/
theorem Blueprint.build_ok {b : Blueprint} (handled : b.scriptLoading = !b.noopLoading)
    (x : Option ExtensionId) : ∃ rt, b.build x = .ok rt := by
  have some : b.onDemand = true → b.allHandlers ≠ [] := by
    intro onDemand
    simp only [allHandlers, onDemand, builtIn, handled]
    cases b.noopLoading <;> simp
  unfold build
  rw [if_neg (by simpa using some)]
  exact ⟨_, rfl⟩

/-- **Which chunks a runtime can be built for:** those that are there and have a way to load what their
code asks for, if the filename template does not ask for the name of a runtime. -/
theorem launches_iff (templates : config.Templates) (g : Graph) (asked : ChunkId)
    (x : Option ExtensionId) :
    (∃ b rt, Blueprint.forChunk config g asked = .ok b ∧ b.build x = .ok rt) ↔
      ∃ c, g.resolve? asked.text = some c ∧ g.serves config c = true ∧
        Template.mentions config.output.chunkFilename .runtime = false := by
  unfold Blueprint.forChunk
  cases found : g.resolve? asked.text with
  | none => simp
  | some c =>
    have known := Graph.mem_of_resolve found
    obtain ⟨bootstrap, bootstrapped⟩ :=
      isOk_iff.mp (Blueprint.isOk_bootstrapFor templates g c (g.requirementsOf c))
    cases served : g.serves config c with
    | false => simp [Graph.guard_eq, served, bind, Except.bind]
    | true =>
      rw [← Options.isOk_ofConfig templates known]
      simp only [Graph.guard_eq, served, bootstrapped]
      cases options : Options.ofConfig config g with
      | error e => simp [Except.mapError, bind, Except.bind, Except.isOk, Except.toBool]
      | ok o =>
        refine iff_of_true ?_ ⟨c, rfl, served, rfl⟩
        exact ⟨_, _, rfl, (Blueprint.build_ok rfl x).choose_spec⟩

/-- The sections of a runtime can be made exactly when the templates of those that it has allow it. -/
theorem Graph.isOk_sections (templates : config.Templates) (known : c ∈ g.chunks.map (·.id))
    (f : Features) : (g.sections config c f).isOk = true ↔
      (f.filenames = true → Template.mentions config.output.chunkFilename .runtime = false) ∧
      (f.hot = true → config.updatesExpressible = true) := by
  let names : Except TemplateError (List (String × String)) :=
    if f.filenames then g.emittedFilenames config c else pure []
  let update : Except TemplateError (Option UpdateSettings) :=
    if f.hot then some <$> g.updateSettings config c else pure none
  -- Two things can fail, and each is made only if it is emitted.
  have both : (g.sections config c f).isOk = (names.isOk && update.isOk) := by
    simp only [names, update]
    unfold sections
    cases f.filenames with
    | false =>
      cases f.hot with
      | false => rfl
      | true => exact isOk_bind_pure ..
    | true =>
      cases g.emittedFilenames config c with
      | error e => rfl
      | ok names =>
        cases f.hot with
        | false => rfl
        | true => exact isOk_bind_pure ..
  have named : names.isOk = true ↔
      (f.filenames = true → Template.mentions config.output.chunkFilename .runtime = false) := by
    rw [← g.isOk_emittedFilenames templates known c]
    cases emitted : f.filenames <;> simp [names, emitted, pure, Except.pure, Except.isOk, Except.toBool]
  have updated : update.isOk = true ↔ (f.hot = true → config.updatesExpressible = true) := by
    rw [← g.isOk_updateSettings templates c]
    cases emitted : f.hot with
    | false => simp [update, emitted, pure, Except.pure, Except.isOk, Except.toBool]
    | true =>
      simp only [update, emitted, if_true]
      cases g.updateSettings config c <;> simp [Functor.map, Except.map, Except.isOk, Except.toBool]
  rw [both, Bool.and_eq_true, named, updated]

theorem Requirements.isEmpty_iff {needs : Requirements} : needs.isEmpty = true ↔
    needs.onDemandLoading = false ∧ needs.entryDeferral = false ∧ needs.prefetch = false ∧
      needs.chunkLoadingCode = false := by
  simp [Requirements.isEmpty, and_assoc]

/-- A runtime of which nothing is emitted has neither filenames nor updates. -/
theorem Features.bare {needs : Requirements} {deferral hasPreloads : Bool}
    (nothing : (Features.of config needs deferral hasPreloads).merger = false) :
    (Features.of config needs deferral hasPreloads).filenames = false ∧
      (Features.of config needs deferral hasPreloads).hot = false := by
  have idle : needs.isEmpty = true := by
    simp only [Features.of, Bool.or_eq_false_iff, Bool.not_eq_false'] at nothing
    exact nothing.1
  obtain ⟨onDemandLoading, -, prefetch, chunkLoadingCode⟩ := Requirements.isEmpty_iff.mp idle
  simp [Features.of, onDemandLoading, prefetch, chunkLoadingCode]

/-- **Which chunks a runtime can be emitted for:** those that are there and have a way to load what their
code asks for. If filenames are emitted, their template must not ask for the name of a runtime, and if
a bootstrap for updates is emitted, it must be possible to write its addresses as expressions. -/
theorem generates_iff (templates : config.Templates) (g : Graph) (asked : ChunkId) :
    (∃ r, g.generate config asked = .ok r) ↔
      ∃ c, g.resolve? asked.text = some c ∧ g.serves config c = true ∧
        ((g.featuresOf config c).filenames = true →
          Template.mentions config.output.chunkFilename .runtime = false) ∧
        ((g.featuresOf config c).hot = true → config.updatesExpressible = true) := by
  unfold Graph.generate
  cases found : g.resolve? asked.text with
  | none => simp
  | some c =>
    have known := Graph.mem_of_resolve found
    cases served : g.serves config c with
    | false => simp [Graph.guard_eq, served, bind, Except.bind]
    | true =>
      have sections := g.isOk_sections templates known (g.featuresOf config c)
      simp only [Graph.guard_eq, served, Bool.not_true, Bool.false_eq_true, if_false]
      cases merger : (g.featuresOf config c).merger with
      | false =>
        -- Nothing is emitted, so nothing can fail.
        obtain ⟨filenames, hot⟩ := Features.bare merger
        refine iff_of_true ⟨_, rfl⟩ ⟨c, rfl, served, ?_, ?_⟩
        · exact fun emitted => absurd emitted (by rw [Graph.featuresOf, filenames]; simp)
        · exact fun emitted => absurd emitted (by rw [Graph.featuresOf, hot]; simp)
      | true =>
        cases made : g.sections config c (g.featuresOf config c) with
        | error e =>
          rw [made] at sections
          -- The sections cannot be made, so one of the two conditions does not hold.
          have failed := mt sections.mpr (by simp [Except.isOk, Except.toBool])
          simpa [Except.mapError, bind, Except.bind, served] using failed
        | ok ss =>
          rw [made] at sections
          exact iff_of_true ⟨_, rfl⟩ ⟨c, rfl, served, sections.mp rfl⟩

/-! ## Both at once -/

/-- **Where building and emitting a runtime go together.** Take any configuration that can be read, any
graph and any chunk id. A runtime can be built for the chunk, extension or not, exactly if the chunk is
there, has a way to load what its code asks for, and the filename template does not ask for the name
of a runtime. A runtime can be emitted for it exactly if the first two hold, the third holds in case
filenames are emitted, and the addresses of updates can be written as expressions in case a bootstrap
is emitted. So the two go together unless the filename template asks for the name of a runtime, or a
bootstrap is emitted whose addresses cannot be written. -/
theorem launches_iff_generates {text : String} (configured : Config.read text = .ok config)
    (g : Graph) (asked : ChunkId) (x : Option ExtensionId) :
    ((∃ b rt, Blueprint.forChunk config g asked = .ok b ∧ b.build x = .ok rt) ↔
      ∃ c, g.resolve? asked.text = some c ∧ g.serves config c = true ∧
        Template.mentions config.output.chunkFilename .runtime = false) ∧
    ((∃ r, g.generate config asked = .ok r) ↔
      ∃ c, g.resolve? asked.text = some c ∧ g.serves config c = true ∧
        ((g.featuresOf config c).filenames = true →
          Template.mentions config.output.chunkFilename .runtime = false) ∧
        ((g.featuresOf config c).hot = true → config.updatesExpressible = true)) ∧
    (Template.mentions config.output.chunkFilename .runtime = false →
      (∀ c, g.resolve? asked.text = some c → (g.featuresOf config c).hot = true →
        config.updatesExpressible = true) →
      ((∃ b rt, Blueprint.forChunk config g asked = .ok b ∧ b.build x = .ok rt) ↔
        ∃ r, g.generate config asked = .ok r)) := by
  obtain ⟨templates⟩ := Config.templates_of_read configured
  have launches := launches_iff templates g asked x
  have generates := generates_iff templates g asked
  refine ⟨launches, generates, fun unnamed expressible => ?_⟩
  rw [launches, generates]
  constructor
  · rintro ⟨c, found, served, -⟩
    exact ⟨c, found, served, fun _ => unnamed, expressible c found⟩
  · rintro ⟨c, found, served, -, -⟩
    exact ⟨c, found, served, unnamed⟩

/-- A build with a chunk that loads another one later. -/
def splitBuild : Graph where
  hash := some "0123"
  chunks := [⟨.name "main", none, [], some "aa"⟩, ⟨.number 7, none, [], some "bb"⟩]
  groups := [⟨"main", .entry, [.name "main"], ["late"], none, none, none⟩,
    ⟨"late", .async, [.number 7], [], none, some 1, none⟩]
  blocks := []

/-- Updates are on. -/
def updated : Config :=
  { Config.standard with
    project := ⟨"app", "0.1.0"⟩
    hot := { HotSettings.standard with enabled := true } }

def updatedText : String := "[project]\nname = \"app\"\n[hot]\nenabled = true\n"

theorem launches_split : Config.read updatedText = .ok updated ∧
    (∃ b rt, Blueprint.forChunk updated splitBuild (.name "main") = .ok b ∧ b.build none = .ok rt) ∧
    ∃ r, splitBuild.generate updated (.name "main") = .ok r := by
  have configured : Config.read updatedText = .ok updated := by decide +kernel
  obtain ⟨launches, -, together⟩ :=
    launches_iff_generates configured splitBuild (.name "main") none
  have launched := launches.mpr ⟨.name "main", by decide +kernel, by decide +kernel, by decide +kernel⟩
  have expressible : updated.updatesExpressible = true := by decide +kernel
  exact ⟨configured, launched,
    (together (by decide +kernel) fun _ _ _ => expressible).mp launched⟩

/-- A build of one chunk, which needs no runtime. -/
def loneBuild : Graph := ⟨some "0123", [⟨.name "main", none, [], none⟩], [], []⟩

def loneBuildText : String :=
  "\x7b\"hash\": \"0123\", \"chunks\": [\x7b\"id\": \"main\"\x7d]\x7d"

/-- Filenames ask for the name of a runtime. -/
def namedByRuntime : Config :=
  { Config.standard with
    project := ⟨"app", "0.1.0"⟩
    output := { OutputSettings.standard with chunkFilename := "[runtime].js" } }

def namedByRuntimeText : String :=
  "[project]\nname = \"app\"\n[output]\nchunk_filename = \"[runtime].js\"\n"

/-- A build of one chunk, whose group may load itself. -/
def loopBuild : Graph where
  hash := some "0"
  chunks := [⟨.name "main", none, [], none⟩]
  groups := [⟨"g", .entry, [.name "main"], ["g"], none, none, none⟩]
  blocks := []

def loopBuildText : String :=
  "\x7b\"hash\":\"0\",\"chunks\":[\x7b\"id\":\"main\"\x7d],\"groups\":[\x7b\"id\":\"g\"," ++
  "\"kind\":\"entry\",\"chunks\":[\"main\"],\"children\":[\"g\"]\x7d]\x7d"

/-- The manifest of an update is named by a chunk. -/
def updatedByName : Config :=
  { Config.standard with
    project := ⟨"app", "0.1.0"⟩
    hot := { HotSettings.standard with enabled := true, entryAddress := "[name].[fullhash].json" } }

def updatedByNameText : String :=
  "[project]\nname = \"app\"\n[hot]\nenabled = true\n" ++
  "entry_address_template = \"[name].[fullhash].json\"\n"

theorem updatedByName_read : Config.read updatedByNameText = .ok updatedByName := by decide +kernel

/-- A chunk that needs no filename is emitted but not built when filenames ask for the name of a runtime,
and a chunk is built but not emitted when the manifest of its updates is named by a chunk. -/
theorem launches_apart :
    (Config.read namedByRuntimeText = .ok namedByRuntime ∧
      Graph.read loneBuildText = .ok loneBuild ∧
      (∃ r, loneBuild.generate namedByRuntime (.name "main") = .ok r) ∧
      ¬∃ b rt, Blueprint.forChunk namedByRuntime loneBuild (.name "main") = .ok b ∧
        b.build none = .ok rt) ∧
    Config.read updatedByNameText = .ok updatedByName ∧
      Graph.read loopBuildText = .ok loopBuild ∧
      (∃ b rt, Blueprint.forChunk updatedByName loopBuild (.name "main") = .ok b ∧
        b.build none = .ok rt) ∧
      ¬∃ r, loopBuild.generate updatedByName (.name "main") = .ok r := by
  have named : Config.read namedByRuntimeText = .ok namedByRuntime := by decide +kernel
  have lone : Graph.read loneBuildText = .ok loneBuild :=
    Graph.read_of_chars (toList_of_chars rfl) (by decide +kernel) (by decide)
  have loop : Graph.read loopBuildText = .ok loopBuild :=
    Graph.read_of_chars (toList_append_of_chars (toList_of_chars rfl) (toList_of_chars rfl))
      (by decide +kernel) (by decide)
  refine ⟨⟨named, lone, ?_, ?_⟩, updatedByName_read, loop, ?_, ?_⟩
  · -- No filename is emitted for a chunk on its own.
    exact isOk_iff.mp (by decide +kernel)
  · -- A runtime is built only with the filenames of all chunks.
    have failed : Blueprint.forChunk namedByRuntime loneBuild (.name "main") =
        .error (.template (.unresolved .runtime "[runtime].js")) := by decide +kernel
    simp [failed]
  · -- To build a runtime, the template of the manifest is only read.
    obtain ⟨templates⟩ := Config.templates_of_read updatedByName_read
    exact (launches_iff templates loopBuild (.name "main") none).mpr
      ⟨.name "main", by decide +kernel, by decide +kernel, by decide +kernel⟩
  · -- To emit one, the address of the manifest is written as an expression.
    have failed : (loopBuild.generate updatedByName (.name "main")).isOk = false := by
      decide +kernel
    rw [← isOk_iff, failed]
    simp

end ChunkLoading
