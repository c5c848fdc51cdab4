import ChunkLoading.Proofs.Header
import ChunkLoading.Proofs.Refusal
import ChunkLoading.Proofs.Resources

/-!
# Addresses in the model and in emitted code

A runtime that is built for a chunk and the one that is emitted for it ask for a chunk under the same
address: the public path, and the name that the emitted filename map has under the text of the chunk's
id (`addresses_agree`). The built runtime looks the chunk up by its id in the names of all chunks, the
emitted one by text in those of the chunks that it may load.
-/

namespace ChunkLoading

variable {config : Config} {g : Graph} {asked c : ChunkId}

/-! ## Built runtimes -/

namespace Blueprint

variable {b : Blueprint} {x : Option ExtensionId} {rt : Runtime}

/-- A built runtime has the options and handlers of its blueprint. -/
theorem settings_of_build (built : b.build x = .ok rt) :
    rt.options = b.options ∧ rt.handlers = b.allHandlers ∧ rt.onDemand = b.onDemand ∧
      rt.store = b.initialChunks.foldl Store.markInitial .empty := by
  unfold build at built
  split at built
  · cases built
  · rw [← Except.ok.inj built]
    exact ⟨rfl, rfl, rfl, rfl⟩

/-- The blueprint of a chunk's runtime. -/
theorem forChunk_ok (planned : forChunk config g asked = .ok b) : ∃ c options bootstrap,
    g.resolve? asked.text = some c ∧ Options.ofConfig config g = .ok options ∧
      bootstrapFor config g c (g.requirementsOf c) = .ok bootstrap ∧ b = { standard with
        options := options
        onDemand := (g.requirementsOf c).onDemandLoading
        scriptLoading := !(g.requirementsOf c).isNoopLoading
        noopLoading := (g.requirementsOf c).isNoopLoading
        entryDeferral := g.needsEntryDeferral
        prefetch := (g.requirementsOf c).prefetch
        initialChunks := [c]
        preload := .ofList g.preloadMap
        bootstrap := bootstrap } := by
  unfold forChunk at planned
  cases found : g.resolve? asked.text with
  | none => simp [found] at planned
  | some c =>
    simp only [found] at planned
    split at planned
    · cases planned
    · cases options : Options.ofConfig config g with
      | error e => simp [options, Except.mapError, bind, Except.bind] at planned
      | ok o =>
        cases bootstrap : bootstrapFor config g c (g.requirementsOf c) with
        | error e => simp [options, bootstrap, Except.mapError, bind, Except.bind] at planned
        | ok boot =>
          simp only [options, bootstrap, Except.mapError, bind, Except.bind, pure, Except.pure,
            Except.ok.injEq] at planned
          exact ⟨c, o, boot, rfl, rfl, bootstrap, planned.symm⟩

end Blueprint

theorem Options.ofConfig_ok {o : Options} (made : ofConfig config g = .ok o) : ∃ t,
    Template.parse config.output.chunkFilename = .ok t ∧ g.filenames t = .ok o.filenames ∧
      o.publicPath = config.output.publicPath := by
  unfold ofConfig at made
  obtain ⟨t, read, made⟩ := bind_ok.mp made
  obtain ⟨names, filenames, made⟩ := bind_ok.mp made
  rw [← Except.ok.inj made]
  exact ⟨t, read, filenames, rfl⟩

/-! ## One filename for each chunk -/

namespace Graph

/-- The options of a build have the filename of each of its chunks. -/
theorem filename_of_ofConfig {o : Options} (made : Options.ofConfig config g = .ok o)
    (known : c ∈ g.chunks.map (·.id)) : g.IsFilename config c (o.filename c) := by
  obtain ⟨t, read, filenames, -⟩ := Options.ofConfig_ok made
  obtain ⟨-, source, image⟩ := filenames_ok filenames
  obtain ⟨name, member⟩ := image c known
  have found : (o.filenames.lookup c).isSome = true :=
    List.lookup_isSome_iff.mpr ⟨_, member, by simp⟩
  obtain ⟨name', found⟩ := Option.isSome_iff_exists.mp found
  obtain ⟨chunk, inside, id, rendered⟩ := source c name' (mem_of_lookup found)
  unfold Options.filename
  rw [found]
  exact ⟨t, chunk, read, inside, id, rendered⟩

theorem Valid.mem_of_asyncChunks (valid : g.Valid) {x : ChunkId} (later : x ∈ g.asyncChunks c) :
    x ∈ g.chunks.map (·.id) := valid.mem_of_reachesChunk (mem_asyncChunks.mp later).1

/-- Different chunks of a valid graph have different texts. -/
theorem Valid.texts_nodup (valid : g.Valid) {cs : List ChunkId} (once : cs.Nodup)
    (inGraph : ∀ x ∈ cs, x ∈ g.chunks.map (·.id)) : (cs.map Id.text).Nodup := by
  refine once.map_on fun x first y second same => ?_
  exact valid.text_inj (inGraph x first) (inGraph y second) same

/-- **The keys of an emitted filename map** are the texts of the chunks that may be loaded later, each
once. -/
theorem emittedFilenames_keys (valid : g.Valid) {names : List (String × String)}
    (made : g.emittedFilenames config c = .ok names) :
    (names.map (·.1)).Perm ((g.asyncChunks c).map Id.text) ∧
      ((g.asyncChunks c).map Id.text).Nodup := by
  obtain ⟨once, source, image⟩ := emittedFilenames_entries made
  have texts : ((g.asyncChunks c).map Id.text).Nodup :=
    valid.texts_nodup (nodup_eraseDups _) fun _ => valid.mem_of_asyncChunks
  refine ⟨(List.perm_ext_iff_of_nodup once texts).mpr fun key => ?_, texts⟩
  rw [List.mem_map, List.mem_map]
  constructor
  · rintro ⟨⟨key, name⟩, member, rfl⟩
    obtain ⟨x, later, text, -⟩ := source key name member
    exact ⟨x, later, text⟩
  · rintro ⟨x, later, rfl⟩
    exact List.mem_map.mp (image x later (valid.mem_of_asyncChunks later))

/-! ## The same addresses -/

/-- The lines of a runtime with a filename map set its public path and the map. -/
theorem lines_of_filenames {f : Features} {ss : List Section} {names : List (String × String)}
    (made : g.sections config c f = .ok ss) (mapped : .filenames names ∈ ss) :
    "  __chunkwise_require__.p = " ++ Literal.string config.output.publicPath ++ ";" ∈ sectionLines ss ∧
      "  var chunkFilenames = " ++ Literal.strings names ++ ";" ∈ sectionLines ss := by
  obtain ⟨emitted, -⟩ := sections_mapped made mapped
  have resources : .resources config.resourceSettings ∈ ss := by
    obtain ⟨names', update, -, rfl⟩ := sections_ok made
    simp [emitted]
  exact ⟨line_mem_sectionLines resources List.mem_cons_self,
    line_mem_sectionLines mapped List.mem_cons_self⟩

/-- The options of a built runtime are those of the build. -/
theorem options_of_built {b : Blueprint} {x : Option ExtensionId} {rt : Runtime}
    (planned : Blueprint.forChunk config g asked = .ok b) (built : b.build x = .ok rt) :
    Options.ofConfig config g = .ok rt.options := by
  obtain ⟨c, options, bootstrap, -, made, -, rfl⟩ := Blueprint.forChunk_ok planned
  rw [(Blueprint.settings_of_build built).1]
  exact made

/-- **One address for each chunk.** Take any configuration, any graph that can be read, and a chunk for
which a runtime is both built and emitted, the latter with a filename map. The emitted code sets the
public path and the map by literals that are read back as what they were made from. The keys of the map
are the texts of the chunks that may be loaded later, no two of which are alike. Wherever the built
runtime comes to stand on a page, and whatever happens then, all requests and hints that it makes for
such a chunk go to the public path followed by the name that the map has for the chunk. -/
theorem addresses_agree {json : String} {b : Blueprint} {x : Option ExtensionId} {rt : Runtime}
    {r : GeneratedRuntime} {ss : List Section} {names : List (String × String)}
    (read : Graph.read json = .ok g) (planned : Blueprint.forChunk config g asked = .ok b)
    (built : b.build x = .ok rt) (emitted : g.generate config asked = .ok r)
    (made : g.sections config r.chunk (g.featuresOf config r.chunk) = .ok ss)
    (mapped : .filenames names ∈ ss) :
    (∃ lines, r.code = unlines lines ∧
      "  __chunkwise_require__.p = " ++ Literal.string config.output.publicPath ++ ";" ∈ lines ∧
      "  var chunkFilenames = " ++ Literal.strings names ++ ";" ∈ lines) ∧
    Literal.readString? (Literal.string config.output.publicPath) = some config.output.publicPath ∧
    Literal.readStrings? (Literal.strings names) = some names ∧
    (names.map (·.1)).Perm ((g.asyncChunks r.chunk).map Id.text) ∧
    ((g.asyncChunks r.chunk).map Id.text).Nodup ∧
    ∀ c ∈ g.asyncChunks r.chunk, ∃ name, (c.text, name) ∈ names ∧
      rt.options.address c = config.output.publicPath ++ name ∧
      ∀ (p : Page) (i : RuntimeId), p.Reachable → p.runtimes[i]? = some rt → ∀ ms : List Move,
        (∀ number q, .injected number q ∈ (p.follow ms).log → q.runtime = i → q.chunk = c →
          q.address = config.output.publicPath ++ name) ∧
        ∀ kind address nonce crossOrigin,
          .hinted i c kind address nonce crossOrigin ∈ (p.follow ms).log →
          address = config.output.publicPath ++ name := by
  have valid := valid_of_read read
  obtain ⟨filenames, given, -⟩ := sections_mapped made mapped
  have merger : (g.featuresOf config r.chunk).merger = true :=
    merger_of_parts (.inl (filenames_iff.mp filenames))
  obtain ⟨keys, texts⟩ := emittedFilenames_keys valid given
  have options := options_of_built planned built
  obtain ⟨t, -, -, publicPath⟩ := Options.ofConfig_ok options
  refine ⟨⟨g.headerLine r.chunk :: "(() => \x7b" :: sectionLines ss, ?_, ?_⟩,
    Literal.readString?_string _, Literal.readStrings?_strings _, keys, texts, ?_⟩
  · rw [code_of_generate emitted made merger, runtimeText_eq]
  · obtain ⟨path, map⟩ := lines_of_filenames made mapped
    exact ⟨.tail _ (.tail _ path), .tail _ (.tail _ map)⟩
  · intro c later
    -- The chunk is in the filename map, with the filename that the built runtime has for it.
    have known := valid.mem_of_asyncChunks later
    obtain ⟨reached, first⟩ := mem_asyncChunks.mp later
    obtain ⟨name, filename, member⟩ := known_of_reachesChunk valid given reached first
    have address : rt.options.address c = config.output.publicPath ++ name := by
      have same := valid.isFilename_unique (filename_of_ofConfig options known) filename
      rw [Options.address, publicPath, same]
    refine ⟨name, member, address, ?_⟩
    intro p i reachable there ms
    obtain ⟨inRange, there⟩ := List.getElem?_eq_some_iff.mp there
    have own : p.runtime i = rt := by
      rw [Page.runtime, List.getD, List.getElem?_eq_getElem inRange, there]
      rfl
    constructor
    · intro number q asked runtime chunk
      -- Requests and hints are made out by the options of the runtime, which never change.
      rw [(reachable.injected inRange ms asked runtime).1, own, chunk]
      exact address
    · intro kind address' nonce crossOrigin hinted
      have told := reachable.hinted inRange ms hinted
      rw [own] at told
      exact (Event.hinted.inj told).2.2.2.1.trans address

end Graph

/-- The runtime of chunk `1` of a build may load chunk `3`, and knows its address by the map. -/
theorem addresses_agree_shared : Graph.read sharedBuildText = .ok sharedBuild ∧
    ∃ b rt r ss names, Blueprint.forChunk .standard sharedBuild (.number 1) = .ok b ∧
      b.build none = .ok rt ∧ sharedBuild.generate .standard (.number 1) = .ok r ∧
      sharedBuild.sections .standard r.chunk (sharedBuild.featuresOf .standard r.chunk) = .ok ss ∧
      .filenames names ∈ ss ∧ Literal.readStrings? (Literal.strings names) = some names ∧
      names.map (·.1) = ["3"] ∧ ∃ name, ("3", name) ∈ names ∧
        rt.options.address (.number 3) = "/" ++ name := by
  obtain ⟨b, planned⟩ : ∃ b, Blueprint.forChunk .standard sharedBuild (.number 1) = .ok b :=
    isOk_iff.mp (by decide)
  obtain ⟨rt, built⟩ : ∃ rt, b.build none = .ok rt := by
    obtain ⟨c, options, bootstrap, -, -, -, rfl⟩ := Blueprint.forChunk_ok planned
    exact Blueprint.build_ok rfl none
  obtain ⟨r, emitted⟩ : ∃ r, sharedBuild.generate .standard (.number 1) = .ok r :=
    isOk_iff.mp (by decide)
  have own : r.chunk = .number 1 := by
    have first : sharedBuild.resolve? (Id.number 1).text = some (.number 1) := by decide
    exact (Option.some.inj (first.symm.trans (Graph.resolve_of_generate emitted))).symm
  obtain ⟨ss, made, -⟩ := Graph.sections_of_generate emitted (by rw [own, sharedFeatures_eq]; rfl)
  obtain ⟨names, update, -, form⟩ := Graph.sections_ok made
  have mapped : .filenames names ∈ ss := by
    rw [form, own, sharedFeatures_eq]
    simp [sharedFeatures]
  obtain ⟨-, -, literal, keys, -, addresses⟩ :=
    Graph.addresses_agree sharedBuild_read planned built emitted made mapped
  have later : sharedBuild.asyncChunks r.chunk = [.number 3] := by
    rw [own]
    decide
  rw [later] at keys addresses
  obtain ⟨name, member, address, -⟩ := addresses (.number 3) List.mem_cons_self
  have text : (Id.number 3).text = "3" := by decide
  rw [text] at member
  refine ⟨sharedBuild_read, b, rt, r, ss, names, planned, built, emitted, made, mapped, literal, ?_, name,
    member, address⟩
  exact List.perm_singleton.mp keys

end ChunkLoading
