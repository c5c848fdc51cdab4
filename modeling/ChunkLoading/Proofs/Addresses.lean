import ChunkLoading.Proofs.Acceptance
import ChunkLoading.Proofs.Reachability
import ChunkLoading.Proofs.Tables

/-!
# The addresses that an emitted runtime knows

The filename map of an emitted runtime has exactly the chunks that are reached and not loaded along
with its own chunk, each with its filename (`filenames_known`). A chunk that is loaded along with it may
still be hinted, and so may a preload child that is not reached; the runtime does not know their
filenames (`hinted_unknown`).
-/

namespace ChunkLoading

/-! ## Tables -/

/-- Entries of a written table are among the given ones. -/
theorem mem_of_mem_sortedTable {α : Type} {ps : List (String × α)} {e : String × α}
    (member : e ∈ sortedTable ps) : e ∈ ps := by
  rcases Assoc.mem_of_mem_setAll ((List.mergeSort_perm ..).subset member) with old | given
  · cases old
  · exact given

/-- The keys of a written table are the given ones, each once. -/
theorem keys_sortedTable {α : Type} (ps : List (String × α)) : ((sortedTable ps).map (·.1)).Nodup ∧
    ∀ key, key ∈ (sortedTable ps).map (·.1) ↔ key ∈ ps.map (·.1) := by
  obtain ⟨once, members⟩ := Assoc.keys_setAll ⟨[]⟩ ps List.nodup_nil
  have perm := (List.mergeSort_perm (Assoc.ofList ps).entries fun x y => x.1 ≤ y.1).map (·.1)
  refine ⟨perm.nodup_iff.mpr once, fun key => perm.mem_iff.trans ((members key).trans ?_)⟩
  simp [Assoc.keys]

namespace Graph

variable {config : Config} {g : Graph} {c x asked : ChunkId} {name : String}

/-! ## Filenames -/

/-- The filename of a chunk in a configured build. -/
def IsFilename (g : Graph) (config : Config) (x : ChunkId) (name : String) : Prop :=
  ∃ t chunk, Template.parse config.output.chunkFilename = .ok t ∧ chunk ∈ g.chunks ∧ chunk.id = x ∧
    t.render (filenameValue g.fullHash chunk) = .ok name

/-- The filenames of a build are those of its chunks, one for each id. -/
theorem filenames_ok {t : Template} {names : List (ChunkId × String)}
    (made : g.filenames t = .ok names) : (names.map (·.1)).Nodup ∧
      (∀ x name, (x, name) ∈ names → ∃ chunk ∈ g.chunks, chunk.id = x ∧
        t.render (filenameValue g.fullHash chunk) = .ok name) ∧
      ∀ x ∈ g.chunks.map (·.id), ∃ name, (x, name) ∈ names := by
  unfold filenames at made
  obtain ⟨named, rendered, made⟩ := bind_ok.mp made
  let ids := Id.sort (g.chunks.map (·.id)).eraseDups
  obtain rfl : ids.filterMap (fun id => (named.reverse.lookup id).map (id, ·)) = names := by
    simpa [pure, Except.pure] using made
  have once : ids.Nodup := (List.mergeSort_perm ..).nodup_iff.mpr (nodup_eraseDups _)
  obtain ⟨source, image⟩ := mem_of_mapM rendered
  have rendering {chunk : Chunk} {entry : ChunkId × String}
      (given : (do return (chunk.id, ← t.render (filenameValue g.fullHash chunk))) = .ok entry) :
      chunk.id = entry.1 ∧ t.render (filenameValue g.fullHash chunk) = .ok entry.2 := by
    obtain ⟨name, rendered, same⟩ := bind_ok.mp given
    obtain rfl : (chunk.id, name) = entry := by simpa [pure, Except.pure] using same
    exact ⟨rfl, rendered⟩
  refine ⟨?_, ?_, ?_⟩
  · -- Each id is listed once, so each has one entry.
    rw [List.map_filterMap]
    refine once.filterMap fun id id' key first second => ?_
    simp only [Option.mem_def, Option.map_eq_some_iff] at first second
    obtain ⟨_, ⟨_, -, rfl⟩, rfl⟩ := first
    obtain ⟨_, ⟨_, -, rfl⟩, same⟩ := second
    exact same.symm
  · -- An entry is the last filename made for its id.
    intro x name member
    obtain ⟨id, -, found⟩ := List.mem_filterMap.mp member
    obtain ⟨name', listed, same⟩ := Option.map_eq_some_iff.mp found
    obtain ⟨rfl, rfl⟩ := Prod.mk.inj same
    have member : (id, name') ∈ named := List.mem_reverse.mp (mem_of_lookup listed)
    obtain ⟨chunk, inside, given⟩ := source _ member
    exact ⟨chunk, inside, rendering given⟩
  · -- Every chunk had its filename made.
    intro x known
    obtain ⟨chunk, member, rfl⟩ := List.mem_map.mp known
    obtain ⟨⟨x, name⟩, inside, given⟩ := image chunk member
    obtain rfl : chunk.id = x := (rendering given).1
    have found : (named.reverse.lookup chunk.id).isSome = true :=
      List.lookup_isSome_iff.mpr ⟨_, List.mem_reverse.mpr inside, by simp⟩
    obtain ⟨name', found⟩ := Option.isSome_iff_exists.mp found
    refine ⟨name', List.mem_filterMap.mpr ⟨chunk.id, ?_, by rw [found]; rfl⟩⟩
    exact (List.mergeSort_perm ..).mem_iff.mpr (List.mem_eraseDups.mpr known)

/-- Of any graph, the emitted filename map has the filenames of chunks that may be loaded later, by their
texts. -/
theorem emittedFilenames_entries {names : List (String × String)}
    (made : g.emittedFilenames config c = .ok names) : (names.map (·.1)).Nodup ∧
      (∀ key name, (key, name) ∈ names → ∃ x ∈ g.asyncChunks c, x.text = key ∧ g.IsFilename config x name) ∧
      ∀ x ∈ g.asyncChunks c, x ∈ g.chunks.map (·.id) → x.text ∈ names.map (·.1) := by
  unfold emittedFilenames at made
  obtain ⟨t, read, made⟩ := bind_ok.mp made
  obtain ⟨all, filenames, made⟩ := bind_ok.mp made
  obtain ⟨-, source, image⟩ := filenames_ok filenames
  obtain rfl := Except.ok.inj made
  obtain ⟨once, keys⟩ := keys_sortedTable
    ((all.filter ((g.asyncChunks c).contains ·.1)).map fun n => (n.1.text, n.2))
  refine ⟨once, ?_, ?_⟩
  · -- Only chunks that may be loaded later are kept, under their texts.
    intro key name member
    obtain ⟨⟨x, name'⟩, kept, same⟩ := List.mem_map.mp (mem_of_mem_sortedTable member)
    obtain ⟨rfl, rfl⟩ := Prod.mk.inj same
    obtain ⟨listed, later⟩ := List.mem_filter.mp kept
    obtain ⟨chunk, inside, id, rendered⟩ := source x name' listed
    exact ⟨x, by simpa using later, rfl, t, chunk, read, inside, id, rendered⟩
  · intro x later known
    obtain ⟨name, listed⟩ := image x known
    refine (keys x.text).mpr (List.mem_map.mpr ⟨(x.text, name), ?_, rfl⟩)
    exact List.mem_map.mpr ⟨(x, name), List.mem_filter.mpr ⟨listed, by simpa using later⟩, rfl⟩

/-- In a graph that can be read, a chunk has one filename at most. -/
theorem Valid.isFilename_unique (valid : g.Valid) {name name' : String}
    (filename : g.IsFilename config x name) (filename' : g.IsFilename config x name') :
    name = name' := by
  obtain ⟨t, chunk, read, inside, rfl, rendered⟩ := filename
  obtain ⟨t', chunk', read', inside', id, rendered'⟩ := filename'
  obtain rfl : t = t' := by simpa [read] using read'
  obtain rfl : chunk' = chunk :=
    List.inj_on_of_nodup_map valid.texts inside' inside (congrArg Id.text id)
  simpa [rendered] using rendered'

/-- **The filename map of an emitted runtime** has the chunks that may be loaded later, each once and
with its filename. -/
theorem emittedFilenames_ok (valid : g.Valid) {names : List (String × String)}
    (made : g.emittedFilenames config c = .ok names) : (names.map (·.1)).Nodup ∧
      ∀ x ∈ g.chunks.map (·.id), ∀ name, (x.text, name) ∈ names ↔
        x ∈ g.asyncChunks c ∧ g.IsFilename config x name := by
  obtain ⟨once, source, image⟩ := emittedFilenames_entries made
  refine ⟨once, fun x known name => ?_⟩
  -- A chunk of the graph is the only one of its text.
  have own {name : String} (member : (x.text, name) ∈ names) :
      x ∈ g.asyncChunks c ∧ g.IsFilename config x name := by
    obtain ⟨y, later, text, filename⟩ := source x.text name member
    obtain ⟨t, chunk, read, inside, rfl, rendered⟩ := filename
    obtain rfl : chunk.id = x := valid.text_inj (List.mem_map_of_mem inside) known text
    exact ⟨later, t, chunk, read, inside, rfl, rendered⟩
  constructor
  · exact own
  · rintro ⟨later, filename⟩
    obtain ⟨⟨key, name'⟩, member, text⟩ := List.mem_map.mp (image x later known)
    obtain rfl : key = x.text := text
    rw [valid.isFilename_unique filename (own member).2]
    exact member

/-! ## Sections -/

@[simp] theorem mem_when {feature : Bool} {s s' : Section} :
    s ∈ Section.when feature s' ↔ feature = true ∧ s = s' := by
  cases feature <;> simp [Section.when]

/-- The sections that features call for. -/
theorem sections_ok {f : Features} {ss : List Section} (made : g.sections config c f = .ok ss) :
    ∃ names update, (f.filenames = true → g.emittedFilenames config c = .ok names) ∧
      ss = [.requireFunction]
        ++ Section.when (f.scriptLoader || f.filenames) (.resources config.resourceSettings)
        ++ [.installedChunks c]
        ++ Section.when f.loading .ensureChunk
        ++ Section.when f.filenames (.filenames names)
        ++ Section.when f.scriptLoader .scriptLoader
        ++ Section.when f.loading (if f.noopLoading then .noopHandler else .scriptHandler)
        ++ Section.when (f.prefetch || f.preload)
            (.hints f.prefetch (if f.preload then some (g.emittedPreloads c) else none))
        ++ Section.when f.deferral .scheduler
        ++ (update : Option UpdateSettings).toList.map .hotUpdate
        ++ [.merger f.prefetch f.deferral config.output.globalNamespace config.output.deliveryArray,
          .startup (g.startupCalls c f)] := by
  have updated (rest : Option UpdateSettings → Except TemplateError (List Section))
      (made : (if f.hot then some <$> g.updateSettings config c >>= rest else pure none >>= rest) =
        .ok ss) : ∃ update, rest update = .ok ss := by
    split at made <;> obtain ⟨update, -, made⟩ := bind_ok.mp made <;> exact ⟨update, made⟩
  unfold sections at made
  -- Names and updates are made only if they are emitted.
  by_cases emitted : f.filenames = true
  · rw [if_pos emitted] at made
    obtain ⟨names, given, made⟩ := bind_ok.mp made
    obtain ⟨update, made⟩ := updated _ made
    exact ⟨names, update, fun _ => given, (Except.ok.inj made).symm⟩
  · rw [if_neg emitted] at made
    obtain ⟨names, -, made⟩ := bind_ok.mp made
    obtain ⟨update, made⟩ := updated _ made
    exact ⟨names, update, fun wanted => absurd wanted emitted, (Except.ok.inj made).symm⟩

/-- The handler of requests is none of the other sections. -/
theorem eq_handler_iff {noop : Bool} {s : Section} (other : s ≠ .noopHandler ∧ s ≠ .scriptHandler) :
    (s = if noop then .noopHandler else .scriptHandler) ↔ False := by
  split <;> simp [other]

section Parts

variable {f : Features} {ss : List Section} (made : g.sections config c f = .ok ss)
include made

theorem installedChunks_mem_iff {x : ChunkId} : .installedChunks x ∈ ss ↔ x = c := by
  obtain ⟨names, update, -, rfl⟩ := sections_ok made
  simp [eq_handler_iff]

/-- Chunks are loaded by scripts where there are any to be loaded. -/
theorem scriptHandler_mem_iff : .scriptHandler ∈ ss ↔ f.loading = true ∧ f.noopLoading = false := by
  obtain ⟨names, update, -, rfl⟩ := sections_ok made
  cases f.noopLoading <;> simp

theorem hints_mem_iff {prefetch : Bool} {preloads : Option (List (String × List ChunkId))} :
    .hints prefetch preloads ∈ ss ↔ (f.prefetch = true ∨ f.preload = true) ∧ prefetch = f.prefetch ∧
      preloads = if f.preload then some (g.emittedPreloads c) else none := by
  obtain ⟨names, update, -, rfl⟩ := sections_ok made
  simp [eq_handler_iff]

theorem scheduler_mem_iff : .scheduler ∈ ss ↔ f.deferral = true := by
  obtain ⟨names, update, -, rfl⟩ := sections_ok made
  simp [eq_handler_iff]

theorem merger_mem_iff {prefetch deferral : Bool} {namespaceName array : String} :
    .merger prefetch deferral namespaceName array ∈ ss ↔ prefetch = f.prefetch ∧ deferral = f.deferral ∧
      namespaceName = config.output.globalNamespace ∧ array = config.output.deliveryArray := by
  obtain ⟨names, update, -, rfl⟩ := sections_ok made
  simp [eq_handler_iff]

theorem startup_mem_iff {calls : List StartupCall} : .startup calls ∈ ss ↔ calls = g.startupCalls c f := by
  obtain ⟨names, update, -, rfl⟩ := sections_ok made
  simp [eq_handler_iff]

/-- What the sections of a runtime with a filename map are made from. -/
theorem sections_mapped {names : List (String × String)} (mapped : .filenames names ∈ ss) :
    f.filenames = true ∧ g.emittedFilenames config c = .ok names ∧ .installedChunks c ∈ ss ∧
      (∀ calls, .startup calls ∈ ss → calls = g.startupCalls c f) ∧
      ∀ prefetch table, .hints prefetch (some table) ∈ ss → table = g.emittedPreloads c := by
  obtain ⟨names', update, given, form⟩ := sections_ok made
  obtain ⟨emitted, rfl⟩ : f.filenames = true ∧ names = names' := by
    simpa [form, eq_handler_iff] using mapped
  refine ⟨emitted, given emitted, (installedChunks_mem_iff made).mpr rfl,
    fun calls => (startup_mem_iff made).mp, ?_⟩
  intro prefetch table member
  obtain ⟨-, -, same⟩ := (hints_mem_iff made).mp member
  by_cases preload : f.preload = true
  · rw [if_pos preload] at same
    exact Option.some.inj same
  · rw [if_neg preload] at same
    cases same

end Parts

/-! ## Runtimes -/

/-- The runtime of a chunk: it has what the chunk requires, and the text of the chunk's sections if it needs
any. -/
structure IsRuntimeOf (g : Graph) (config : Config) (c : ChunkId) (r : GeneratedRuntime) : Prop where
  chunk : r.chunk = c
  requirements : r.requirements = g.requirementsOf c
  code : if (g.featuresOf config c).merger then
      ∃ ss, g.sections config c (g.featuresOf config c) = .ok ss ∧ r.code = g.runtimeText c ss
    else r.code = ""

/-- What is emitted is the runtime of the chunk that has the text of the given id. -/
theorem isRuntimeOf_of_generate {r : GeneratedRuntime} (emitted : g.generate config asked = .ok r) :
    g.resolve? asked.text = some r.chunk ∧ g.IsRuntimeOf config r.chunk r := by
  unfold generate at emitted
  cases found : g.resolve? asked.text with
  | none => simp [found] at emitted
  | some c =>
    simp only [found] at emitted
    split at emitted
    · cases emitted
    · split at emitted
      · -- The chunk needs code, which is the text of its sections.
        rename_i merger
        obtain ⟨ss, mapped, made⟩ := bind_ok.mp emitted
        obtain rfl := Except.ok.inj made
        refine ⟨rfl, rfl, rfl, ?_⟩
        rw [if_pos merger]
        exact ⟨ss, mapError_ok.mp mapped, rfl⟩
      · -- It needs none.
        rename_i bare
        obtain rfl := Except.ok.inj emitted
        exact ⟨rfl, rfl, rfl, by rw [if_neg bare]⟩

theorem resolve_of_generate {r : GeneratedRuntime} (emitted : g.generate config asked = .ok r) :
    g.resolve? asked.text = some r.chunk := (isRuntimeOf_of_generate emitted).1

/-- A runtime that is emitted with anything at all has its sections, and its code is their text. -/
theorem sections_of_generate {r : GeneratedRuntime} (emitted : g.generate config asked = .ok r)
    (merger : (g.featuresOf config r.chunk).merger = true) :
    ∃ ss, g.sections config r.chunk (g.featuresOf config r.chunk) = .ok ss ∧
      r.code = g.runtimeText r.chunk ss := by
  have code := (isRuntimeOf_of_generate emitted).2.code
  rwa [if_pos merger] at code

/-- The code of a runtime with a merger is the text of its sections. -/
theorem code_of_generate {r : GeneratedRuntime} {ss : List Section}
    (emitted : g.generate config asked = .ok r)
    (made : g.sections config r.chunk (g.featuresOf config r.chunk) = .ok ss)
    (merger : (g.featuresOf config r.chunk).merger = true) :
    r.code = g.runtimeText r.chunk ss := by
  obtain ⟨ss', made', code⟩ := sections_of_generate emitted merger
  obtain rfl := Except.ok.inj (made.symm.trans made')
  exact code

/-! ## Known and unknown addresses -/

/-- Another chunk is loaded along with a chunk. -/
def Accompanies (g : Graph) (c x : ChunkId) : Prop :=
  x ≠ c ∧ ∃ group ∈ g.groupsOf c, x ∈ group.chunks

/-- The chunks that are loaded at first are the chunk itself and those along with it. -/
theorem mem_initialChunks : x ∈ g.initialChunks c ↔ x = c ∨ g.Accompanies c x := by
  rw [initialChunks, List.mem_eraseDups, List.mem_cons, List.mem_flatMap, Accompanies]
  by_cases same : x = c <;> simp [same]

theorem Valid.mem_of_reachesChunk (valid : g.Valid) (reached : g.ReachesChunk c x) :
    x ∈ g.chunks.map (·.id) := by
  obtain ⟨id, group, -, found, member⟩ := reached
  exact valid.chunks group (group_mem found) x member

/-- A chunk that is reached and not loaded along with the chunk has its filename in the map. -/
theorem known_of_reachesChunk (valid : g.Valid) {names : List (String × String)}
    (made : g.emittedFilenames config c = .ok names) (reached : g.ReachesChunk c x)
    (later : x ∉ g.initialChunks c) : ∃ name, g.IsFilename config x name ∧ (x.text, name) ∈ names := by
  have known := valid.mem_of_reachesChunk reached
  obtain ⟨-, -, image⟩ := emittedFilenames_entries made
  obtain ⟨⟨key, name⟩, member, text⟩ :=
    List.mem_map.mp (image x (mem_asyncChunks.mpr ⟨reached, later⟩) known)
  obtain rfl : key = x.text := text
  exact ⟨name, (((emittedFilenames_ok valid made).2 x known name).mp member).2, member⟩

/-- A group is reached, or the chunk is in it. -/
def Extends (g : Graph) (c : ChunkId) (group : Group) : Prop :=
  group ∈ g.groupsOf c ∨ ∃ id, g.Reaches c id ∧ g.group? id = some group

/-- What an emitted preload table has are the preload children of the chunk itself, and of chunks that
may be loaded later. Those that are not reached are children of a group that is not reached either. -/
theorem preloaded_ok {key : String} {cs : List ChunkId} (listed : (key, cs) ∈ g.emittedPreloads c) :
    ∃ y, y.text = key ∧ (y = c ∨ y ∈ g.asyncChunks c) ∧ ∀ x ∈ cs, g.ReachesChunk c x ∨
      ∃ own ∈ g.groupsOf y, ¬ g.Extends c own ∧ ∃ id ∈ own.children, ∃ group,
        g.group? id = some group ∧ x ∈ group.chunks := by
  obtain ⟨y, member, found⟩ := List.mem_filterMap.mp (mem_of_mem_sortedTable listed)
  obtain ⟨children, inMap, same⟩ := Option.map_eq_some_iff.mp found
  obtain ⟨rfl, rfl⟩ := Prod.mk.inj same
  -- The table of the graph has the preload children of each chunk.
  have preloaded : children = g.childChunks y .preload := by
    obtain ⟨y', -, given⟩ := List.mem_filterMap.mp (mem_of_lookup inMap)
    split at given
    · cases given
    · obtain ⟨rfl, rfl⟩ := Prod.mk.inj (Option.some.inj given)
      rfl
  refine ⟨y, rfl, List.mem_cons.mp member, ?_⟩
  intro x child
  rw [preloaded] at child
  obtain ⟨-, own, ownMember, id, childId, group, foundGroup, inside⟩ := exists_of_mem_childChunks child
  by_cases extends_ : g.Extends c own
  · -- The children of a group that is reached are reached.
    refine .inl ⟨id, group, ?_, foundGroup, inside⟩
    rcases extends_ with own | ⟨parent, reached, foundOwn⟩
    · exact .child own childId
    · exact .next reached foundOwn childId
  · exact .inr ⟨own, ownMember, extends_, id, childId, group, foundGroup, inside⟩

/-- What is prefetched at the start are the prefetch children of the chunk. -/
theorem prefetch_of_mem_startupCalls {f : Features} {cs : List ChunkId}
    (prefetched : .prefetch cs ∈ g.startupCalls c f) : cs = g.childChunks c .prefetch := by
  rcases List.mem_append.mp prefetched with entries | last
  · split at entries
    · split at entries <;> simp at entries
    · simp at entries
  · split at last <;> simp_all

/-- **Which addresses an emitted runtime knows.** Take any configuration, any graph that can be read,
and a runtime emitted for one of its chunks that has a filename map. Its only installed chunk is its
own; the map has no key twice. Every chunk of a group that is reached through child groups, and every
chunk that is prefetched at the start, is the runtime's own chunk, or in the map with its filename, or
loaded along with the own chunk. So is every preload child, unless it is the child of a group that is
not reached. The map has no other chunks: those that are loaded along with the own chunk, and those
that are not reached, are unknown, even if they are hinted. -/
theorem filenames_known {json : String} {r : GeneratedRuntime} {ss : List Section}
    {names : List (String × String)} (read : Graph.read json = .ok g)
    (emitted : g.generate config asked = .ok r)
    (made : g.sections config r.chunk (g.featuresOf config r.chunk) = .ok ss)
    (mapped : .filenames names ∈ ss) :
    r.code = g.runtimeText r.chunk ss ∧ .installedChunks r.chunk ∈ ss ∧ (names.map (·.1)).Nodup ∧
    (∀ x, g.ReachesChunk r.chunk x → x = r.chunk ∨ g.Accompanies r.chunk x ∨
      ∃ name, g.IsFilename config x name ∧ (x.text, name) ∈ names) ∧
    (∀ calls cs, .startup calls ∈ ss → .prefetch cs ∈ calls → ∀ x ∈ cs,
      g.Accompanies r.chunk x ∨ ∃ name, g.IsFilename config x name ∧ (x.text, name) ∈ names) ∧
    (∀ prefetch table key cs, .hints prefetch (some table) ∈ ss → (key, cs) ∈ table →
      ∃ y, y.text = key ∧ (y = r.chunk ∨ y ∈ g.asyncChunks r.chunk) ∧ ∀ x ∈ cs,
        x = r.chunk ∨ g.Accompanies r.chunk x ∨
        (∃ name, g.IsFilename config x name ∧ (x.text, name) ∈ names) ∨
        ∃ own ∈ g.groupsOf y, ¬ g.Extends r.chunk own ∧ ∃ id ∈ own.children, ∃ group,
          g.group? id = some group ∧ x ∈ group.chunks) ∧
    ∀ x ∈ g.chunks.map (·.id), ∀ name, (x.text, name) ∈ names →
      g.ReachesChunk r.chunk x ∧ x ≠ r.chunk ∧ ¬ g.Accompanies r.chunk x ∧
        g.IsFilename config x name := by
  have valid := valid_of_read read
  obtain ⟨filenames, given, installed, startup, hints⟩ := sections_mapped made mapped
  -- A runtime with filenames has a merger.
  have merger : (g.featuresOf config r.chunk).merger = true := by
    by_contra bare
    have none := Features.bare (Bool.eq_false_iff.mpr bare)
    rw [featuresOf, none.1] at filenames
    cases filenames
  obtain ⟨once, entries⟩ := emittedFilenames_ok valid given
  -- Whatever is reached is the chunk itself, or comes along with it, or is loaded later.
  have known (x : ChunkId) (reached : g.ReachesChunk r.chunk x) :
      x = r.chunk ∨ g.Accompanies r.chunk x ∨
        ∃ name, g.IsFilename config x name ∧ (x.text, name) ∈ names := by
    by_cases first : x ∈ g.initialChunks r.chunk
    · rcases mem_initialChunks.mp first with own | along
      · exact .inl own
      · exact .inr (.inl along)
    · exact .inr (.inr (known_of_reachesChunk valid given reached first))
  refine ⟨code_of_generate emitted made merger, installed, once, known, ?_, ?_, ?_⟩
  · intro calls cs started prefetched x member
    rw [startup calls started] at prefetched
    rw [prefetch_of_mem_startupCalls prefetched] at member
    -- Prefetch children are reached, and none is the chunk itself.
    rcases known x (reachesChunk_of_childChunks member) with own | known
    · exact absurd own (exists_of_mem_childChunks member).1
    · exact known
  · intro prefetch table key cs hinted listed
    rw [hints prefetch table hinted] at listed
    obtain ⟨y, text, later, children⟩ := preloaded_ok listed
    refine ⟨y, text, later, ?_⟩
    intro x member
    -- Preload children are reached only through groups that are.
    rcases children x member with reached | beyond
    · rcases known x reached with own | along | known
      · exact .inl own
      · exact .inr (.inl along)
      · exact .inr (.inr (.inl known))
    · exact .inr (.inr (.inr beyond))
  · intro x inGraph name member
    obtain ⟨async, filename⟩ := (entries x inGraph name).mp member
    obtain ⟨reached, later⟩ := mem_asyncChunks.mp async
    rw [mem_initialChunks, not_or] at later
    exact ⟨reached, later.1, later.2, filename⟩

end Graph

/-! ## Two builds -/

theorem standard_read : Config.read "[project]\nname=\"my-app\"" = .ok .standard := by decide +kernel

/-- With the standard configuration a runtime has its sections. -/
theorem sections_standard {g : Graph} {f : Features} (known : .number 1 ∈ g.chunks.map (·.id))
    (cold : f.hot = false) : ∃ ss, g.sections .standard (.number 1) f = .ok ss := by
  obtain ⟨templates⟩ := Config.templates_of_read standard_read
  refine isOk_iff.mp ((g.isOk_sections templates known f).mpr ⟨fun _ => by decide, ?_⟩)
  exact fun hot => absurd hot (by simp [cold])

/-- A build whose chunk `1` prefetches the chunks `2` and `3`; the first of them is loaded along with it
as well. -/
def sharedBuild : Graph where
  hash := some "0"
  chunks := [⟨.number 1, none, [], some "a"⟩, ⟨.number 2, none, [], some "b"⟩,
    ⟨.number 3, none, [], some "c"⟩]
  groups := [⟨"g", .entry, [.number 1, .number 2], ["h"], none, none, none⟩,
    ⟨"h", .async, [.number 2, .number 3], [], none, some 1, none⟩]
  blocks := []

def sharedBuildText : String :=
  "\x7b\"hash\":\"0\",\"chunks\":[\x7b\"id\":1,\"hash\":\"a\"\x7d,\x7b\"id\":2,\"hash\":\"b\"\x7d," ++
  "\x7b\"id\":3,\"hash\":\"c\"\x7d],\"groups\":[\x7b\"id\":\"g\",\"kind\":\"entry\",\"chunks\":[1,2]," ++
  "\"children\":[\"h\"]\x7d,\x7b\"id\":\"h\",\"kind\":\"async\",\"chunks\":[2,3],\"prefetch_order\":1\x7d]\x7d"

/-- The build is what its text is read as. -/
theorem sharedBuild_read : Graph.read sharedBuildText = .ok sharedBuild :=
  Graph.read_of_chars
    (toList_append_of_chars (toList_append_of_chars (toList_of_chars rfl) (toList_of_chars rfl))
      (toList_of_chars rfl)) (by decide +kernel) (by decide)

/-- The features of its runtime. -/
def sharedFeatures : Features := ⟨true, true, false, true, true, true, false, true, false⟩

theorem sharedFeatures_eq : sharedBuild.featuresOf .standard (.number 1) = sharedFeatures := by
  decide +kernel

theorem filenames_known_shared : Graph.read sharedBuildText = .ok sharedBuild ∧
    ∃ r ss names, sharedBuild.generate .standard (.number 1) = .ok r ∧
      sharedBuild.sections .standard r.chunk (sharedBuild.featuresOf .standard r.chunk) = .ok ss ∧
      .filenames names ∈ ss ∧ r.code = sharedBuild.runtimeText r.chunk ss ∧
      ∃ name, sharedBuild.IsFilename .standard (.number 3) name ∧ ("3", name) ∈ names := by
  obtain ⟨r, emitted⟩ : ∃ r, sharedBuild.generate .standard (.number 1) = .ok r :=
    isOk_iff.mp (by decide)
  have own : r.chunk = .number 1 := by
    have first : sharedBuild.resolve? (Id.number 1).text = some (.number 1) := by decide
    exact (Option.some.inj (first.symm.trans (Graph.resolve_of_generate emitted))).symm
  obtain ⟨ss, made⟩ : ∃ ss, sharedBuild.sections .standard r.chunk
      (sharedBuild.featuresOf .standard r.chunk) = .ok ss := by
    rw [own, sharedFeatures_eq]
    exact sections_standard (by decide) rfl
  obtain ⟨names, update, -, form⟩ := Graph.sections_ok made
  have mapped : .filenames names ∈ ss := by
    rw [form, own, sharedFeatures_eq]
    simp [sharedFeatures]
  obtain ⟨code, -, -, known, -⟩ := Graph.filenames_known sharedBuild_read emitted made mapped
  refine ⟨sharedBuild_read, r, ss, names, emitted, made, mapped, code, ?_⟩
  -- The third chunk is in a child group, and not loaded along with the first.
  have reached : sharedBuild.ReachesChunk r.chunk (.number 3) := by
    rw [own]
    exact (Graph.mem_asyncChunks.mp (by decide)).1
  have later : .number 3 ∉ sharedBuild.initialChunks r.chunk := by
    rw [own]
    decide
  rw [Graph.mem_initialChunks, not_or] at later
  rcases known _ reached with same | along | named
  · exact absurd same later.1
  · exact absurd along later.2
  · exact named

/-- A build whose chunk `2` is reached from chunk `1`, and has a preload child in another group. -/
def crossedBuild : Graph where
  hash := some "0"
  chunks := [⟨.number 1, none, [], some "a"⟩, ⟨.number 2, none, [], some "b"⟩,
    ⟨.number 3, none, [], some "c"⟩]
  groups := [⟨"g", .entry, [.number 1], ["h"], none, none, none⟩,
    ⟨"h", .async, [.number 2], [], none, none, none⟩,
    ⟨"i", .entry, [.number 2], ["j"], none, none, none⟩,
    ⟨"j", .async, [.number 3], [], none, none, some 0⟩]
  blocks := []

/-- The features of its runtime. -/
def crossedFeatures : Features := ⟨true, true, false, true, true, false, true, false, false⟩

theorem crossedFeatures_eq : crossedBuild.featuresOf .standard (.number 1) = crossedFeatures := by
  decide +kernel

/-- The runtime of chunk `1` of the first build prefetches chunk `2`, and that of the second build preloads
chunk `3`; neither has the filename in its map, and neither chunk is installed. -/
theorem hinted_unknown :
    Config.read "[project]\nname=\"my-app\"" = .ok .standard ∧
    (Graph.read sharedBuildText = .ok sharedBuild ∧
      (sharedBuild.generate .standard (.number 1)).isOk = true ∧
      ∃ ss names, sharedBuild.sections .standard (.number 1)
          (sharedBuild.featuresOf .standard (.number 1)) = .ok ss ∧
        .startup [.prefetch [.number 2, .number 3]] ∈ ss ∧ .filenames names ∈ ss ∧
        (∀ name, ("2", name) ∉ names) ∧ .installedChunks (.number 2) ∉ ss) ∧
    crossedBuild.Valid ∧
      (crossedBuild.generate .standard (.number 1)).isOk = true ∧
      ∃ ss names, crossedBuild.sections .standard (.number 1)
          (crossedBuild.featuresOf .standard (.number 1)) = .ok ss ∧
        .hints false (some [("2", [.number 3])]) ∈ ss ∧ .filenames names ∈ ss ∧
        (∀ name, ("3", name) ∉ names) ∧ .installedChunks (.number 3) ∉ ss := by
  have shared : sharedBuild.Valid := Graph.valid_of_read sharedBuild_read
  have crossed : crossedBuild.Valid := Graph.validate_ok.mp (by decide)
  refine ⟨standard_read, ⟨sharedBuild_read, by decide, ?_⟩, crossed,
    by decide, ?_⟩
  · -- The second chunk comes along with the first, and is prefetched all the same.
    have calls : sharedBuild.startupCalls (.number 1) sharedFeatures =
        [.prefetch [.number 2, .number 3]] := by decide +kernel
    rw [sharedFeatures_eq]
    obtain ⟨ss, made⟩ := sections_standard (g := sharedBuild) (f := sharedFeatures)
      (by decide) rfl
    obtain ⟨names, update, given, rfl⟩ := Graph.sections_ok made
    refine ⟨_, names, made, by simp [calls], by simp [sharedFeatures], ?_, by simp [sharedFeatures]⟩
    intro name member
    have async := ((Graph.emittedFilenames_ok shared (given rfl)).2 (.number 2) (by decide)
      name).mp member
    exact absurd async.1 (by decide)
  · -- The third chunk is a child of a group that the first one does not reach.
    have preloads : crossedBuild.emittedPreloads (.number 1) = [("2", [.number 3])] := by
      decide +kernel
    rw [crossedFeatures_eq]
    obtain ⟨ss, made⟩ := sections_standard (g := crossedBuild) (f := crossedFeatures)
      (by decide) rfl
    obtain ⟨names, update, given, rfl⟩ := Graph.sections_ok made
    refine ⟨_, names, made, by simp [preloads, crossedFeatures], by simp [crossedFeatures], ?_,
      by simp [crossedFeatures]⟩
    intro name member
    have async := ((Graph.emittedFilenames_ok crossed (given rfl)).2 (.number 3) (by decide)
      name).mp member
    exact absurd async.1 (by decide)

end ChunkLoading
