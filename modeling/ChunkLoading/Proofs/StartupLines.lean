import ChunkLoading.Proofs.Needs
import ChunkLoading.Proofs.SectionOrder

/-!
# The lines that start a runtime

The code of a runtime ends with the lines that start its chunk, behind the line by which it takes over the
delivery array. In a build that defers no entries these lines run the entries of the chunk one by one, and no line
of the code refers to a scheduler (`Graph.Unscheduled`, `RunsEntries`). In a build that defers them the code has
the scheduler, the merger hands the entries of deliveries to it, and one line hands it those of the chunk, with all
the chunks of their groups (`Graph.Scheduled`, `RegistersEntries`).
-/

namespace ChunkLoading

open Code

/-! ## Lines of code -/

/-- A code ends with the given lines, behind those by which a runtime takes over the delivery array; only a line
that prefetches chunks may follow them. -/
def EndsWith (code : String) (ls : List String) : Prop :=
  ∃ front hints, code = front ++ unlines
      (["  deliveryArray.forEach(deliverChunk.bind(null, 0));",
        "  deliveryArray.push = deliverChunk.bind(null, deliveryArray.push.bind(deliveryArray));", ""]
      ++ ls ++ hints ++ ["\x7d)();"]) ∧
    (hints = [] ∨ ∃ cs, hints = ["  " ++ Literal.ids cs ++ ".forEach(__chunkwise_require__.F.j);"])

/-- A code takes its chunk for loaded, runs no entries of deliveries, and ends with the lines that run the given
entries, one for each. -/
structure RunsEntries (code : String) (c : ChunkId) (es : List DeferredEntry) : Prop where
  loaded : HasLines code ["  var installedChunks = \x7b", "    " ++ c.literal ++ ": 0", "  \x7d;"]
  /-- The merger comes to its end without a look at the entries of a delivery. -/
  ignored : HasLines code ["    if (parentPush) parentPush(data);", "  \x7d;"]
  last : EndsWith code (es.map fun e => "  __chunkwise_require__(" ++ e.entry.literal ++ ");")
  /-- The module of each entry is read back from its line. -/
  modules : ∀ e ∈ es, Quotes code "  __chunkwise_require__(" ");" Id.ofJson? e.entry

/-- A code has a scheduler, which runs entries once all their chunks are loaded; it hands the entries of deliveries
to it, and ends with the line that hands it the given entries, if there are any. -/
structure RegistersEntries (code : String) (es : List DeferredEntry) : Prop where
  scheduler : HasLines code [
    "  var deferred = [];",
    "  __chunkwise_require__.O = (entries) => \x7b",
    "    if (entries) deferred.push(...entries);",
    "    var ready = [];",
    "    deferred = deferred.filter((entry) => \x7b",
    "      if (entry[1].every((chunkId) => installedChunks[chunkId] === 0)) \x7b",
    "        ready.push(entry);",
    "        return false;",
    "      \x7d",
    "      return true;",
    "    \x7d);",
    "    ready.forEach((entry) => __chunkwise_require__(entry[0]));",
    "    return ready.length;",
    "  \x7d;"]
  delivered : HasLines code ["    if (parentPush) parentPush(data);",
    "    return __chunkwise_require__.O(data[2]);", "  \x7d;"]
  last : EndsWith code (if es = [] then [] else ["  __chunkwise_require__.O(" ++ Literal.entries es ++ ");"])
  /-- The entries, with their chunks, are read back from that line. -/
  entries : es ≠ [] → Quotes code "  __chunkwise_require__.O(" ");" (Json.list? DeferredEntry.ofJson?) es

namespace Section

variable {s : Section}

/-- Entries are handed to a scheduler by the merger, or at the start. -/
theorem deferEntries_of_needs (needed : .deferEntries ∈ s.needs) :
    (∃ prefetch name array, s = .merger prefetch true name array) ∨
      ∃ calls es, s = .startup calls ∧ .deferEntries es ∈ calls := by
  cases s with
  | merger prefetch deferral name array =>
    cases deferral with
    | true => exact .inl ⟨_, _, _, rfl⟩
    | false => simp [needs] at needed
  | startup calls =>
    obtain ⟨call, called, needed⟩ := List.mem_flatMap.mp needed
    cases call with
    | deferEntries es => exact .inr ⟨_, es, rfl, called⟩
    | runEntry _ | prefetch _ => simp [StartupCall.needs] at needed
  | _ => simp [needs] at needed

theorem deferEntries_of_gives (given : .deferEntries ∈ s.gives) : s = .scheduler := by
  cases s with
  | scheduler => rfl
  | _ => simp [gives] at given

end Section

namespace Graph

variable {config : Config} {g : Graph} {c : ChunkId} {f : Features} {ss : List Section}

/-- Sections that have no scheduler and do not refer to one, take their chunk for loaded, and run the entries of
that chunk and no others. -/
structure Unscheduled (g : Graph) (c : ChunkId) (ss : List Section) : Prop where
  scheduler : .scheduler ∉ ss
  unused : ∀ host, IsHost host → ∀ s ∈ ss.map (Section.on host),
    ¬ Assigned s.lines .deferEntries ∧ ∀ line ∈ s.lines, .deferEntries ∉ references (tokens line)
  loaded : .installedChunks c ∈ ss
  merger : ∀ prefetch deferral namespaceName array, .merger prefetch deferral namespaceName array ∈ ss →
    deferral = false
  calls : ∀ calls, .startup calls ∈ ss → (∀ es, .deferEntries es ∉ calls) ∧
    ∀ x, .runEntry x ∈ calls ↔ ∃ e ∈ g.entriesOf c, e.entry = x

/-- Sections that have a scheduler, and hand to it the entries of deliveries and those of the chunk. -/
structure Scheduled (g : Graph) (config : Config) (c : ChunkId) (ss : List Section) : Prop where
  scheduler : .scheduler ∈ ss
  merger : ∃ prefetch, .merger prefetch true config.output.globalNamespace config.output.deliveryArray ∈ ss
  calls : g.entriesOf c ≠ [] → ∃ calls, .startup calls ∈ ss ∧ .deferEntries (g.entriesOf c) ∈ calls

/-! ## The end of the code -/

section Parts

variable (made : g.sections config c f = .ok ss)
include made

/-- The lines of a runtime end with those that take over the delivery array, and then its calls at the start. -/
theorem sectionLines_end : ∃ front, sectionLines ss =
    front ++ (FixedCode.install ++ "" :: (g.startupCalls c f).map StartupCall.line) ++ ["\x7d)();"] := by
  obtain ⟨body, rfl⟩ := sections_end made
  let merger := mergerLines f.prefetch f.deferral config.output.globalNamespace config.output.deliveryArray
  obtain ⟨front, before⟩ : merger <:+ [""].intercalate (body.map Section.lines ++ [merger]) :=
    suffix_intercalate _
  have parts : (body ++ [Section.merger f.prefetch f.deferral config.output.globalNamespace
      config.output.deliveryArray, Section.startup (g.startupCalls c f)]).map Section.lines =
      (body.map Section.lines ++ [merger]) ++ [(g.startupCalls c f).map StartupCall.line] := by
    simp [merger, Section.lines]
  refine ⟨front ++ mergerFront f.prefetch f.deferral config.output.globalNamespace config.output.deliveryArray, ?_⟩
  rw [sectionLines, parts, intercalate_append (by simp) (List.cons_ne_nil _ _), ← before,
    List.intercalate_singleton]
  simp [merger, mergerLines_eq]

/-- The text of a runtime ends with the lines of its entries. -/
theorem endsWith_entries (entries : List StartupCall)
    (calls : g.startupCalls c f = entries ++ if f.prefetch then [.prefetch (g.childChunks c .prefetch)] else []) :
    EndsWith (g.runtimeText c ss) (entries.map StartupCall.line) := by
  obtain ⟨front, form⟩ := sectionLines_end made
  refine ⟨unlines (g.headerLine c :: "(() => \x7b" :: front),
    (if f.prefetch then [.prefetch (g.childChunks c .prefetch)] else []).map StartupCall.line, ?_, ?_⟩
  · rw [runtimeText_eq, form, calls]
    simp [FixedCode.install, String.append_assoc]
  · cases f.prefetch with
    | true => exact .inr ⟨g.childChunks c .prefetch, rfl⟩
    | false => exact .inl rfl

/-- The merger hands over a delivery, and then its entries if there is a scheduler. -/
theorem hasLines_delivered : HasLines (g.runtimeText c ss) ("    if (parentPush) parentPush(data);" ::
    (if f.deferral then ["    return __chunkwise_require__.O(data[2]);"] else []) ++ ["  \x7d;"]) := by
  have merger := (merger_mem_iff made).mpr ⟨rfl, rfl, rfl, rfl⟩
  refine (hasLines_of_section merger).part ?_
  refine ⟨FixedCode.deliverHead ++ (if f.prefetch then FixedCode.deliverPrefetch else []) ++
      ["    while (resolves.length) resolves.shift()();"],
    "" :: deliveryArrayLine config.output.globalNamespace config.output.deliveryArray :: FixedCode.install, ?_⟩
  simp [Section.lines, mergerLines, FixedCode.deliverResolve, FixedCode.deliverEntries]

end Parts

/-! ## Builds that defer no entries -/

/-- A runtime that is emitted without a scheduler runs its own entries at once, and none of deliveries. -/
theorem unscheduled_of_prompt (prompt : g.needsEntryDeferral = false)
    (made : g.sections config c (g.featuresOf config c) = .ok ss) : g.Unscheduled c ss := by
  have prompt : (g.featuresOf config c).deferral = false := prompt
  have bare : .scheduler ∉ ss := fun scheduler => by
    have deferral := (scheduler_mem_iff made).mp scheduler
    rw [prompt] at deferral
    cases deferral
  have merger : ∀ prefetch deferral namespaceName array, .merger prefetch deferral namespaceName array ∈ ss →
      deferral = false :=
    fun _ _ _ _ merger => ((merger_mem_iff made).mp merger).2.1.trans prompt
  have calls : ∀ calls, .startup calls ∈ ss → (∀ es, .deferEntries es ∉ calls) ∧
      ∀ x, .runEntry x ∈ calls ↔ ∃ e ∈ g.entriesOf c, e.entry = x := by
    intro calls startup
    rw [(startup_mem_iff made).mp startup]
    refine ⟨fun es called => ?_, fun x => by simp [runEntry_mem_iff, prompt]⟩
    obtain ⟨deferral, -⟩ := deferEntries_mem_iff.mp called
    rw [prompt] at deferral
    cases deferral
  refine ⟨bare, ?_, (installedChunks_mem_iff made).mpr rfl, merger, calls⟩
  -- What a section refers to is what it needs or assigns, and none of these needs or assigns a scheduler.
  intro host named s' member
  obtain ⟨s, listed, rfl⟩ := List.mem_map.mp member
  refine (Section.fits named (plain_sections made s listed)).free ?_ ?_
  · intro needed
    rcases Section.deferEntries_of_needs needed with ⟨prefetch, name, array, rfl⟩ | ⟨cs, es, rfl, called⟩
    · cases merger _ _ _ _ listed
    · exact (calls cs listed).1 es called
  · intro given
    exact bare (Section.deferEntries_of_gives given ▸ listed)

/-- Its code does so. -/
theorem runsEntries_of_prompt (prompt : g.needsEntryDeferral = false)
    (made : g.sections config c (g.featuresOf config c) = .ok ss) :
    RunsEntries (g.runtimeText c ss) c (g.entriesOf c) := by
  have prompt : (g.featuresOf config c).deferral = false := prompt
  constructor
  · exact (hasLines_of_section ((installedChunks_mem_iff made).mpr rfl)).part (List.suffix_cons _ _).isInfix
  · have delivered := hasLines_delivered made
    rwa [prompt] at delivered
  -- Without a scheduler there is one call for each entry.
  · have last := endsWith_entries made ((g.entriesOf c).map (.runEntry ·.entry)) (by simp [startupCalls, prompt])
    rwa [List.map_map] at last
  · exact (readsBack_of_sections made).modules prompt

/-! ## Builds that defer entries -/

/-- A runtime that is emitted with a scheduler registers the entries of its chunk, and those of deliveries. -/
theorem scheduled_of_deferral (deferral : g.needsEntryDeferral = true)
    (made : g.sections config c (g.featuresOf config c) = .ok ss) : g.Scheduled config c ss := by
  have deferral : (g.featuresOf config c).deferral = true := deferral
  refine ⟨(scheduler_mem_iff made).mpr deferral, ?_, fun some => ?_⟩
  · exact ⟨_, (merger_mem_iff made).mpr ⟨rfl, deferral.symm, rfl, rfl⟩⟩
  · exact ⟨_, (startup_mem_iff made).mpr rfl, deferEntries_mem_iff.mpr ⟨deferral, some, rfl⟩⟩

/-- Its code does so. -/
theorem registersEntries_of_deferral (deferral : g.needsEntryDeferral = true)
    (made : g.sections config c (g.featuresOf config c) = .ok ss) :
    RegistersEntries (g.runtimeText c ss) (g.entriesOf c) := by
  have deferral : (g.featuresOf config c).deferral = true := deferral
  constructor
  · exact (hasLines_of_section ((scheduler_mem_iff made).mpr deferral)).part (List.suffix_cons _ _).isInfix
  · have delivered := hasLines_delivered made
    rwa [deferral] at delivered
  · have last := endsWith_entries made (if g.entriesOf c = [] then [] else [.deferEntries (g.entriesOf c)])
      (by simp [startupCalls, deferral])
    rwa [apply_ite (List.map StartupCall.line)] at last
  · exact (readsBack_of_sections made).entries deferral

end Graph

end ChunkLoading
