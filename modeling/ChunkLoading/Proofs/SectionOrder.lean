import ChunkLoading.Proofs.Header
import ChunkLoading.Proofs.LineOrder
import ChunkLoading.Proofs.Needs
import Mathlib.Data.List.Induction

/-!
# Sections that fit together

The lines of each section are read once: what they refer to is assigned by earlier lines of the section, or is one
of the helpers that it needs (`Section.fits`). Which sections are emitted follows from the features of a runtime,
and these imply each other so that each section comes behind those that assign what it needs
(`ordered_sections`). So every helper is assigned before the code refers to it, and all of them are before the
chunks that have already been delivered are merged (`Graph.helpers_assigned`).
-/

namespace ChunkLoading

/-! ## Sections -/

/-- The same section for a page whose global object has the given name. -/
def Section.on (host : String) : Section → Section
  | hotUpdate settings => hotUpdate { settings with namespaceName := host }
  | merger prefetch deferral _ array => merger prefetch deferral host array
  | s => s

open Code

/-- The helpers that a call at the start refers to. -/
def StartupCall.needs : StartupCall → List Helper
  | deferEntries _ => [.deferEntries]
  | runEntry _ => []
  | prefetch _ => [.prefetchHints]

namespace Section

/-- The helpers that a section refers to and does not assign itself. -/
def needs : Section → List Helper
  | scriptLoader => [.resourceOptions]
  | scriptHandler => [.handlers, .loadScript, .filename, .publicPath, .installedChunks]
  | noopHandler => [.handlers]
  | hints _ preloads =>
    [.resourceOptions, .installedChunks, .filename, .publicPath] ++ if preloads.isSome then [.handlers] else []
  | scheduler => [.installedChunks]
  | hotUpdate _ => [.publicPath, .loadScript]
  | merger prefetch deferral _ _ =>
    [.installedChunks] ++ (if prefetch then [.prefetchHints] else [])
      ++ if deferral then [.deferEntries] else []
  | startup calls => calls.flatMap StartupCall.needs
  | _ => []

/-- The helpers that a section assigns. -/
def gives : Section → List Helper
  | resources _ => [.publicPath, .resourceOptions]
  | installedChunks _ => [.installedChunks]
  | ensureChunk => [.handlers]
  | filenames _ => [.filename]
  | scriptLoader => [.loadScript]
  | hints prefetch preloads =>
    [.hint] ++ (if prefetch then [.prefetchHints] else [])
      ++ if preloads.isSome then [.preloadTable, .preloadHints] else []
  | scheduler => [.deferEntries]
  | hotUpdate _ => [.hash, .chunkAddress, .manifestAddress]
  | merger .. => [.deliverChunk]
  | _ => []

end Section

/-! ## The lines of a section -/

theorem fits_resources (settings : ResourceSettings) :
    Fits [] [.publicPath, .resourceOptions] settings.lines := by
  unfold ResourceSettings.lines
  cases settings.nonce with
  | none =>
    refine .of_outlines (.cons (outlined_of_data [] rfl rfl (.string _) (by decide +kernel))
      (.cons (outlined_of_data [] rfl rfl (.resources _) (by decide +kernel)) .nil)) ?_
    decide +kernel
  | some nonce =>
    refine .of_outlines (.cons (outlined_of_data [] rfl rfl (.string _) (by decide +kernel))
      (.cons (outlined_of_data [] rfl rfl (.string _) (by decide +kernel))
        (.cons (outlined_of_data [] rfl rfl (.resources _) (by decide +kernel)) .nil))) ?_
    decide +kernel

theorem fits_filenames (names : List (String × String)) :
    Fits [] [.filename] (Section.filenames names).lines := by
  refine .of_outlines (.cons (outlined_of_data [] rfl rfl (.strings names) (by decide +kernel))
    (.cons (outlined_of_chars rfl) .nil)) ?_
  decide +kernel

theorem fits_hints (prefetch : Bool) (preloads : Option (List (String × List ChunkId))) :
    Fits (Section.hints prefetch preloads).needs (Section.hints prefetch preloads).gives
      (hintLines prefetch preloads) := by
  have hint : Fits [.resourceOptions, .installedChunks, .filename, .publicPath] [.hint]
      FixedCode.hintFunction := by
    apply Fits.of_spelled
    · repeat apply Spelled.cons rfl
      exact .nil
    · decide +kernel
  have prefetching : Fits [.hint] (if prefetch then [.prefetchHints] else [])
      (if prefetch then FixedCode.prefetchFunction else []) := by
    cases prefetch with
    | false => exact .nil
    | true => exact .of_outlines (.cons (outlined_of_chars rfl) .nil) (by decide +kernel)
  have both := hint.append prefetching (by decide)
  cases preloads with
  | none => simpa [hintLines, Section.needs, Section.gives] using both
  | some table =>
    have assigned : Fits [] [.preloadTable] ["  var chunkPreloads = " ++ Literal.idLists table ++ ";"] :=
      .of_outlines (.cons (outlined_of_data [] rfl rfl (.idLists table) (by decide +kernel)) .nil)
        (by decide +kernel)
    have preloading : Fits [.hint, .handlers, .preloadTable] [.preloadHints] FixedCode.preloadFunction := by
      apply Fits.of_spelled
      · repeat apply Spelled.cons rfl
        exact .nil
      · decide +kernel
    have enough : [.resourceOptions, .installedChunks, .filename, .publicPath] ⊆
        (Section.hints prefetch (some table)).needs := by simp [Section.needs]
    have all := ((both.mono enough).append assigned (List.nil_subset _)).append preloading
      (by simp [Section.needs])
    simpa [hintLines, Section.needs, Section.gives] using all

/-- What a section for updates is made from has no helpers but the hash of the build. -/
structure UpdateSettings.Plain (settings : UpdateSettings) : Prop where
  chunkAddress : Yields [.hash] 0 settings.chunkAddress.toList
  manifestAddress : Yields [.hash] 0 settings.manifestAddress.toList

theorem fits_hotUpdate {settings : UpdateSettings} (plain : settings.Plain)
    (host : IsHost settings.namespaceName) :
    Fits [.publicPath, .loadScript] [.hash, .chunkAddress, .manifestAddress] settings.lines := by
  have own : settings.callbackExpr = hosted settings.namespaceName settings.callback := rfl
  have addresses : Fits [] [.hash, .chunkAddress, .manifestAddress]
      ["  var currentHash = " ++ Literal.string settings.hash ++ ";",
      "  __chunkwise_require__.h = () => currentHash;",
      "  __chunkwise_require__.hu = (chunkId) => " ++ settings.chunkAddress ++ ";",
      "  __chunkwise_require__.hmrF = () => " ++ settings.manifestAddress ++ ";",
      "  var hotLoadedChunks = \x7b " ++ settings.chunk.literal ++ ": true \x7d;", ""] := by
    refine .of_outlines (.cons (outlined_of_data [] rfl rfl (.string _) (by decide +kernel))
      (.cons (outlined_of_chars rfl)
      (.cons (outlined_of_data _ rfl rfl plain.chunkAddress (by decide +kernel))
      (.cons (outlined_of_data _ rfl rfl plain.manifestAddress (by decide +kernel))
      (.cons (outlined_of_data [] rfl rfl (.of_silent (run_literal settings.chunk)) (by decide +kernel))
      (.cons (outlined_of_chars rfl) .nil)))))) ?_
    decide +kernel
  have collecting : Fits [.publicPath, .loadScript, .hash, .chunkAddress, .manifestAddress] []
      FixedCode.hotUpdate := by
    apply Fits.of_spelled
    · repeat apply Spelled.cons rfl
      exact .nil
    · decide +kernel
  have callback : Fits [] [] ["  var parentHotUpdateCallback = " ++ settings.callbackExpr ++ ";",
      "  " ++ settings.callbackExpr ++ " = hotUpdateCallback;"] := by
    rw [own]
    refine .of_outlines (.cons (outlined_of_data [] rfl rfl (yields_hosted host _) (by decide +kernel))
      (.cons (outlined_hosted host _ rfl (by decide +kernel) (by decide +kernel)) .nil)) ?_
    decide +kernel
  have all := ((addresses.mono (List.nil_subset [.publicPath, .loadScript])).append collecting
    (by decide)).append callback (List.nil_subset _)
  simpa [UpdateSettings.lines] using all

theorem fits_installedChunks (c : ChunkId) :
    Fits [] [.installedChunks] (Section.installedChunks c).lines := by
  refine .of_outlines (.cons (outlined_of_chars rfl) (.cons (outlined_of_chars rfl)
    (.cons (outlined_of_read rfl rfl (by decide +kernel) (run_literal c))
    (.cons (outlined_of_chars rfl) .nil)))) ?_
  decide +kernel

/-- The lines of a merger before it merges what has been delivered. -/
def mergerFront (prefetch deferral : Bool) (namespaceName deliveryArray : String) : List String :=
  FixedCode.deliverHead
    ++ (if prefetch then FixedCode.deliverPrefetch else [])
    ++ FixedCode.deliverResolve
    ++ (if deferral then FixedCode.deliverEntries else [])
    ++ ["  \x7d;", ""] ++ [deliveryArrayLine namespaceName deliveryArray]

theorem mergerLines_eq (prefetch deferral : Bool) (namespaceName deliveryArray : String) :
    mergerLines prefetch deferral namespaceName deliveryArray =
      mergerFront prefetch deferral namespaceName deliveryArray ++ FixedCode.install := by
  simp [mergerLines, mergerFront]

/-- Up to the lines that merge what has been delivered, a merger assigns the function that does. -/
theorem fits_mergerFront {name : String} (host : IsHost name) (prefetch deferral : Bool) (array : String) :
    Fits (Section.merger prefetch deferral name array).needs [.deliverChunk]
      (mergerFront prefetch deferral name array) := by
  have delivery : Fits ([.installedChunks] ++ (if prefetch then [.prefetchHints] else [])
        ++ if deferral then [.deferEntries] else []) [.deliverChunk]
      (FixedCode.deliverHead ++ (if prefetch then FixedCode.deliverPrefetch else [])
        ++ FixedCode.deliverResolve ++ (if deferral then FixedCode.deliverEntries else [])
        ++ ["  \x7d;", ""]) := by
    -- The two options choose between four fixed texts.
    cases prefetch <;> cases deferral
    all_goals
      apply Fits.of_spelled
      · repeat apply Spelled.cons rfl
        exact .nil
      · decide +kernel
  -- The name of the global object stands twice in one line, on both sides of the sign.
  have yields : Yields [] 0 (hosted name array ++ " = " ++ hosted name array).toList := by
    have sign : (" = " : String).toList = [' ', '=', ' '] := toList_of_chars rfl
    rw [String.toList_append, String.toList_append, sign, List.append_assoc]
    have second : Yields [] (0 + 0) ([' ', '=', ' '] ++ (hosted name array).toList) :=
      .lead (by decide) (by decide) (by decide) (yields_hosted host array)
    exact (yields_hosted host array).append second rfl
  have made : Fits [] [] [deliveryArrayLine name array] := by
    have form : deliveryArrayLine name array =
        "  var deliveryArray = (" ++ (hosted name array ++ " = " ++ hosted name array) ++ " || []);" := by
      unfold deliveryArrayLine hosted
      simp only [String.append_assoc]
    rw [form]
    exact .of_outlines (.cons (outlined_of_data [] rfl rfl yields (by decide +kernel)) .nil) (by decide +kernel)
  simpa [mergerFront, Section.needs] using delivery.append made (List.nil_subset _)

theorem fits_install : Fits [.deliverChunk] [] FixedCode.install :=
  .of_outlines (.cons (outlined_of_chars rfl) (.cons (outlined_of_chars rfl) .nil)) (by decide +kernel)

theorem fits_call (call : StartupCall) : Fits call.needs [] [call.line] := by
  cases call with
  | deferEntries es =>
    show Fits [.deferEntries] [] [_]
    exact .of_outlines (.cons (outlined_of_data [] rfl rfl (.entries es) (by decide +kernel)) .nil)
      (by decide +kernel)
  | runEntry m =>
    show Fits [] [] [_]
    exact .of_outlines (.cons (outlined_of_read rfl rfl (by decide +kernel) (run_literal m)) .nil)
      (by decide +kernel)
  | prefetch cs =>
    show Fits [.prefetchHints] [] [_]
    exact .of_outlines (.cons (outlined_of_read rfl rfl (by decide +kernel) (run_ids cs)) .nil)
      (by decide +kernel)

/-- A call at the start needs what its line refers to. -/
theorem fits_startup (calls : List StartupCall) : Fits (Section.startup calls).needs [] (calls.map (·.line)) := by
  induction calls with
  | nil => exact .nil
  | cons call calls ih =>
    have first := (fits_call call).mono (List.subset_append_left _ (calls.flatMap StartupCall.needs))
    have rest := ih.mono (List.subset_append_right call.needs _)
    exact first.append rest (List.subset_append_left _ _)

namespace Section

variable {host : String}

/-- Addresses of updates, if there are any, have no helpers but the hash of the build. -/
def Plain : Section → Prop
  | hotUpdate settings => settings.Plain
  | _ => True

/-- **The lines of a section** assign what it gives, and refer to nothing but what it needs and what they assign
before. -/
theorem fits (named : IsHost host) {s : Section} (plain : s.Plain) : Fits s.needs s.gives (s.on host).lines := by
  cases s with
  | requireFunction | ensureChunk | scriptLoader | scriptHandler | noopHandler | scheduler =>
    -- These lines are the same in every runtime.
    apply Fits.of_spelled
    · repeat apply Spelled.cons rfl
      exact .nil
    · decide +kernel
  | resources settings => exact fits_resources settings
  | installedChunks c => exact fits_installedChunks c
  | filenames names => exact fits_filenames names
  | hints prefetch preloads => exact fits_hints prefetch preloads
  | hotUpdate settings =>
    have same : UpdateSettings.Plain { settings with namespaceName := host } := ⟨plain.1, plain.2⟩
    exact fits_hotUpdate same named
  | merger prefetch deferral _ array =>
    -- The call that merges what has been delivered stands behind the function that it calls.
    show Fits _ _ (mergerLines prefetch deferral host array)
    rw [mergerLines_eq]
    exact (fits_mergerFront named prefetch deferral array).append fits_install (by simp)
  | startup calls => exact fits_startup calls

/-- Each section comes behind those that give what it needs. -/
def Ordered (ss : List Section) : Prop :=
  ∀ before s, before ++ [s] <+: ss → s.needs ⊆ before.flatMap gives

/-- The lines of sections in such an order. -/
theorem Ordered.fits (named : IsHost host) {ss : List Section} (ordered : Ordered ss)
    (plain : ∀ s ∈ ss, s.Plain) : Fits [] (ss.flatMap gives) ((ss.map (on host)).flatMap lines) := by
  induction ss using List.reverseRecOn with
  | nil => exact .nil
  | append_singleton ss s ih =>
    rw [List.forall_mem_append, List.forall_mem_singleton] at plain
    have earlier : Ordered ss :=
      fun before s' stands => ordered before s' (stands.trans (List.prefix_append ss [s]))
    have enough : s.needs ⊆ [] ++ ss.flatMap gives := ordered ss s List.prefix_rfl
    have all := (ih earlier plain.1).append (Section.fits named plain.2) enough
    simpa using all

/-- The place of a section among those of a runtime. -/
def rank : Section → Nat
  | requireFunction => 0
  | resources _ => 1
  | installedChunks _ => 2
  | ensureChunk => 3
  | filenames _ => 4
  | scriptLoader => 5
  | scriptHandler => 6
  | noopHandler => 6
  | hints .. => 7
  | scheduler => 8
  | hotUpdate _ => 9
  | merger .. => 10
  | startup _ => 11

/-- Sections in the order of their ranks are ordered if each finds what it needs in one of smaller rank. -/
theorem ordered_of_ranks {ss : List Section} (ranked : ss.Pairwise (·.rank < ·.rank))
    (met : ∀ s ∈ ss, ∀ h ∈ s.needs, ∃ s' ∈ ss, h ∈ s'.gives ∧ s'.rank < s.rank) : Ordered ss := by
  rintro before s ⟨after, rfl⟩ h needed
  obtain ⟨s', member, given, less⟩ := met s (by simp) h needed
  rw [List.append_assoc, List.mem_append, List.singleton_append, List.mem_cons] at member
  -- Whoever has a smaller rank stands in front.
  rcases member with first | rfl | later
  · exact List.mem_flatMap.mpr ⟨s', first, given⟩
  · omega
  · rw [List.append_assoc, List.pairwise_append, List.singleton_append, List.pairwise_cons] at ranked
    have more := ranked.2.1.1 s' later
    omega

end Section

/-- What the features of a runtime imply. -/
structure Features.Complete (f : Features) : Prop where
  handler : f.loading = true → f.noopLoading = false → f.scriptLoader = true ∧ f.filenames = true
  hot : f.hot = true → f.scriptLoader = true
  prefetch : f.prefetch = true → f.filenames = true
  preload : f.preload = true → f.loading = true ∧ f.filenames = true

/-- A feature that relies on another one comes with it. -/
theorem Features.complete_of (config : Config) (needs : Requirements) (deferral hasPreloads : Bool) :
    (Features.of config needs deferral hasPreloads).Complete := by
  constructor <;> simp +contextual [Features.of, Requirements.isNoopLoading]

namespace Graph

variable {config : Config} {g : Graph} {asked c : ChunkId} {f : Features} {ss : List Section}

/-- The addresses of updates look up the hash of the build and nothing else. -/
theorem plain_settings {s : UpdateSettings} (settings : g.updateSettings config c = .ok s) : s.Plain := by
  unfold updateSettings at settings
  obtain ⟨chunk, -, settings⟩ := bind_ok.mp settings
  obtain ⟨chunkAddress, chunkMade, settings⟩ := bind_ok.mp settings
  obtain ⟨manifest, -, settings⟩ := bind_ok.mp settings
  obtain ⟨manifestAddress, manifestMade, settings⟩ := bind_ok.mp settings
  obtain rfl := Except.ok.inj settings
  have id : Yields [.hash] 0 ("chunkId" : String).toList := by
    rw [toList_of_chars rfl]
    exact .of_run (by decide +kernel) (by decide +kernel) (by decide +kernel)
  have hash : Yields [.hash] 0 ("__chunkwise_require__.h()" : String).toList := by
    rw [toList_of_chars rfl]
    exact .of_run (by decide +kernel) (by decide +kernel) (by decide +kernel)
  constructor
  · -- The address of a chunk looks up its id and the hash, that of the manifest the hash alone.
    refine .expression chunkMade fun p e code => ?_
    cases p with
    | id => exact Option.some.inj code ▸ id
    | fullHash => exact Option.some.inj code ▸ hash
    | runtime => exact Option.some.inj code ▸ .string _
    | name | contentHash => cases code
  · refine .expression manifestMade fun p e code => ?_
    cases p with
    | fullHash => exact Option.some.inj code ▸ hash
    | runtime => exact Option.some.inj code ▸ .string _
    | id | name | contentHash => cases code

theorem namespaceName_of_updateSettings {s : UpdateSettings} (settings : g.updateSettings config c = .ok s) :
    s.namespaceName = config.output.globalNamespace := by
  obtain ⟨_, _, settings⟩ := bind_ok.mp settings
  obtain ⟨_, _, settings⟩ := bind_ok.mp settings
  obtain ⟨_, _, settings⟩ := bind_ok.mp settings
  obtain ⟨_, _, settings⟩ := bind_ok.mp settings
  rw [← Except.ok.inj settings]

section Parts

variable (made : g.sections config c f = .ok ss)
include made

/-- A section for updates is there only if they are on, and has the settings of the chunk. -/
theorem settings_of_sections {s : UpdateSettings} (member : .hotUpdate s ∈ ss) :
    f.hot = true ∧ g.updateSettings config c = .ok s := by
  cases hot : f.hot with
  | true =>
    obtain ⟨s', settings, own⟩ := update_of_sections made hot
    obtain ⟨names, update, -, form⟩ := sections_ok made
    have one {s : UpdateSettings} (member : .hotUpdate s ∈ ss) : update = some s := by
      simpa [form, eq_handler_iff] using member
    obtain rfl := Option.some.inj ((one own).symm.trans (one member))
    exact ⟨rfl, settings⟩
  | false =>
    -- With updates off, none of the sections that may be left out is one for updates.
    have bare (rest : List Section) (plain : .hotUpdate s ∉ rest)
        (made : (pure none >>= fun (_ : Option UpdateSettings) => pure rest) =
          (.ok ss : Except TemplateError _)) : False :=
      plain (Except.ok.inj made ▸ member)
    unfold sections at made
    simp only [hot] at made
    split at made
    all_goals
      obtain ⟨names, -, made⟩ := bind_ok.mp made
      exact (bare _ (by simp [eq_handler_iff]) made).elim

/-- The sections come in the order of their ranks. -/
theorem ranked_sections : ss.Pairwise (·.rank < ·.rank) := by
  obtain ⟨names, update, -, rfl⟩ := sections_ok made
  -- A section that may be left out has its rank or none.
  have one {feature : Bool} {s : Section} {n : ℕ} (own : s.rank = n) :
      ((Section.when feature s).map Section.rank).Sublist [n] := by
    cases feature <;> simp [Section.when, own]
  have updates : ((update.toList.map Section.hotUpdate).map Section.rank).Sublist [9] := by
    cases update <;> simp [Section.rank]
  have ranks : ([0] ++ [1] ++ [2] ++ [3] ++ [4] ++ [5] ++ [6] ++ [7] ++ [8] ++ [9] ++ [10, 11]).Pairwise
      (· < ·) := by decide
  -- A feature that is off leaves a rank out, so the ranks are among all twelve of them.
  rw [← List.pairwise_map]
  refine ranks.sublist ?_
  simp only [List.map_append]
  refine (((((((((((List.Sublist.refl [0]).append (one rfl)).append (List.Sublist.refl [2])).append
    (one rfl)).append (one rfl)).append (one rfl)).append (one ?_)).append (one rfl)).append
    (one rfl)).append updates).append (List.Sublist.refl [10, 11]))
  split <;> rfl

/-- Each section finds what it needs, since its features imply those of the sections that give it. -/
theorem needs_met (complete : f.Complete) : ∀ s ∈ ss, ∀ h ∈ s.needs,
    ∃ s' ∈ ss, h ∈ s'.gives ∧ s'.rank < s.rank := by
  obtain ⟨names, update, -, form⟩ := sections_ok made
  -- These sections are there whenever another one refers to what they assign.
  have resources (needed : f.scriptLoader = true ∨ f.filenames = true) :
      .resources config.resourceSettings ∈ ss := by simp [form, needed]
  have installed : .installedChunks c ∈ ss := (installedChunks_mem_iff made).mpr rfl
  have ensure (needed : f.loading = true) : .ensureChunk ∈ ss := by simp [form, needed]
  have filenames (needed : f.filenames = true) : .filenames names ∈ ss := by simp [form, needed]
  have loader (needed : f.scriptLoader = true) : .scriptLoader ∈ ss := by simp [form, needed]
  have scheduler (needed : f.deferral = true) : .scheduler ∈ ss := (scheduler_mem_iff made).mpr needed
  have hints (needed : f.prefetch = true) :
      .hints f.prefetch (if f.preload then some (g.emittedPreloads c) else none) ∈ ss := by
    simp [form, needed]
  intro s member h needed
  cases s with
  | requireFunction | resources _ | installedChunks _ | ensureChunk | filenames _ => cases needed
  | scriptLoader =>
    obtain rfl := List.mem_singleton.mp needed
    have emitted : f.scriptLoader = true := by simpa [form, eq_handler_iff] using member
    exact ⟨_, resources (.inl emitted), by simp [Section.gives, Section.rank]⟩
  | scriptHandler =>
    obtain ⟨loading, full⟩ := (scriptHandler_mem_iff made).mp member
    -- Full loading comes with the loader and with filenames.
    obtain ⟨loaded, named⟩ := complete.handler loading full
    simp only [Section.needs, List.mem_cons, List.not_mem_nil, or_false] at needed
    rcases needed with rfl | rfl | rfl | rfl | rfl
    · exact ⟨_, ensure loading, by simp [Section.gives, Section.rank]⟩
    · exact ⟨_, loader loaded, by simp [Section.gives, Section.rank]⟩
    · exact ⟨_, filenames named, by simp [Section.gives, Section.rank]⟩
    · exact ⟨_, resources (.inl loaded), by simp [Section.gives, Section.rank]⟩
    · exact ⟨_, installed, by simp [Section.gives, Section.rank]⟩
  | noopHandler =>
    obtain rfl := List.mem_singleton.mp needed
    obtain ⟨loading, -⟩ : f.loading = true ∧ f.noopLoading = true := by simpa [form] using member
    exact ⟨_, ensure loading, by simp [Section.gives, Section.rank]⟩
  | hints prefetch preloads =>
    obtain ⟨wanted, -, rfl⟩ := (hints_mem_iff made).mp member
    -- Hints of either kind come with filenames.
    have named : f.filenames = true := wanted.elim complete.prefetch fun preload => (complete.preload preload).2
    simp only [Section.needs, List.mem_append, List.mem_cons, List.not_mem_nil, or_false] at needed
    rcases needed with (rfl | rfl | rfl | rfl) | handlers
    · exact ⟨_, resources (.inr named), by simp [Section.gives, Section.rank]⟩
    · exact ⟨_, installed, by simp [Section.gives, Section.rank]⟩
    · exact ⟨_, filenames named, by simp [Section.gives, Section.rank]⟩
    · exact ⟨_, resources (.inr named), by simp [Section.gives, Section.rank]⟩
    · obtain ⟨preload, rfl⟩ : f.preload = true ∧ h = .handlers := by
        cases preload : f.preload <;> simp_all
      exact ⟨_, ensure (complete.preload preload).1, by simp [Section.gives, Section.rank]⟩
  | scheduler =>
    obtain rfl := List.mem_singleton.mp needed
    exact ⟨_, installed, by simp [Section.gives, Section.rank]⟩
  | hotUpdate settings =>
    -- Updates are fetched by the script loader.
    have loaded := complete.hot (settings_of_sections made member).1
    simp only [Section.needs, List.mem_cons, List.not_mem_nil, or_false] at needed
    rcases needed with rfl | rfl
    · exact ⟨_, resources (.inl loaded), by simp [Section.gives, Section.rank]⟩
    · exact ⟨_, loader loaded, by simp [Section.gives, Section.rank]⟩
  | merger prefetch deferral name array =>
    obtain ⟨rfl, rfl, -⟩ := (merger_mem_iff made).mp member
    simp only [Section.needs, List.mem_append, List.mem_singleton] at needed
    rcases needed with (rfl | prefetched) | deferred
    · exact ⟨_, installed, by simp [Section.gives, Section.rank]⟩
    · obtain ⟨prefetch, rfl⟩ : f.prefetch = true ∧ h = .prefetchHints := by
        cases prefetch : f.prefetch <;> simp_all
      exact ⟨_, hints prefetch, by simp [Section.gives, Section.rank, prefetch]⟩
    · obtain ⟨deferral, rfl⟩ : f.deferral = true ∧ h = .deferEntries := by
        cases deferral : f.deferral <;> simp_all
      exact ⟨_, scheduler deferral, by simp [Section.gives, Section.rank]⟩
  | startup calls =>
    -- A call at the start is emitted only if the section is that it calls.
    obtain rfl := (startup_mem_iff made).mp member
    obtain ⟨call, listed, needed⟩ := List.mem_flatMap.mp needed
    cases call with
    | deferEntries es =>
      obtain rfl := List.mem_singleton.mp needed
      exact ⟨_, scheduler (deferEntries_mem_iff.mp listed).1, by simp [Section.gives, Section.rank]⟩
    | runEntry m => cases needed
    | prefetch cs =>
      obtain rfl := List.mem_singleton.mp needed
      have prefetch := (prefetch_mem_iff.mp listed).1
      exact ⟨_, hints prefetch, by simp [Section.gives, Section.rank, prefetch]⟩

/-- The last sections are the merger and the calls at the start. -/
theorem sections_end : ∃ body, ss = body ++ [.merger f.prefetch f.deferral config.output.globalNamespace
    config.output.deliveryArray, .startup (g.startupCalls c f)] := by
  obtain ⟨names, update, -, form⟩ := sections_ok made
  exact ⟨_, form⟩

/-- Nothing but the hash of the build is looked up by the addresses of updates. -/
theorem plain_sections : ∀ s ∈ ss, s.Plain := by
  intro s member
  cases s with
  | hotUpdate settings => exact plain_settings (settings_of_sections made member).2
  | _ => exact True.intro

end Parts

/-! ## The whole runtime -/

/-- Sections of which each finds the helpers that it refers to. -/
structure SelfContained (ss : List Section) : Prop where
  /-- Some section assigns them. -/
  assigned : ∀ s ∈ ss, ∀ line ∈ s.lines, ∀ h ∈ references (tokens line), ∃ s' ∈ ss, Assigned s'.lines h
  /-- They are assigned above the line that refers to them. -/
  earlier : ∀ before line, before ++ [line] <+: ss.flatMap Section.lines →
    ∀ h ∈ references (tokens line), Assigned before h
  /-- All of them are assigned before what has been delivered is merged, and the calls at the start come
  last. -/
  merged : ∃ (front : List String) (calls : List StartupCall),
    ss.flatMap Section.lines = front ++ (FixedCode.install ++ calls.map StartupCall.line) ∧
      ∀ line ∈ ss.flatMap Section.lines, ∀ h ∈ references (tokens line), Assigned front h

/-- The sections of a runtime are in an order in which each finds what it needs. -/
theorem ordered_sections (complete : f.Complete) (made : g.sections config c f = .ok ss) : Section.Ordered ss :=
  Section.ordered_of_ranks (ranked_sections made) (needs_met made complete)

theorem selfContained_sections {host : String} (named : IsHost host) (complete : f.Complete)
    (made : g.sections config c f = .ok ss) : SelfContained (ss.map (Section.on host)) := by
  have plain := plain_sections made
  have ordered := ordered_sections complete made
  have all := ordered.fits named plain
  have earlier (before : List String) (line : String)
      (stands : before ++ [line] <+: (ss.map (Section.on host)).flatMap Section.lines) (h : Helper)
      (refers : h ∈ references (tokens line)) : Assigned before h :=
    (all.supplied before line stands h refers).resolve_left List.not_mem_nil
  refine ⟨?_, earlier, ?_⟩
  · -- What a section does not assign before the line, one of smaller rank has assigned.
    intro s member line inside h refers
    obtain ⟨s, listed, rfl⟩ := List.mem_map.mp member
    obtain ⟨before, stands⟩ := exists_prefix_of_mem inside
    rcases (Section.fits named (plain s listed)).supplied before line stands h refers with needed | assigned
    · obtain ⟨s', given, gives, -⟩ := needs_met made complete s listed h needed
      exact ⟨s'.on host, List.mem_map_of_mem given,
        ((Section.fits named (plain s' given)).assigned h).mpr gives⟩
    · exact ⟨s.on host, member, assigned.mono ((List.prefix_append before [line]).trans stands)⟩
  · -- Behind what the merger assigns nothing is assigned any more: all sections after it give nothing.
    obtain ⟨body, rfl⟩ := sections_end made
    have first : Fits [] (body.flatMap Section.gives) ((body.map (Section.on host)).flatMap Section.lines) := by
      refine Section.Ordered.fits named (fun before s stands => ordered before s ?_)
        fun s member => plain s (List.mem_append_left _ member)
      exact stands.trans (List.prefix_append _ _)
    have enough := ordered body (.merger f.prefetch f.deferral config.output.globalNamespace
      config.output.deliveryArray) ⟨[.startup (g.startupCalls c f)], by simp⟩
    have front := first.append (fits_mergerFront named f.prefetch f.deferral config.output.deliveryArray) enough
    refine ⟨_, g.startupCalls c f, ?_, fun line member h refers => (front.assigned h).mpr ?_⟩
    · simp [Section.on, Section.lines, mergerLines_eq]
    · obtain ⟨before, stands⟩ := exists_prefix_of_mem member
      have assigned := (earlier before line stands h refers).mono
        ((List.prefix_append before [line]).trans stands)
      simpa [Section.gives] using (all.assigned h).mp assigned

/-- **Emitted sections fit together.** Take any configuration, graph and chunk for which a runtime is emitted that
is not empty. Whatever name its global object has that is an identifier and no helper's name, each helper that a
line of a section refers to is assigned by a section, above that line; and all of them are assigned above the
lines that merge what has been delivered, behind which only the calls at the start follow.

The name that the configuration itself gives is one of these unless it is a helper's name. Where it is one, such as
`__chunkwise_require__.l`, a line that names the global object reads like a line that refers to the helper, though it
does not. The emitted lines are then still the lines of the same sections, and differ from those for another name
(`Section.on`) only where the name of the global object stands: no helper is referred to or assigned there. So what is
shown of the lines for any other name holds of all else in them. -/
theorem helpers_assigned {r : GeneratedRuntime} (emitted : g.generate config asked = .ok r)
    (nonempty : r.code ≠ "") :
    ∃ ss, g.sections config r.chunk (g.featuresOf config r.chunk) = .ok ss ∧
      r.code = g.runtimeText r.chunk ss ∧ ss.map (Section.on config.output.globalNamespace) = ss ∧
      ∀ host, IsHost host → SelfContained (ss.map (Section.on host)) := by
  obtain ⟨ss, made, code⟩ := sections_of_generate emitted ((code_iff_merger emitted).mp nonempty)
  refine ⟨ss, made, code, ?_, fun host named =>
    selfContained_sections named (Features.complete_of config _ _ _) made⟩
  have own : ∀ s ∈ ss, s.on config.output.globalNamespace = id s := by
    intro s member
    cases s with
    | hotUpdate settings =>
      rw [← namespaceName_of_updateSettings (settings_of_sections made member).2]
      rfl
    | merger prefetch deferral name array =>
      obtain ⟨-, -, rfl, -⟩ := (merger_mem_iff made).mp member
      rfl
    | _ => rfl
  exact (List.map_congr_left own).trans (List.map_id ss)

/-- The runtime of a chunk that prefetches others and runs entries later, with the standard name of the global
object. -/
theorem helpers_assigned_shared : ∃ r ss, sharedBuild.generate .standard (.number 1) = .ok r ∧
    r.code ≠ "" ∧ r.code = sharedBuild.runtimeText r.chunk ss ∧ .scriptHandler ∈ ss ∧ SelfContained ss := by
  obtain ⟨r, emitted⟩ : ∃ r, sharedBuild.generate .standard (.number 1) = .ok r :=
    isOk_iff.mp (by decide)
  have own : r.chunk = .number 1 := by
    have first : sharedBuild.resolve? (Id.number 1).text = some (.number 1) := by decide
    exact (Option.some.inj (first.symm.trans (resolve_of_generate emitted))).symm
  have nonempty : r.code ≠ "" := by
    rw [code_iff_merger emitted, own, sharedFeatures_eq]
    rfl
  obtain ⟨ss, made, code, same, contained⟩ := helpers_assigned emitted nonempty
  have named : IsHost Config.standard.output.globalNamespace :=
    ⟨by decide, fun h => by cases h <;> decide⟩
  have handler : .scriptHandler ∈ ss := by
    rw [scriptHandler_mem_iff made, own, sharedFeatures_eq]
    exact ⟨rfl, rfl⟩
  exact ⟨r, ss, emitted, nonempty, code, handler, same ▸ contained _ named⟩

end Graph

end ChunkLoading
