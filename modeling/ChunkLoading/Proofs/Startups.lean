import ChunkLoading.Proofs.Entries
import ChunkLoading.Proofs.History
import ChunkLoading.Proofs.StartupLines

/-!
# Startups without a scheduler

A runtime has a scheduler if some group of its build lists several chunks. The question is put chunk by chunk,
while the entries of a runtime are those of the entry groups of its chunk. Here the two are brought together: in
a valid graph no group with several chunks is missed, so that in a build without schedulers every entry needs the
one chunk that its runtime ships with (`Graph.Valid.chunks_of_entry`). A runtime without a scheduler starts
nothing but what startups hand to it (`Page.started_follow`).
-/

namespace ChunkLoading

/-! ## Runtimes without a worklist -/

namespace Page

variable {p : Page} {m : Move} {r : RuntimeId} {e : DeferredEntry} {b : Blueprint}
  {onInject onHint : List (ChunkId × Script)} {ms : List Move}

/-- A runtime has started an entry: it was run, or it is underway. -/
def Starts (p : Page) (r : RuntimeId) (e : DeferredEntry) : Prop := e ∈ p.entered r ∨ e ∈ p.underway r

theorem starts_core : p.Starts r e ↔
    e ∈ (p.core.roster r).entered ∨ e ∈ (p.core.roster r).underway := by
  rw [roster_core, Starts]

/-- What a move starts in a runtime without a worklist was handed over by a startup. -/
theorem Turn.starts (turn : Turn p m) (none : (p.runtime r).worklist = none)
    (started : (p.make m).Starts r e) : p.Starts r e ∨ e ∈ startups r p m := by
  -- Turns that scan a worklist are those of other runtimes.
  have other {r' : RuntimeId} {w : Worklist} (some : p.core.worklist r' = some w) : r ≠ r' := by
    rintro rfl
    rw [show p.core.worklist r = .none from none] at some
    cases some
  rw [starts_core] at started ⊢
  cases turn with
  | hurried r' es _ core offers given =>
    -- The only turn that starts what was not started before.
    rw [core, Core.roster_call] at started
    by_cases same : r' = r
    · subst same
      rcases started with entered | underway
      · exact .inl (.inl entered)
      · rcases List.mem_append.mp underway with new | old
        · refine .inr ?_
          rw [given]
          simpa [List.flatMap_map, Task.underway] using new
        · exact .inl (.inr old)
    · simpa [List.flatMap_map, Task.underway, same] using Or.inl started
  | entered r' e' k pending core =>
    rw [core, Core.roster_note] at started
    rw [pending, Core.roster_call]
    refine .inl ?_
    by_cases same : r' = r
    · rcases started with entered | underway
      · rcases List.mem_append.mp entered with old | new
        · exact .inl old
        · exact .inr (by simpa [Task.underway, Event.entered?, same] using Or.inl new)
      · exact .inr (List.mem_append_right _ underway)
    · simpa [Task.underway, Event.entered?, same] using started
  | dropped r' es k pending _ core =>
    rw [core] at started
    rw [pending, Core.roster_call]
    exact .inl (by simpa [Task.underway] using started)
  | deferred r' es w k inRange pending some core =>
    have other := other some
    rw [core, Core.roster_runReady_of_ne other, Core.roster_note_beside
      (by simp [Event.registered?, Event.entered?, Ne.symm other])] at started
    rw [pending, Core.roster_call]
    exact .inl (by simpa [Task.underway] using started)
  | startedUp r' es w inRange some core =>
    have other := other some
    rw [core, Core.roster_runReady_of_ne other, Core.roster_note_beside
      (by simp [Event.registered?, Event.entered?, Ne.symm other])] at started
    exact .inl started
  | scanned r' w inRange some core =>
    rw [core, Core.roster_runReady_of_ne (other some)] at started
    exact .inl started
  | resolved r' d waiting clashes k inRange pending core =>
    rw [core, Core.roster_resolve] at started
    rw [pending, Core.roster_call_beside (by simp [Task.underway, Task.announced, Task.defers])]
    exact .inl started
  | merged r' d inRange core =>
    rw [core, Core.roster_call, Core.roster_note_beside (by simp [Event.registered?, Event.entered?]),
      Core.roster_setStore] at started
    refine .inl ?_
    split at started
    · simpa [Task.underway] using started
    · simpa [Task.underway] using started
  | _ =>
    -- What is left notes other events, and calls nothing.
    refine .inl ?_
    simpa [*, Core.roster, Core.setStore, Core.note, Core.create, Core.settleAttempt, Event.entered?]
      using started

/-- **A runtime without a worklist starts only what startups hand to it.** -/
theorem started_follow (run : (fresh onInject onHint).follow ms = p) (none : (p.runtime r).worklist = none)
    (started : p.Starts r e) : e ∈ (fresh onInject onHint).along (startups r) ms := by
  induction ms using List.reverseRecOn generalizing p with
  | nil =>
    subst run
    rcases started with entered | underway
    · cases entered
    · cases underway
  | append_singleton ms m ih =>
    have reachable : ((fresh onInject onHint).follow ms).Reachable := (Reachable.fresh _ _).follow ms
    have turn := reachable.turn m
    rw [follow_append] at run
    have run : ((fresh onInject onHint).follow ms).make m = p := run
    rw [along_concat]
    -- A worklist would still be there.
    have before : (((fresh onInject onHint).follow ms).runtime r).worklist = .none := by
      cases worklist : (((fresh onInject onHint).follow ms).runtime r).worklist with
      | none => rfl
      | some w =>
        have still := (turn.roster reachable.sound.unfailed (Option.isSome_of_eq_some worklist)).1
        rw [run, show p.core.worklist r = .none from none] at still
        cases still
    rcases turn.starts before (run ▸ started) with old | new
    · exact List.mem_append_left _ (ih rfl before old)
    · exact List.mem_append_right _ new

/-- In a run a runtime is built from a blueprint. -/
def BuiltFrom (p : Page) (ms : List Move) (r : RuntimeId) (b : Blueprint) : Prop :=
  ∃ before m later, ms = before ++ m :: later ∧ (p.follow before).runtimes.length = r ∧
    ((p.follow before).make m).runtimes.length = r + 1 ∧ (p.follow before).plan? m = some b

theorem BuiltFrom.builtWith {c : ChunkId} (built : p.BuiltFrom ms r b) (member : c ∈ b.initialChunks) :
    p.BuiltWith ms r c := by
  obtain ⟨before, m, later, split, there, more, planned⟩ := built
  exact ⟨before, m, later, b, split, there, more, planned, member⟩

/-- A move after which there is one more runtime builds it from the blueprint that it has. -/
theorem Turn.built (turn : Turn p m) (more : (p.make m).core.count = p.core.count + 1)
    (planned : p.plan? m = some b) : ∃ x rt, b.build x = .ok rt ∧ (p.make m).core = p.core.create rt := by
  cases turn with
  | created b' x rt built core offers planned' =>
    obtain rfl : b = b' := Option.some.inj (planned.symm.trans planned')
    exact ⟨x, rt, built, core⟩
  | _ =>
    have same : (p.make m).core.count = p.core.count := by
      simp [*, Core.setStore, Core.note, Core.call, Core.settleAttempt, Core.runReady, Core.setWorklist]
    omega

/-- A runtime that is there gets no worklist any more. -/
theorem Reachable.worklist_none (h : p.Reachable) (inRange : r < p.core.count)
    (none : (p.runtime r).worklist = none) (ms : List Move) : ((p.follow ms).runtime r).worklist = .none := by
  induction ms generalizing p with
  | nil => exact none
  | cons m ms ih =>
    have turn := h.turn m
    refine ih (.make m h) (Nat.lt_of_lt_of_le inRange turn.count) ?_
    cases worklist : ((p.make m).runtime r).worklist with
    | none => rfl
    | some w =>
      rcases turn.deferral (r := r) (Option.isSome_of_eq_some worklist) with before | ⟨rt, -, new, -⟩
      · rw [show p.core.worklist r = .none from none] at before
        cases before
      · exact absurd new (Nat.ne_of_lt inRange)

/-- A runtime that is built without a worklist never has one. -/
theorem worklist_of_builtFrom (run : (fresh onInject onHint).follow ms = p)
    (built : (fresh onInject onHint).BuiltFrom ms r b) (prompt : b.entryDeferral = false) :
    (p.runtime r).worklist = none := by
  -- The run is cut at the move that builds the runtime: it has no worklist then, and gets none later.
  obtain ⟨before, m, later, rfl, there, more, planned⟩ := built
  have reachable : ((fresh onInject onHint).follow before).Reachable := (Reachable.fresh _ _).follow before
  rw [follow_append, follow_cons] at run
  subst run
  generalize (fresh onInject onHint).follow before = q at there more planned reachable ⊢
  have more : (q.make m).core.count = q.core.count + 1 := more.trans (congrArg (· + 1) there.symm)
  obtain ⟨x, rt, built, core⟩ := (reachable.turn m).built more planned
  have inRange : r < (q.make m).core.count := by
    rw [more, ← there]
    exact Nat.lt_succ_self _
  refine (Reachable.make m reachable).worklist_none inRange ?_ later
  have worklist : rt.worklist = none := by
    unfold Blueprint.build at built
    split at built
    · cases built
    · rw [← Except.ok.inj built]
      simp [prompt]
  have made : (q.make m).core.worklist r = rt.worklist := by
    rw [core, ← there]
    exact Function.update_self ..
  exact made.trans worklist

end Page

/-! ## The entries of a build -/

namespace Graph

variable {config : Config} {g : Graph} {asked c : ChunkId} {e : DeferredEntry}

/-- In a build that defers no entries each entry needs the chunk that it comes with, and no other one. -/
theorem Valid.chunks_of_entry (valid : g.Valid) (prompt : g.needsEntryDeferral = false)
    (member : e ∈ g.entriesOf c) : e.chunks = [c] := by
  obtain ⟨group, own, -, -, chunks⟩ := mem_entriesOf.mp member
  obtain ⟨listed, inside⟩ := mem_groupsOf.mp own
  rw [← chunks]
  exact eq_singleton_of_mem inside (valid.short_of_prompt prompt listed)

/-- A runtime that is built for a chunk without a scheduler starts only what startups hand to it, so that with the
entries of that chunk it starts none that needs another one; and the chunk is loaded. -/
theorem Valid.starts_prompt {b : Blueprint} {onInject onHint : List (ChunkId × Script)} {ms : List Move}
    {p : Page} {n : RuntimeId} (valid : g.Valid) (prompt : g.needsEntryDeferral = false)
    (planned : Blueprint.forChunk config g asked = .ok b) (found : g.resolve? asked.text = some c)
    (run : (Page.fresh onInject onHint).follow ms = p) (built : (Page.fresh onInject onHint).BuiltFrom ms n b) :
    (p.runtime n).worklist = none ∧ (p.store n).isLoaded c = true ∧
      (∀ e, p.Starts n e → e ∈ (Page.fresh onInject onHint).along (Page.startups n) ms) ∧
      ((∀ e ∈ (Page.fresh onInject onHint).along (Page.startups n) ms, e ∈ g.entriesOf c) →
        ∀ e, p.Starts n e → e.chunks = [c]) := by
  obtain ⟨c', options, bootstrap, found', -, -, rfl⟩ := Blueprint.forChunk_ok planned
  obtain rfl : c = c' := Option.some.inj (found.symm.trans found')
  have none := Page.worklist_of_builtFrom run built prompt
  refine ⟨none, ?_, fun e started => Page.started_follow run none started, fun handed e started => ?_⟩
  · exact ((Page.history_follow run n).1 c).mpr (.inl (built.builtWith (List.mem_singleton.mpr rfl)))
  · exact valid.chunks_of_entry prompt (handed e (Page.started_follow run none started))

/-- **Leaving the scheduler out is safe.** Take a valid graph. Its entries are deferred exactly if some group of it
lists several chunks. If they are not, every entry of a chunk needs that chunk and no other. So a runtime that is
built for a chunk has no worklist and has that chunk loaded at any time of any run; it starts only what startups
hand to it, whatever deliveries bring, so that with the entries of that chunk it starts none that needs another
chunk. A runtime that is emitted has no scheduler and refers to none, takes its chunk for loaded, and runs the
entries of that chunk and no others: its code, if there is any, ends with one line for each of them. If entries are
deferred, the code of every runtime that is emitted has the scheduler, hands to it the entries of deliveries, and
ends with the line that registers those of its chunk, from which they are read back with all the chunks of their
groups. -/
theorem scheduler_left_out (passed : g.validate = .ok ()) :
    (g.needsEntryDeferral = true ↔ ∃ group ∈ g.groups, 1 < group.chunks.length) ∧
    (∀ c e, e ∈ g.entriesOf c ↔ ∃ group ∈ g.groups, c ∈ group.chunks ∧ group.kind = .entry ∧
      group.entryModule = some e.entry ∧ e.chunks = group.chunks) ∧
    (g.needsEntryDeferral = false →
      (∀ c, ∀ e ∈ g.entriesOf c, e.chunks = [c]) ∧
      (∀ config asked b c onInject onHint ms p n, Blueprint.forChunk config g asked = .ok b →
        g.resolve? asked.text = some c → (Page.fresh onInject onHint).follow ms = p →
        (Page.fresh onInject onHint).BuiltFrom ms n b →
          (p.runtime n).worklist = none ∧ (p.store n).isLoaded c = true ∧
          (∀ e, p.Starts n e → e ∈ (Page.fresh onInject onHint).along (Page.startups n) ms) ∧
          ((∀ e ∈ (Page.fresh onInject onHint).along (Page.startups n) ms, e ∈ g.entriesOf c) →
            ∀ e, p.Starts n e → e.chunks = [c])) ∧
      ∀ config asked r ss, g.generate config asked = .ok r →
        g.sections config r.chunk (g.featuresOf config r.chunk) = .ok ss →
          g.Unscheduled r.chunk ss ∧ (r.code ≠ "" →
            r.code = g.runtimeText r.chunk ss ∧ RunsEntries r.code r.chunk (g.entriesOf r.chunk))) ∧
    (g.needsEntryDeferral = true → ∀ config asked r, g.generate config asked = .ok r →
      RegistersEntries r.code (g.entriesOf r.chunk) ∧
      ∃ ss, g.sections config r.chunk (g.featuresOf config r.chunk) = .ok ss ∧
        r.code = g.runtimeText r.chunk ss ∧ g.Scheduled config r.chunk ss) := by
  have valid := validate_ok.mp passed
  refine ⟨valid.needsEntryDeferral_iff, ?_, ?_, ?_⟩
  · intro c e
    simp only [mem_entriesOf, mem_groupsOf, Group.isEntry, decide_eq_true_eq, and_assoc, eq_comm (a := e.chunks)]
  · intro prompt
    refine ⟨fun c e member => valid.chunks_of_entry prompt member, ?_, ?_⟩
    · intro config asked b c onInject onHint ms p n planned found run built
      exact valid.starts_prompt prompt planned found run built
    · intro config asked r ss emitted made
      refine ⟨unscheduled_of_prompt prompt made, fun nonempty => ?_⟩
      obtain ⟨ss', made', code⟩ := sections_of_generate emitted ((code_iff_merger emitted).mp nonempty)
      obtain rfl := Except.ok.inj (made.symm.trans made')
      exact ⟨code, code ▸ runsEntries_of_prompt prompt made⟩
  · intro deferral config asked r emitted
    have merger : (g.featuresOf config r.chunk).merger = true := by simp [featuresOf, Features.of, deferral]
    obtain ⟨ss, made, code⟩ := sections_of_generate emitted merger
    exact ⟨code ▸ registersEntries_of_deferral deferral made, ss, made, code, scheduled_of_deferral deferral made⟩

/-- A build whose entry needs one chunk. -/
def directBuild : Graph where
  hash := some "0123"
  chunks := [⟨.name "main", none, [], none⟩, ⟨.number 7, none, [], none⟩]
  groups := [⟨"main", .entry, [.name "main"], ["late"], some (.number 5), none, none⟩,
    ⟨"late", .async, [.number 7], [], none, none, none⟩]
  blocks := []

/-- The blueprint of its runtime. -/
def directPlan : Blueprint :=
  (Blueprint.forChunk .standard directBuild (.name "main")).toOption.getD .standard

/-- A runtime is created, its entry is handed to it, and a delivery comes with another entry. -/
def directRun : List Move :=
  List.flatMap (fun x => .call x.1 false :: List.replicate x.2 .task)
    [(.create "r" (.ok directPlan) none, 2), (.install "r" "chunks", 2),
      (.startup "r" (.ok (directBuild.entriesOf (.name "main"))), 3),
      (.push "chunks" ⟨[.number 7], [], [⟨.number 6, [.name "main", .number 7]⟩], []⟩, 4)]

/-- A build whose entry needs two chunks. -/
def waitingBuild : Graph where
  hash := some "0123"
  chunks := [⟨.number 1, none, [], none⟩, ⟨.number 2, none, [], none⟩]
  groups := [⟨"main", .entry, [.number 1, .number 2], [], some (.number 5), none, none⟩]
  blocks := []

/-- The runtime of the first build starts its own entry and drops the other one, and its code ends with the line
that runs that entry. The code for the second build ends with the line that registers its entry, with both
chunks. -/
theorem scheduler_left_out_direct : directBuild.validate = .ok () ∧
    Blueprint.forChunk .standard directBuild (.name "main") = .ok directPlan ∧
    (((Page.fresh [] []).follow directRun).runtime 0).worklist = none ∧
    ((Page.fresh [] []).follow directRun).Starts 0 ⟨.number 5, [.name "main"]⟩ ∧
    (∀ e, ((Page.fresh [] []).follow directRun).Starts 0 e → e.chunks = [.name "main"]) ∧
    (∃ r ss, directBuild.generate .standard (.name "main") = .ok r ∧ directBuild.Unscheduled r.chunk ss ∧
      EndsWith r.code ["  __chunkwise_require__(5);"] ∧
      Quotes r.code "  __chunkwise_require__(" ");" Id.ofJson? (.number 5)) ∧
    waitingBuild.validate = .ok () ∧
    ∃ r, ∃ ss : List Section, waitingBuild.generate .standard (.number 1) = .ok r ∧ .scheduler ∈ ss ∧
      (∃ calls, .startup calls ∈ ss ∧ .deferEntries [⟨.number 5, [.number 1, .number 2]⟩] ∈ calls) ∧
      EndsWith r.code ["  __chunkwise_require__.O([[5,[1,2]]]);"] ∧
      Quotes r.code "  __chunkwise_require__.O(" ");" (Json.list? DeferredEntry.ofJson?)
        [⟨.number 5, [.number 1, .number 2]⟩] := by
  have direct : directBuild.validate = .ok () := by decide
  have waiting : waitingBuild.validate = .ok () := by decide
  obtain ⟨-, -, prompt, -⟩ := scheduler_left_out direct
  obtain ⟨-, -, -, deferral⟩ := scheduler_left_out waiting
  have planned : Blueprint.forChunk .standard directBuild (.name "main") = .ok directPlan := by
    obtain ⟨b, planned⟩ : ∃ b, Blueprint.forChunk .standard directBuild (.name "main") = .ok b :=
      isOk_iff.mp (by decide +kernel)
    rw [directPlan, planned]
    rfl
  have found : directBuild.resolve? (Id.text (.name "main")) = some (.name "main") := by decide
  have built : (Page.fresh [] []).BuiltFrom directRun 0 directPlan :=
    ⟨[.call (.create "r" (.ok directPlan) none) false], .task, directRun.drop 2, rfl, rfl,
      by decide +kernel, rfl⟩
  have handed : (Page.fresh [] []).along (Page.startups 0) directRun = [⟨.number 5, [.name "main"]⟩] := by
    decide +kernel
  have entered : ((Page.fresh [] []).follow directRun).entered 0 = [⟨.number 5, [.name "main"]⟩] := by
    decide +kernel
  obtain ⟨-, inside, lines⟩ := prompt (by decide)
  obtain ⟨worklist, -, -, starts⟩ := inside .standard _ _ _ [] [] _ _ 0 planned found rfl built
  refine ⟨direct, planned, worklist, .inl ?_, starts ?_, ?_, waiting, ?_⟩
  · rw [entered]
    exact List.mem_cons_self
  · rw [handed]
    decide
  · obtain ⟨r, emitted, chunk, nonempty⟩ : ∃ r, directBuild.generate .standard (.name "main") = .ok r ∧
        r.chunk = .name "main" ∧ r.code ≠ "" :=
      emitted_of_needs (by decide +kernel) (by decide) (by decide)
    have entries : directBuild.entriesOf r.chunk = [⟨.number 5, [.name "main"]⟩] := by
      rw [chunk]
      decide
    obtain ⟨ss, made, -⟩ := sections_of_generate emitted ((code_iff_merger emitted).mp nonempty)
    obtain ⟨unscheduled, code⟩ := lines .standard _ r ss emitted made
    obtain ⟨-, runs⟩ := code nonempty
    rw [entries] at runs
    exact ⟨r, ss, emitted, unscheduled, runs.last, runs.modules _ List.mem_cons_self⟩
  · obtain ⟨r, emitted⟩ : ∃ r, waitingBuild.generate .standard (.number 1) = .ok r :=
      isOk_iff.mp (by decide +kernel)
    have found : waitingBuild.resolve? (Id.text (.number 1)) = some (.number 1) := by decide
    have chunk : r.chunk = .number 1 := Option.some.inj ((resolve_of_generate emitted).symm.trans found)
    have entries : waitingBuild.entriesOf r.chunk = [⟨.number 5, [.number 1, .number 2]⟩] := by
      rw [chunk]
      decide
    obtain ⟨registers, ss, -, -, scheduled⟩ := deferral (by decide) .standard _ r emitted
    have registered := scheduled.calls
    rw [entries] at registers registered
    exact ⟨r, ss, emitted, scheduled.scheduler, registered (by simp), registers.last, registers.entries (by simp)⟩

end Graph

end ChunkLoading
