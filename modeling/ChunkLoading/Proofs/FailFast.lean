import ChunkLoading.Proofs.Imports

/-!
# Imports that fail fast

A poll of an import looks at what the import waits for. A load that was rejected stays so. If one was rejected
before the poll, the poll fails with the first rejection in the list of chunks and reports it, whatever is
still pending, as long as the chunks are few enough to be looked at together. An import of many chunks takes
them in order: it waits on while a chunk before the first rejected one is pending
(`Page.Reachable.import_rejected`).
-/

namespace ChunkLoading

open Page

namespace Import

variable {i : Import} {p q : Page} {ms turn : List Move} {asked before after : Contributions}
  {first : ChunkId × List Awaited} {base : List Task} {settledAny : Bool} {e : LoadError}

/-- An import is at the point of a poll where it looks at what it waits for: right after it has asked for its
chunks, or because it is polled again. The moves are those that make the look. -/
inductive Looks (i : Import) (p : Page) : List Move → Prop where
  | first {loads : List (List Awaited)} {base : List Task}
      (agenda : p.agenda = .load i.future i.runtime [] loads i.module :: base) : Looks i p [.task]
  | again {loads : List (List Awaited)} {base : List Task} {settledAny : Bool}
      (agenda : p.agenda = .pass i.future settledAny :: base)
      (there : p.futures[i.future]? = some ⟨i.name, .importing i.runtime loads i.module, false⟩) :
    Looks i p [.task, .task]

/-- The import has failed, and has handed its failure to the sink of its runtime. -/
structure Fails (i : Import) (e : LoadError) (p q : Page) : Prop where
  future : q.futures[i.future]? = some ⟨i.name, .settled (.failed e), true⟩
  log : q.log = .settled i.name (.failed e) :: .reported i.runtime (p.runtime i.runtime).sink e :: p.log

/-- The import waits on, and has done nothing. -/
structure Waits (i : Import) (asked : Contributions) (p q : Page) : Prop where
  future : q.futures[i.future]? = some ⟨i.name, i.waiting asked, true⟩
  log : q.log = p.log

/-- What an import comes to when it has looked at loads of which one was rejected. -/
structure Verdict (i : Import) (asked before : Contributions) (e : LoadError) (p q : Page) : Prop where
  fails : asked.length ≤ Join.small ∨ (∀ a ∈ before, p.joined a.2 = some .ok) → i.Fails e p q
  waits : Join.small < asked.length → (∃ a ∈ before, p.joined a.2 = none) → i.Waits asked p q

/-! ## The look -/

/-- An import that looks has asked for all its chunks. -/
theorem Phase.asked_all {ds : List Event} {now : Future} {own : List Task}
    (phase : i.Phase p ms asked ds now own) (holds : Holds i.future now own q)
    {loads : List (List Awaited)}
    (agenda : q.agenda = .load i.future i.runtime [] loads i.module :: base) :
    asked.map (·.1) = i.chunks ∧ asked.map (·.2) = loads ∧
      ∃ progress, now = ⟨i.name, progress, true⟩ ∧ ∀ r, progress.holds r → r = i.runtime := by
  rcases holds.head with ⟨base', agenda', some, -⟩ | idle | ⟨t, rest, agenda', apart, -, -⟩
  · -- The import is at hand with its look, so it is in the phase of asking and has nothing left to ask for.
    have same := agenda.symm.trans agenda'
    cases phase with
    | unstarted => exact absurd rfl some
    | asking settledAny split first =>
      obtain ⟨look, -⟩ := List.cons.inj same
      obtain ⟨-, -, rfl, loads, -⟩ := Task.load.inj look
      refine ⟨by simpa using split, loads.symm, _, rfl, ?_⟩
      rcases first with rfl | ⟨-, rfl⟩ <;>
        simp [Import.unstarted, Import.waiting, Progress.holds, eq_comm]
    | waiting all poll =>
      cases poll with
      | not => exact absurd rfl some
      | still => cases same
    | ended ended poll =>
      cases poll with
      | not => exact absurd rfl some
      | still => cases same
    | _ => cases same
  · cases agenda.symm.trans idle
  · -- The look would be foreign to its own import.
    obtain ⟨rfl, -⟩ := List.cons.inj (agenda.symm.trans agenda')
    simp [Task.serves] at apart

/-- An import that waits has asked for all its chunks. -/
theorem Phase.asked_waiting {ds : List Event} {now : Future} {own : List Task}
    (phase : i.Phase p ms asked ds now own) {loads : List (List Awaited)}
    (waits : now = ⟨i.name, .importing i.runtime loads i.module, false⟩) :
    asked.map (·.1) = i.chunks ∧ asked.map (·.2) = loads := by
  cases phase with
  | waiting all poll =>
    obtain ⟨-, progress, -⟩ := Future.mk.inj waits
    exact ⟨all, (Progress.importing.inj progress).2.1⟩
  | _ => cases waits

/-- An import that looks fails with the first rejection in its list, if it sees it. -/
theorem Verdict.look {progress : Progress} (there : q.futures[i.future]? = some ⟨i.name, progress, true⟩)
    (held : ∀ r, progress.holds r → r = i.runtime)
    (agenda : q.agenda = .load i.future i.runtime [] (asked.map (·.2)) i.module :: base)
    (split : asked = before ++ first :: after) (failed : q.joined first.2 = some (.failed e))
    (unfailed : ∀ a ∈ before, ∀ e, q.joined a.2 ≠ some (.failed e)) :
    i.Verdict asked before e q (q.make .task) := by
  let stands (as : Contributions) := (as.map (·.2)).map q.joined
  have results : stands asked = stands before ++ some (.failed e) :: stands after := by
    simp [stands, split, failed]
  have length : (stands asked).length = asked.length := by simp [stands]
  have among {as : Contributions} {x : Option LoadResult} :
      x ∈ stands as ↔ ∃ a ∈ as, q.joined a.2 = x := by
    simp only [stands, List.map_map, List.mem_map, Function.comp]
  have first : ∀ e, some (.failed e) ∉ stands before := by
    intro e member
    obtain ⟨a, earlier, failed⟩ := among.mp member
    exact unfailed a earlier e failed
  -- The first failure is seen if the loads are few, or all before it have ended.
  have fails (seen : asked.length ≤ Join.small ∨ ∀ a ∈ before, q.joined a.2 = some .ok) :
      Join.all (stands asked) = some (.failed e) := by
    rw [← length, results] at seen
    rw [results]
    refine Join.all_of_first first (seen.imp_right fun ok x member => ?_)
    obtain ⟨a, earlier, rfl⟩ := among.mp member
    exact ok a earlier
  -- It is hidden behind a load that is open if they are many.
  have waits (many : Join.small < asked.length) (pending : ∃ a ∈ before, q.joined a.2 = none) :
      Join.all (stands asked) = none := by
    rw [← length, results] at many
    rw [results]
    exact Join.all_of_pending first (among.mpr pending) many
  rcases make_load_nil agenda there held with
    ⟨all, -, there', log⟩ | ⟨g, all, -⟩ | ⟨e', ended, -, there', log⟩
  · -- The import goes on waiting, which it does not if the failure is seen.
    refine ⟨fun seen => ?_, fun _ _ => ⟨there', log⟩⟩
    cases all.symm.trans (fails seen)
  · -- It does not succeed either way.
    refine ⟨fun seen => ?_, fun many pending => ?_⟩
    · cases all.symm.trans (fails seen)
    · cases all.symm.trans (waits many pending)
  · -- It fails, with the first failure if that is seen, and not at all otherwise.
    refine ⟨fun seen => ?_, fun many pending => ?_⟩
    · rcases ended with all | ⟨all, -⟩
      · cases all.symm.trans (fails seen)
        exact ⟨there', log⟩
      · cases all.symm.trans (fails seen)
    · rcases ended with all | ⟨all, -⟩
      · cases all.symm.trans (waits many pending)
      · cases all.symm.trans (waits many pending)

/-- The verdict is the same if the poll begins earlier, with nothing changed for the loads. -/
theorem Verdict.of_kept {q' : Page} (verdict : i.Verdict asked before e q q')
    (joined : q.joined = p.joined) (runtime : q.runtime = p.runtime) (log : q.log = p.log) :
    i.Verdict asked before e p q' := by
  constructor
  · intro seen
    obtain ⟨there, reported⟩ := verdict.fails (joined ▸ seen)
    exact ⟨there, by rw [reported, runtime, log]⟩
  · intro many pending
    obtain ⟨there, silent⟩ := verdict.waits many (joined ▸ pending)
    exact ⟨there, silent.trans log⟩

end Import

namespace Page

variable {p : Page} {f : FutureId} {r : RuntimeId} {loads : List (List Awaited)} {module : ModuleId}
  {base : List Task} {settledAny : Bool} {future : Future}

/-- A poll of an import lets go of no runtime. -/
theorem alive_pollImport {t : Task} (alive : p.alive r) : (p.pollImport f settledAny t).alive r := by
  refine alive_of_kept (p := p) rfl rfl (fun g future found holds => ?_) (fun t member uses => ?_) alive
  · have there : (p.pollImport f settledAny t).futures[g]? =
        some (if f = g then { future with polling := true } else future) := by
      simp only [pollImport, call, modifyFuture, List.getElem?_modify, found]
      split <;> rfl
    refine alive_of_future (List.mem_of_getElem? there) ?_
    split <;> exact holds
  · exact alive_of_task (List.mem_append_right _ member) uses

/-- A poll that begins changes nothing about the loads that an import waits for. -/
theorem loads_passing (agenda : p.agenda = .pass f settledAny :: base)
    (there : p.futures[f]? = some future) (idle : future.polling = false)
    (progress : future.progress = .importing r loads module) :
    (p.make .task).joined = p.joined ∧ (p.make .task).runtime = p.runtime := by
  have made : p.make .task = p.rest.pass f settledAny := make_task agenda
  have begun : p.rest.pass f settledAny =
      p.rest.pollImport f settledAny (.load f r [] loads module) :=
    pass_eq (p := p.rest) there idle (.inr ⟨rfl, progress⟩)
  -- A pass only begins the next look, which keeps every runtime alive as it was.
  have alive (r' : RuntimeId) : (p.make .task).alive r' = p.alive r' := by
    rw [Bool.eq_iff_iff]
    constructor
    · intro alive
      rw [made] at alive
      exact alive_of_alive_rest (alive_of_alive_pass alive)
    · intro alive
      rw [made, begun]
      -- The task at hand refers to no runtime.
      refine alive_pollImport (alive_of_kept (p := p) rfl rfl (fun g future found => ?_) ?_ alive)
      · exact alive_of_future (List.mem_of_getElem? found)
      · rw [agenda]
        intro t member uses
        rcases List.mem_cons.mp member with rfl | member
        · cases uses
        · exact alive_of_task (agenda_rest agenda ▸ member) uses
  have runtimes : (p.make .task).runtimes = p.runtimes := by
    rw [made, begun]
    rfl
  have manual : (p.make .task).manual = p.manual := by
    rw [made, begun]
    rfl
  exact ⟨joined_congr alive runtimes manual, runtime_congr runtimes⟩

/-- **A load that was rejected stays rejected**, if the attempts that it waits for were started. -/
theorem Reachable.rejected_follow (h : p.Reachable) {got : List Awaited}
    (started : ∀ r c n, .attempt r c n ∈ got → (c, n) ∈ p.started r) {e : LoadError}
    (rejected : p.joined got = some (.failed e)) (ms : List Move) :
    ∃ e', (p.follow ms).joined got = some (.failed e') := by
  refine Join.all_failed_of_kept (fun a among result ended => ?_) rejected
  cases a with
  | ready result' => exact ended
  | attempt r c n => exact h.outcome_follow (started r c n among) ended ms
  | manual handler c =>
    have settled : p.manual.get? (handler, c) = some (some result) := Option.join_eq_some_iff.mp ended
    exact congrArg Option.join (h.ended_follow settled ms)

/-- **Imports of few chunks fail fast.** When an import is polled and the load of one of its chunks was
rejected before, whatever happened on the page until then, there is a first chunk in its list whose load is
rejected. If it has at most thirty chunks, or the loads of all chunks before that one have ended well, it
fails with that rejection and reports it. Otherwise it waits on and reports nothing. -/
theorem Reachable.import_rejected (h : p.Reachable) {name : String} (named : p.names.get? name = some r)
    {chunks : List ChunkId} {module : ModuleId} {label : Option String} {nested : Bool}
    {ts : List Task} (agenda : p.agenda = .perform (.load name chunks module label) nested :: ts)
    (ms : List Move) {a : ChunkId × List Awaited} {reason : LoadError}
    (awaited : a ∈ (p.make .task).along (contributions p.futures.length) ms)
    (rejected : ((p.make .task).follow ms).joined a.2 = some (.failed reason)) (ms' : List Move)
    {turn : List Move}
    (looks : (p.newImport r chunks module label).Looks ((p.make .task).follow (ms ++ ms')) turn) :
    let i := p.newImport r chunks module label
    let asked := (p.make .task).along (contributions p.futures.length) (ms ++ ms')
    let now := (p.make .task).follow (ms ++ ms')
    asked.map (·.1) = chunks ∧ ∃ before first after e, asked = before ++ first :: after ∧
      now.joined first.2 = some (.failed e) ∧ (∀ b ∈ before, ∀ e, now.joined b.2 ≠ some (.failed e)) ∧
      i.Verdict asked before e now (now.follow turn) := by
  intro i asked now
  -- The rejection is still there, and the chunk is still among those that were asked for.
  obtain ⟨reason', still⟩ : ∃ e, now.joined a.2 = some (.failed e) := by
    have covered := (h.stage_follow named agenda ms).1 a awaited
    have rejected := ((Reachable.make .task h).follow ms).rejected_follow covered.started rejected ms'
    rw [← follow_append] at rejected
    exact rejected
  have member : a ∈ asked := by
    obtain ⟨before, m, later, split, given⟩ := mem_along.mp awaited
    exact mem_along.mpr ⟨before, m, later ++ ms', by simp [split], given⟩
  obtain ⟨before, first, after, e, split, failed, unfailed⟩ :=
    Join.exists_first (fun a => now.joined a.2) ⟨a, member, reason', still⟩
  obtain ⟨-, future, own, phase, holds⟩ := h.stage_follow named agenda (ms ++ ms')
  cases looks with
  | first agenda' =>
    -- The import looks for the first time, after it has asked for its chunks.
    obtain ⟨all, rfl, progress, rfl, held⟩ := phase.asked_all holds agenda'
    refine ⟨all, before, first, after, e, split, failed, unfailed, ?_⟩
    exact Import.Verdict.look holds.future held agenda' split failed unfailed
  | again agenda' there =>
    -- It was polled again, and begins to look.
    obtain ⟨all, rfl⟩ := phase.asked_waiting (Option.some.inj (holds.future.symm.trans there))
    refine ⟨all, before, first, after, e, split, failed, unfailed, ?_⟩
    obtain ⟨agenda, there', log⟩ := make_pass agenda' there rfl (.inr ⟨rfl, rfl⟩)
    obtain ⟨same, runtimes⟩ := loads_passing agenda' there rfl rfl
    have verdict : i.Verdict asked before e (now.make .task) ((now.make .task).make .task) :=
      .look there' (fun r holds => by simpa [Progress.holds, eq_comm] using holds) agenda split
        (same ▸ failed) (same ▸ unfailed)
    exact verdict.of_kept same runtimes log

/-- A page that is asked to import two chunks. -/
def importingTwo : Page :=
  ((fresh [] []).giveAll [.create "main" (.ok .standard) none]).make
    (.call (.load "main" [.number 0, .number 1] (.number 9) none) false)

/-- The import is polled and asks for both chunks, and the second one cannot be delivered. -/
def secondRejected : List Move :=
  .poll 0 :: List.replicate 11 .task ++ [.call (.complete (.number 1) .error) false, .task, .task]

/-- When it is polled again, it fails while the first chunk is still pending. -/
theorem import_rejected_pending :
    let now := (importingTwo.make .task).follow (secondRejected ++ [.poll 0])
    now.joined [.attempt 0 (.number 0) 1] = none ∧
    ∃ e, (importingTwo.newImport 0 [.number 0, .number 1] (.number 9) none).Fails e now
      (now.follow [.task, .task]) := by
  intro now
  have reachable : importingTwo.Reachable := .make _ ((Reachable.fresh _ _).giveAll _)
  have named : importingTwo.names.get? "main" = some 0 := rfl
  have polled : (importingTwo.newImport 0 [.number 0, .number 1] (.number 9) none).Looks now
      [.task, .task] := .again rfl rfl
  have asked : (importingTwo.make .task).along (contributions 0) secondRejected =
      [(.number 0, [.attempt 0 (.number 0) 1]), (.number 1, [.attempt 0 (.number 1) 2])] := rfl
  have awaited : (.number 1, [.attempt 0 (.number 1) 2]) ∈
      (importingTwo.make .task).along (contributions 0) secondRejected := by simp [asked]
  obtain ⟨all, before, first, after, e, -, -, -, verdict⟩ :=
    Reachable.import_rejected reachable named rfl secondRejected awaited rfl [.poll 0] polled
  refine ⟨rfl, e, verdict.fails (.inl ?_)⟩
  decide

/-- A page that has polled an import of `n` chunks again after the second one could not be delivered. -/
def rejectedAmong (n : Nat) : Page :=
  (fresh [] []).giveAll
    [.create "main" (.ok .standard) none,
      .load "main" ((List.range n).map fun k => .number (.ofNat k)) (.number 99) none, .poll,
      .complete (.number 1) .error, .poll]

/-- With thirty chunks the import fails, with thirty-one it waits on and nothing is reported. -/
theorem rejection_unseen :
    (rejectedAmong 30).futures.map (·.progress) =
      [.settled (.failed (.delivery (.number 1) .transport "/1.js"))] ∧
    (rejectedAmong 31).futures.map (·.progress) = [.importing 0
      ((List.range 31).map fun k => [.attempt 0 (.number (.ofNat k)) (k + 1)]) (.number 99)] ∧
    (rejectedAmong 31).joined [.attempt 0 (.number 1) 2] =
      some (.failed (.delivery (.number 1) .transport "/1.js")) ∧
    (rejectedAmong 31).agenda = [] ∧ (rejectedAmong 31).log.filter Event.isDeed = [] := by
  decide +kernel

end Page

end ChunkLoading
