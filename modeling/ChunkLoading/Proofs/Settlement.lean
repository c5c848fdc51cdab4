import ChunkLoading.Proofs.Ledger
import ChunkLoading.Proofs.Soundness

/-!
# The settlement of load attempts

The ledger of a runtime is read off a page: attempts start with resource requests, wait on the agenda
once a merge has captured them, and end with events. It is balanced on every page, so that no attempt
ends twice and none is lost (`Reachable.settlement`).
-/

namespace ChunkLoading

/-- The attempt of a runtime that starts with an event. -/
def Event.started? (r : RuntimeId) : Event → Option Trial
  | .injected _ q => if q.runtime = r then some (q.chunk, q.attempt) else none
  | _ => none

/-- The attempt of a runtime that ends with an event, with its result. -/
def Event.settled? (r : RuntimeId) : Event → Option (Trial × LoadResult)
  | .resolved r' c n result => if r' = r then some ((c, n), result) else none
  | _ => none

/-- The attempts of a runtime that a task is going to end. -/
def Task.captured (r : RuntimeId) : Task → List Trial
  | .resolve r' _ waiting _ => if r' = r then waiting else []
  | _ => []

namespace Core

variable {k : Core} {r r' : RuntimeId}

/-- The ledger of a runtime. -/
def ledger (k : Core) (r : RuntimeId) : Ledger where
  store := k.store r
  started := k.log.reverse.filterMap (Event.started? r)
  captured := k.agenda.flatMap (Task.captured r)
  outcome := (k.outcomes r).get?
  settled := k.log.reverse.filterMap (Event.settled? r)

theorem ledger_setStore (s : Store) : (k.setStore r' s).ledger r =
    if r = r' then { k.ledger r with store := s } else k.ledger r := by
  by_cases same : r = r'
  · subst same
    simp [ledger, setStore]
  · simp [ledger, setStore, same]

theorem ledger_note (es : List Event) : (k.note es).ledger r = { k.ledger r with
    started := (k.ledger r).started ++ es.filterMap (Event.started? r)
    settled := (k.ledger r).settled ++ es.filterMap (Event.settled? r) } := by
  simp [ledger, note]

/-- Events that are no news of attempts. -/
theorem ledger_note_beside {es : List Event}
    (beside : ∀ e ∈ es, e.started? r = none ∧ e.settled? r = none) :
    (k.note es).ledger r = k.ledger r := by
  have started : es.filterMap (Event.started? r) = [] :=
    List.filterMap_eq_nil_iff.mpr fun e member => (beside e member).1
  have settled : es.filterMap (Event.settled? r) = [] :=
    List.filterMap_eq_nil_iff.mpr fun e member => (beside e member).2
  rw [ledger_note, started, settled, List.append_nil, List.append_nil]

/-- Tasks that end no attempts. -/
theorem ledger_call_beside {ts : List Task} (beside : ∀ t ∈ ts, t.captured r = []) :
    (k.call ts).ledger r = k.ledger r := by
  have captured : ts.flatMap (Task.captured r) = [] := List.flatMap_eq_nil_iff.mpr beside
  simp [ledger, call, captured]

theorem ledger_call (ts : List Task) : (k.call ts).ledger r = { k.ledger r with
    captured := ts.flatMap (Task.captured r) ++ (k.ledger r).captured } := by
  simp [ledger, call]

theorem ledger_runReady (w : Worklist) : (k.runReady r' w).ledger r = k.ledger r := by
  simp [runReady, setWorklist, ledger, call, Task.captured, List.flatMap_map]

theorem ledger_settleAttempt (c : ChunkId) (n : Attempt) (result : LoadResult) :
    (k.settleAttempt r' c n result).ledger r =
      if r = r' then (k.ledger r).finish [(c, n)] result else k.ledger r := by
  by_cases same : r = r'
  · subst same
    rw [if_pos rfl]
    apply Ledger.ext
    · rfl
    · simp [ledger, settleAttempt, note, Ledger.finish, Event.started?]
    · rfl
    · funext n'
      simp [ledger, settleAttempt, note, Ledger.finish, eq_comm]
    · simp [ledger, settleAttempt, note, Ledger.finish, Event.settled?]
  · apply Ledger.ext <;>
      simp [ledger, settleAttempt, note, same, Event.started?, Event.settled?, Ne.symm same]

/-- The captured attempts end one after the other, which the ledger takes as one. -/
theorem ledger_resolve (d : Delivery) (waiting : List Trial) (clashes : List ModuleId) :
    (k.resolve r' d waiting clashes).ledger r =
      if r = r' then (k.ledger r).finish waiting (Page.mergeResult d clashes) else k.ledger r := by
  unfold resolve
  induction waiting generalizing k with
  | nil =>
    split
    · rw [Ledger.finish_nil]
      rfl
    · rfl
  | cons w waiting ih =>
    rw [List.foldl_cons, ih, ledger_settleAttempt]
    split
    · exact Ledger.finish_finish ..
    · rfl

/-- A merge captures the attempts that it is going to end. -/
theorem ledger_step_merged (k : Core) (r : RuntimeId) (d : Delivery) (es : List Event)
    (beside : ∀ e ∈ es, e.started? r = none ∧ e.settled? r = none) (clashes : List ModuleId) :
    (k.ledger r).Step ((((k.setStore r ((k.store r).merge d).store).note es).call
      [.resolve r d ((k.store r).merge d).waiting clashes, .defer r d.entries]).ledger r) := by
  have captured : [Task.resolve r d ((k.store r).merge d).waiting clashes,
      .defer r d.entries].flatMap (Task.captured r) = ((k.store r).merge d).waiting := by
    simp [Task.captured]
  rw [ledger_call, captured, ledger_note_beside beside, ledger_setStore, if_pos rfl]
  exact .merged d

/-- Attempts that a merge has captured end with what the merge has found. -/
theorem ledger_step_resolved (k : Core) (r : RuntimeId) (d : Delivery) (waiting : List Trial)
    (clashes : List ModuleId) : ((k.call [.resolve r d waiting clashes]).ledger r).Step
      ((k.resolve r d waiting clashes).ledger r) := by
  have own : ∀ c, Page.mergeResult d clashes ≠ .failed (.abandoned c) := by
    intro c
    unfold Page.mergeResult
    split <;> simp
  have captured : ((k.call [.resolve r d waiting clashes]).ledger r).captured =
      waiting ++ (k.ledger r).captured := by
    simp [ledger_call, Task.captured]
  have step := Ledger.Step.resolved waiting (k.ledger r).captured _ captured own
  rw [ledger_resolve, if_pos rfl]
  rw [ledger_call] at step ⊢
  exact step

end Core

namespace Page

variable {p : Page} {m : Move} {r : RuntimeId} {c : ChunkId} {n : Attempt}

/-- The attempts that a runtime has started, in order. -/
def started (p : Page) (r : RuntimeId) : List Trial :=
  p.log.reverse.filterMap (Event.started? r)

/-- The attempts of a runtime that merges have captured and not ended yet. -/
def captured (p : Page) (r : RuntimeId) : List Trial := p.agenda.flatMap (Task.captured r)

/-- The attempts of a runtime that ended, in order, with their results. -/
def settlements (p : Page) (r : RuntimeId) : List (Trial × LoadResult) :=
  p.log.reverse.filterMap (Event.settled? r)

/-- The ledger in the terms of the page. -/
theorem ledger_core (p : Page) (r : RuntimeId) : p.core.ledger r =
    ⟨p.store r, p.started r, p.captured r, (p.runtime r).outcomes.get?, p.settlements r⟩ := by
  apply Ledger.ext
  · rfl
  · exact filterMap_core (fun e beside => by cases e <;> first | rfl | cases beside) p.log
  · exact flatMap_core (fun t beside => by cases t <;> first | rfl | cases beside) p.agenda
  · rfl
  · exact filterMap_core (fun e beside => by cases e <;> first | rfl | cases beside) p.log

theorem mem_settlements {result : LoadResult} :
    ((c, n), result) ∈ p.settlements r ↔ .resolved r c n result ∈ p.log := by
  unfold settlements
  rw [List.mem_filterMap]
  constructor
  · rintro ⟨e, member, settled⟩
    cases e with
    | resolved r' c' n' result' =>
      simp only [Event.settled?] at settled
      split at settled
      · rename_i same
        cases settled
        exact same ▸ List.mem_reverse.mp member
      · cases settled
    | _ => cases settled
  · intro member
    exact ⟨_, List.mem_reverse.mpr member, by simp [Event.settled?]⟩

/-- What a move does to the ledger of a runtime, unless it builds the runtime. -/
theorem Turn.ledger (turn : Turn p m) (r : RuntimeId) :
    (∃ rt, Built rt ∧ r = p.core.count ∧ (p.make m).core = p.core.create rt) ∨
      (p.core.ledger r).Step ((p.make m).core.ledger r) := by
  cases turn with
  | created b x rt built core =>
    by_cases newest : r = p.core.count
    · exact .inl ⟨rt, built_of_build built, newest, core⟩
    · have kept : (p.make m).core.ledger r = p.core.ledger r := by
        simp [core, Core.ledger, Core.create, newest]
      exact .inr (kept ▸ .same)
  | hinted r' c kind address nonce crossOrigin inRange idle core =>
    -- A hint marks the chunk of its own runtime.
    refine .inr ?_
    rw [core, Core.ledger_note_beside (by simp [Event.started?, Event.settled?]),
      Core.ledger_setStore]
    by_cases same : r = r'
    · subst same
      rw [if_pos rfl]
      exact .hinted c idle
    · rw [if_neg same]
      exact .same
  | started r' c number q inRange idle request core =>
    -- A request is on record as the next attempt of its own runtime.
    obtain ⟨runtime, rfl, attempt⟩ := request
    have settled : [Event.injected number q].filterMap (Event.settled? r) = [] := rfl
    refine .inr ?_
    rw [core, Core.ledger_note, Core.ledger_setStore, settled, List.append_nil]
    by_cases same : r = r'
    · subst same
      have started : [Event.injected number q].filterMap (Event.started? r) =
          [(q.chunk, (p.core.store r).attempts + 1)] := by
        simp [Event.started?, runtime, attempt]
      rw [if_pos rfl, started]
      exact .started q.chunk idle
    · have started : [Event.injected number q].filterMap (Event.started? r) = [] := by
        simp [Event.started?, runtime, Ne.symm same]
      rw [if_neg same, started, List.append_nil]
      exact .same
  | rejected r' c n e inRange loading own alive core =>
    refine .inr ?_
    rw [core, Core.ledger_settleAttempt,
      Core.ledger_note_beside (by simp [Event.started?, Event.settled?]), Core.ledger_setStore]
    by_cases same : r = r'
    · subst same
      rw [if_pos rfl, if_pos rfl]
      exact .rejected c n e loading own
    · rw [if_neg same, if_neg same]
      exact .same
  | merged r' d inRange core =>
    refine .inr ?_
    rw [core]
    by_cases same : r = r'
    · subst same
      -- What the delivery answers is captured, and ended only by the task that follows.
      exact Core.ledger_step_merged _ r d _ (by simp [Event.started?, Event.settled?]) _
    · rw [Core.ledger_call_beside (by simp [Task.captured, Ne.symm same]),
        Core.ledger_note_beside (by simp [Event.started?, Event.settled?]), Core.ledger_setStore,
        if_neg same]
      exact .same
  | resolved r' d waiting clashes k inRange pending core =>
    refine .inr ?_
    rw [core, pending]
    by_cases same : r = r'
    · subst same
      -- That task ends just what its merge has captured.
      exact Core.ledger_step_resolved k r d waiting clashes
    · rw [Core.ledger_resolve, if_neg same,
        Core.ledger_call_beside (by simp [Task.captured, Ne.symm same])]
      exact .same
  | beside core => exact .inr (core ▸ .same)
  | dropped r' es k pending none core =>
    -- From here on no attempt is started, captured or ended.
    rw [core, pending, Core.ledger_call_beside (by simp [Task.captured])]
    exact .inr .same
  | deferred r' es w k inRange pending some core =>
    rw [core, pending, Core.ledger_runReady, Core.ledger_call_beside (by simp [Task.captured]),
      Core.ledger_note_beside (by simp [Event.started?, Event.settled?])]
    exact .inr .same
  | startedUp r' es w inRange some core =>
    rw [core, Core.ledger_runReady,
      Core.ledger_note_beside (by simp [Event.started?, Event.settled?])]
    exact .inr .same
  | scanned r' w inRange some core =>
    rw [core, Core.ledger_runReady]
    exact .inr .same
  | hurried r' es none core =>
    rw [core, Core.ledger_call_beside (by simp [Task.captured])]
    exact .inr .same
  | entered r' e k pending core =>
    rw [core, pending, Core.ledger_note_beside (by simp [Event.started?, Event.settled?]),
      Core.ledger_call_beside (by simp [Task.captured])]
    exact .inr .same

/-- **The ledgers of every page are balanced.** -/
theorem Reachable.balanced (h : p.Reachable) (r : RuntimeId) : (p.core.ledger r).Balanced := by
  induction h with
  | fresh onInject onHint => exact .ofBuilt (fun _ => .inl rfl) rfl fun _ => rfl
  | make m h ih =>
    rename_i p
    rcases (h.turn m).ledger r with ⟨rt, built, rfl, core⟩ | step
    · -- Nothing was on record for the number of the new runtime.
      have absent : p.store p.core.count = .empty := store_outOfRange (Nat.lt_irrefl _)
      obtain ⟨started, captured, settled⟩ :=
        ih.empty_of_attempts (show (p.store p.core.count).attempts = 0 by rw [absent]; rfl)
      have new : (p.make m).core.ledger p.core.count =
          ⟨rt.store, [], [], rt.outcomes.get?, []⟩ := by
        apply Ledger.ext
        · simp [core, Core.ledger, Core.create]
        · rw [core]
          exact started
        · rw [core]
          exact captured
        · simp [core, Core.ledger, Core.create]
        · rw [core]
          exact settled
      rw [new]
      exact .ofBuilt built.state built.attempts fun n => by rw [built.outcomes]; rfl
    · exact ih.step step

/-- No attempt is started for a runtime that is not there yet. -/
theorem Reachable.inRange_of_started (h : p.Reachable) (member : (c, n) ∈ p.started r) :
    r < p.core.count := by
  by_contra outside
  have absent : p.store r = .empty := store_outOfRange outside
  have ledger := h.balanced r
  rw [ledger_core] at ledger
  obtain ⟨none, -⟩ :=
    ledger.empty_of_attempts (show (p.store r).attempts = 0 by rw [absent]; rfl)
  have none : p.started r = [] := none
  rw [none] at member
  cases member

theorem Reachable.inRange_of_resolved (h : p.Reachable) {result : LoadResult}
    (ended : .resolved r c n result ∈ p.log) : r < p.core.count := by
  have ledger := h.balanced r
  rw [ledger_core] at ledger
  exact h.inRange_of_started ((ledger.settled (c, n) result).mp (mem_settlements.mpr ended)).1

/-! ## The end of a runtime -/

/-- Every merge that has not ended its attempts has not registered its entries either. -/
def Paired : List Task → Prop
  | [] => True
  | t :: ts =>
    (∀ r d waiting clashes, t = .resolve r d waiting clashes → ∃ es, .defer r es ∈ ts) ∧ Paired ts

theorem paired_enter {ts : List Task} (paired : Paired ts) (r : RuntimeId)
    (es : List DeferredEntry) : Paired (es.map (.enter r ·) ++ ts) := by
  induction es with
  | nil => exact paired
  | cons e es ih =>
    refine ⟨?_, ih⟩
    intro r' d waiting clashes same
    cases same

/-- A merge leaves its two tasks together, and no other move takes away only the second of them. -/
theorem Turn.paired (turn : Turn p m) (paired : Paired p.core.agenda) :
    Paired (p.make m).core.agenda := by
  rcases turn.agenda with ⟨r, d, core⟩ | ⟨r, es, ts, agenda, left⟩
  · -- A merge is followed up by both tasks.
    rw [core]
    refine ⟨?_, ?_, paired⟩
    · intro r' d' waiting clashes same
      cases same
      exact ⟨d.entries, List.mem_cons_self⟩
    · intro r' d' waiting clashes same
      cases same
  · rw [agenda]
    apply paired_enter
    rcases left with rfl | ⟨t, agenda⟩
    · exact paired
    · rw [agenda] at paired
      exact paired.2

theorem Reachable.paired (h : p.Reachable) : Paired p.core.agenda := by
  induction h with
  | fresh onInject onHint => trivial
  | make m h ih => exact (h.turn m).paired ih

/-- Attempts end while their runtime is there. -/
theorem Reachable.outcomes_of_gone (h : p.Reachable) (inRange : r < p.core.count) {m : Move}
    (gone : (p.make m).alive r = false) (n : Attempt) :
    ((p.make m).core.outcomes r).get? n = (p.core.outcomes r).get? n := by
  cases h.turn m with
  | created b x rt built core =>
    simp [core, Core.create, Function.update_of_ne (Nat.ne_of_lt inRange)]
  | rejected r' c n e inRange loading own alive core =>
    -- A report is looked at while its runtime is there.
    have other : r ≠ r' := by
      rintro rfl
      rw [alive] at gone
      cases gone
    simp [core, Core.settleAttempt, Core.note, Core.setStore, other]
  | resolved r' d waiting clashes k inRange pending core =>
    have other : r ≠ r' := by
      rintro rfl
      -- The entries of the delivery are still to be registered, which uses the runtime.
      have paired := h.paired
      rw [pending] at paired
      obtain ⟨es, member⟩ := paired.1 _ _ _ _ rfl
      have still : Task.defer r es ∈ (p.make m).core.agenda := by
        rw [core, Core.agenda_resolve]
        exact member
      have alive : (p.make m).alive r := alive_of_core still (by simp [Task.uses])
      rw [alive] at gone
      cases gone
    rw [core, Core.outcomes_resolve, if_neg fun both => other both.1, pending]
    rfl
  | _ =>
    simp [*, Core.note, Core.setStore, Core.call, Core.runReady, Core.setWorklist]

/-! ## Outcomes -/

theorem outcome_attempt (p : Page) (r : RuntimeId) (c : ChunkId) (n : Attempt) :
    p.outcome (.attempt r c n) = match (p.core.ledger r).outcome n with
      | some result => some result
      | none => if p.alive r then none else some (.failed (.abandoned c)) := rfl

/-- How an attempt ended depends on its runtime alone. -/
theorem outcome_congr {p' : Page} (alive : p'.alive r = p.alive r)
    (outcomes : (p'.runtime r).outcomes.get? n = (p.runtime r).outcomes.get? n) :
    p'.outcome (.attempt r c n) = p.outcome (.attempt r c n) := by
  simp only [outcome, alive, outcomes]

/-- An open attempt is one that has not ended, of a runtime that is there. -/
theorem outcome_eq_none : p.outcome (.attempt r c n) = none ↔
    (p.core.ledger r).outcome n = none ∧ p.alive r := by
  rw [outcome_attempt]
  cases (p.core.ledger r).outcome n with
  | some result => simp
  | none => cases p.alive r <;> simp

/-- An attempt ended by an event, or was abandoned by its runtime. -/
theorem outcome_eq_some {result : LoadResult} : p.outcome (.attempt r c n) = some result ↔
    (p.core.ledger r).outcome n = some result ∨
      (p.core.ledger r).outcome n = none ∧ p.alive r = false ∧ result = .failed (.abandoned c) := by
  rw [outcome_attempt]
  cases (p.core.ledger r).outcome n with
  | some result => simp
  | none => cases p.alive r <;> simp [eq_comm]

/-- An attempt that has ended stays as it is. -/
theorem Reachable.outcome_make (h : p.Reachable) (started : (c, n) ∈ p.started r)
    {result : LoadResult} (ended : p.outcome (.attempt r c n) = some result) (m : Move) :
    (p.make m).outcome (.attempt r c n) = some result := by
  have inRange := h.inRange_of_started started
  rw [outcome_eq_some] at ended ⊢
  rcases ended with ended | ⟨none, gone, rfl⟩
  · -- What ended by an event stays so.
    rcases (h.turn m).ledger r with ⟨rt, -, rfl, -⟩ | step
    · exact absurd inRange (Nat.lt_irrefl _)
    · exact .inl ((h.balanced r).outcome_step step ended)
  · -- A runtime that is gone does not come back, and ends nothing more.
    have still := gone_make inRange gone m
    exact .inr ⟨(h.outcomes_of_gone inRange still n).trans none, still, rfl⟩

theorem Reachable.started_make (h : p.Reachable) (member : (c, n) ∈ p.started r) (m : Move) :
    (c, n) ∈ (p.make m).started r := by
  have inRange := h.inRange_of_started member
  rcases (h.turn m).ledger r with ⟨rt, -, rfl, -⟩ | step
  · exact absurd inRange (Nat.lt_irrefl _)
  · rw [ledger_core, ledger_core] at step
    exact Ledger.Balanced.started_step step member

/-- An attempt ends once. -/
theorem Reachable.outcome_follow (h : p.Reachable) (started : (c, n) ∈ p.started r)
    {result : LoadResult} (ended : p.outcome (.attempt r c n) = some result) (ms : List Move) :
    (p.follow ms).outcome (.attempt r c n) = some result := by
  induction ms generalizing p with
  | nil => exact ended
  | cons m ms ih =>
    exact ih (.make m h) (h.started_make started m) (h.outcome_make started ended m)

/-- The attempts of a runtime are abandoned when it goes. -/
theorem Reachable.abandoned (h : p.Reachable) (started : (c, n) ∈ p.started r)
    (pending : p.outcome (.attempt r c n) = none) {m : Move}
    (gone : (p.make m).alive r = false) :
    (p.make m).outcome (.attempt r c n) = some (.failed (.abandoned c)) := by
  have none := (outcome_eq_none.mp pending).1
  have kept := h.outcomes_of_gone (h.inRange_of_started started) gone n
  exact outcome_eq_some.mpr (.inr ⟨kept.trans none, gone, rfl⟩)

/-- Who waits for one load alone sees how that load ends. -/
theorem joined_singleton (p : Page) (a : Awaited) : p.joined [a] = p.outcome a := by
  unfold joined Join.all
  cases outcome : p.outcome a with
  | none => simp [outcome, Join.small, Join.together, Join.firstFailure?]
  | some result =>
    cases result <;> simp [outcome, Join.small, Join.together, Join.firstFailure?]

/-- What the script handler gives to those who ask for a chunk. -/
def contribution (p : Page) (r : RuntimeId) (c : ChunkId) : Awaited :=
  match (p.store r).state c with
  | .loaded => .ready .ok
  | .loading n => .attempt r c n
  | _ => .attempt r c ((p.store r).attempts + 1)

theorem agenda_make_script {only : Option (List ChunkId)} {handlers : List Handler}
    {got : List Awaited} {caller : Caller} {ts : List Task}
    (agenda : p.agenda = .gather r c (.script only :: handlers) got caller :: ts)
    (serves : Handler.serves only c) (unfailed : (p.store r).state c ≠ .failed) :
    ∃ script : Script, (p.make .task).agenda = script.map (.perform · true) ++
      .gather r c handlers (got ++ [p.contribution r c]) caller :: ts := by
  have rest : p.rest.agenda = ts := by
    simp [Page.rest, agenda]
  have same : p.rest.store r = p.store r := rfl
  have made : p.make .task = p.rest.gatherFrom r c (.script only) handlers got caller :=
    make_task agenda
  rw [gatherFrom_script (same ▸ unfailed) serves, same] at made
  rw [made, contribution, ← rest]
  cases state : (p.store r).state c with
  | failed => exact absurd state unfailed
  | notRequested => exact ⟨_, rfl⟩
  | hintOnly => exact ⟨_, rfl⟩
  | loading n => exact ⟨[], rfl⟩
  | loaded => exact ⟨[], rfl⟩

/-- Whoever asks for a chunk waits for the attempt that is under way when the chunk was asked for. -/
theorem contribution_of_loading {only : Option (List ChunkId)} {handlers : List Handler}
    {got : List Awaited} {caller : Caller} {ts : List Task}
    (agenda : p.agenda = .gather r c (.script only :: handlers) got caller :: ts)
    (serves : Handler.serves only c) (unfailed : (p.store r).state c ≠ .failed)
    (inRange : r < p.runtimes.length)
    (loading : ((p.make .task).store r).state c = .loading n) :
    p.contribution r c = .attempt r c n := by
  have loading : ((p.make .task).core.store r).state c = .loading n := loading
  have made : p.make .task = p.rest.gatherFrom r c (.script only) handlers got caller :=
    make_task agenda
  have core := core_gather_script (p := p.rest) inRange unfailed serves handlers got caller
  have kept : p.rest.core = p.core := core_rest agenda rfl
  have same : p.rest.store r = p.store r := rfl
  rw [made, core, kept, same] at loading
  unfold contribution
  by_cases idle : ((p.store r).state c).isIdle
  · -- The attempt starts now.
    simp only [idle, if_true, Core.note, Core.setStore, Function.update_self, Store.state_start,
      ChunkState.loading.injEq] at loading
    rw [loading]
    cases state : (p.store r).state c <;> simp_all [ChunkState.isIdle]
  · -- The attempt was under way before.
    rw [if_neg idle] at loading
    have loading : (p.store r).state c = .loading n := loading
    rw [loading]

/-- **No attempt is lost, and none ends twice.** On every page of every run, the attempts of a runtime
have different numbers, and each ends at most once, as it does for good. While the runtime is there,
an attempt is open exactly as long as its chunk is under way by it or a merge has captured it; so
when nothing is going on, the open attempts are those of the chunks under way. All who ask for a
chunk while an attempt is under way wait for that one attempt. An attempt that ends well leaves its
chunk loaded for good, and no attempt is abandoned before its runtime goes; those still open then
are, each under the name of its chunk. -/
theorem Reachable.settlement (h : p.Reachable) (r : RuntimeId) :
    ((p.started r).map (·.2)).Nodup ∧
    ((p.settlements r).map (·.1)).Nodup ∧
    (∀ w result, (w, result) ∈ p.settlements r →
      w ∈ p.started r ∧ p.outcome (.attempt r w.1 w.2) = some result) ∧
    (∀ c n result, (c, n) ∈ p.started r → p.outcome (.attempt r c n) = some result →
      ∀ ms, (p.follow ms).outcome (.attempt r c n) = some result) ∧
    (p.alive r → ∀ c n, (c, n) ∈ p.started r →
      (p.outcome (.attempt r c n) = none ↔
        (p.store r).state c = .loading n ∨ (c, n) ∈ p.captured r)) ∧
    (p.alive r → p.agenda = [] → ∀ c n,
      ((c, n) ∈ p.started r ∧ p.outcome (.attempt r c n) = none ↔
        (p.store r).state c = .loading n)) ∧
    (∀ c n only handlers got caller ts,
      p.agenda = .gather r c (.script only :: handlers) got caller :: ts →
      Handler.serves only c → ((p.make .task).store r).state c = .loading n →
      ∃ script : Script, (p.make .task).agenda = script.map (.perform · true) ++
        .gather r c handlers (got ++ [.attempt r c n]) caller :: ts) ∧
    (∀ c n, p.joined [.attempt r c n] = p.outcome (.attempt r c n)) ∧
    (∀ c n, (c, n) ∈ p.started r → p.outcome (.attempt r c n) = some .ok →
      ∀ ms, ((p.follow ms).store r).state c = .loaded) ∧
    (p.alive r → ∀ c n c', p.outcome (.attempt r c n) ≠ some (.failed (.abandoned c'))) ∧
    ∀ c n m, (c, n) ∈ p.started r → p.outcome (.attempt r c n) = none →
      (p.make m).alive r = false →
      (p.make m).outcome (.attempt r c n) = some (.failed (.abandoned c)) := by
  have ledger := h.balanced r
  have unfailed := h.sound.unfailed r
  -- Of a runtime that is there, an attempt is open if its ledger has no outcome.
  have pending (alive : p.alive r) (c : ChunkId) (n : Attempt) (started : (c, n) ∈ p.started r) :
      p.outcome (.attempt r c n) = none ↔
        (p.store r).state c = .loading n ∨ (c, n) ∈ p.captured r := by
    rw [outcome_eq_none, and_iff_left alive]
    rw [ledger_core] at ledger ⊢
    exact ledger.unsettled (c, n) started
  refine ⟨?_, ?_, ?_, ?_, pending, ?_, ?_, fun c n => p.joined_singleton _, ?_, ?_, ?_⟩
  · -- Attempts have different numbers.
    rw [ledger_core] at ledger
    exact ledger.numbers_nodup
  · -- No attempt ends twice.
    rw [ledger_core] at ledger
    exact ledger.once
  · -- What ended was started, and is known by its result.
    intro w result member
    have settled := ledger
    rw [ledger_core] at settled
    have ended := (settled.settled w result).mp member
    refine ⟨ended.1, outcome_eq_some.mpr (.inl ?_)⟩
    rw [ledger_core]
    exact ended.2
  · intro c n result started ended ms
    exact h.outcome_follow started ended ms
  · -- When nothing is going on, no merge holds attempts.
    intro alive quiet c n
    have free : p.captured r = [] := by
      simp [captured, quiet]
    constructor
    · rintro ⟨started, none⟩
      rcases (pending alive c n started).mp none with loading | held
      · exact loading
      · rw [free] at held
        cases held
    · intro loading
      rw [ledger_core] at ledger
      have started := ledger.loading c n loading
      exact ⟨started, (pending alive c n started).mpr (.inl loading)⟩
  · -- Whoever asks for a chunk under way gets its attempt.
    intro c n only handlers got caller ts agenda serves loading
    have inRange : r < p.runtimes.length :=
      h.sound.inRange r (alive_of_task (agenda ▸ List.mem_cons_self) (by simp [Task.uses]))
    rw [← contribution_of_loading agenda serves (unfailed c) inRange loading]
    exact agenda_make_script agenda serves (unfailed c)
  · -- A chunk whose attempt ended well is loaded, and stays so.
    intro c n started ok
    rcases outcome_eq_some.mp ok with ok | ⟨-, -, other⟩
    · rw [ledger_core] at ledger ok
      exact h.loaded_follow (ledger.ok (c, n) started ok)
    · cases other
  · -- Nothing is abandoned while the runtime is there.
    intro alive c n c' abandoned
    rcases outcome_eq_some.mp abandoned with ended | ⟨-, gone, -⟩
    · exact ledger.own n c' ended
    · rw [alive] at gone
      cases gone
  · intro c n m started pending gone
    exact h.abandoned started pending gone

/-- Two calls wait for one attempt, and a delivery of its chunk has been merged but not ended it. -/
def held : Page :=
  ((fresh [] []).giveAll
    [.create "main" (.ok .standard) none, .install "main" "chunks",
      .ensure "main" (.number 7) none, .ensure "main" (.number 7) none]).follow
    [.call (.push "chunks" ⟨[.number 7], [], [], []⟩) false, .task, .task]

theorem settlement_held : held.alive 0 ∧ held.started 0 = [(.number 7, 1)] ∧
    held.captured 0 = [(.number 7, 1)] ∧ held.outcome (.attempt 0 (.number 7) 1) = none := by
  have reachable : held.Reachable := Reachable.follow ((Reachable.fresh _ _).giveAll _) _
  have alive : held.alive 0 := by decide +kernel
  have started : held.started 0 = [(.number 7, 1)] := rfl
  have captured : held.captured 0 = [(.number 7, 1)] := rfl
  obtain ⟨-, -, -, -, pending, -⟩ := Reachable.settlement reachable 0
  refine ⟨alive, started, captured, (pending alive (.number 7) 1 ?_).mpr (.inr ?_)⟩
  · rw [started]
    exact List.mem_cons_self
  · rw [captured]
    exact List.mem_cons_self

end Page

end ChunkLoading
