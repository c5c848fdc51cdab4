import ChunkLoading.Proofs.Entries
import ChunkLoading.Proofs.Lists
import ChunkLoading.Proofs.Settlement

/-!
# Merges that are interrupted

A merge marks chunks loaded first, then calls the extension and the host, and ends the attempts of
the chunks only when they are done. Whoever calls back meanwhile finds the chunks loaded and the
attempts open. So the attempts that are open when an entry runs are those that merges held when the
entry was taken from the worklist (`entry_attempts`): none as long as entries are taken while no
merge is interrupted, but an extension that looks for entries to run makes them run too early
(`entered_early`).
-/

namespace ChunkLoading

namespace Core

variable {k : Core} {r r' : RuntimeId} {e : DeferredEntry} {w : Worklist} {before after : List Task}

/-- Tasks that are not that entry leave it where it was. -/
theorem enter_call {ts : List Task} (beside : ∀ t ∈ ts, t ≠ .enter r e)
    (agenda : (k.call ts).agenda = before ++ .enter r e :: after) :
    ∃ before', k.agenda = before' ++ .enter r e :: after := by
  rcases append_eq_append_cons_iff.mp agenda with ⟨before', -, older⟩ | ⟨others, here, -⟩
  · exact ⟨before', older⟩
  · exact absurd rfl (beside _ (here ▸ by simp))

/-- An entry that is underway after a scan was so before, or is one that the scan has taken. -/
theorem enter_runReady (agenda : (k.runReady r' w).agenda = before ++ .enter r e :: after) :
    (∃ before', k.agenda = before' ++ .enter r e :: after) ∨
      r = r' ∧ e ∈ w.ready (k.store r').isLoaded ∧
        after.flatMap (Task.captured r) = k.agenda.flatMap (Task.captured r) := by
  rcases append_eq_append_cons_iff.mp agenda with ⟨before', -, older⟩ | ⟨others, taken, rfl⟩
  · exact .inl ⟨before', older⟩
  · obtain ⟨first, second, ready, -, rest⟩ := List.map_eq_append_iff.mp taken
    obtain ⟨e', later, rfl, same, rfl⟩ := List.map_eq_cons_iff.mp rest
    obtain ⟨rfl, rfl⟩ := Task.enter.inj same
    -- The entries that are taken after it hold no attempts.
    refine .inr ⟨rfl, by simp [ready], ?_⟩
    simp [List.flatMap_append, List.flatMap_map, Task.captured, setWorklist]

end Core

namespace Page

variable {p : Page} {m : Move} {r : RuntimeId} {e : DeferredEntry} {before after : List Task}

theorem captured_core (p : Page) (r : RuntimeId) :
    p.core.agenda.flatMap (Task.captured r) = p.captured r :=
  congrArg Ledger.captured (ledger_core p r)

theorem underway_core (p : Page) (r : RuntimeId) :
    p.core.agenda.flatMap (Task.underway r) = p.underway r :=
  congrArg Roster.underway (roster_core p r)

/-- A move takes an entry: it puts it underway, before all that was underway. -/
def Takes (p : Page) (r : RuntimeId) (m : Move) (e : DeferredEntry) : Prop :=
  ∃ taken, (p.make m).underway r = taken ++ p.underway r ∧ e ∈ taken

/-- After a move that scans a worklist, an entry that is underway was so before the scan, or the move
has taken it. -/
theorem enter_of_scan {k : Core} {r' : RuntimeId} {w : Worklist}
    (core : (p.make m).core = k.runReady r' w)
    (underway : k.agenda.flatMap (Task.underway r) = p.underway r)
    (captured : k.agenda.flatMap (Task.captured r) = p.captured r)
    (agenda : (p.make m).core.agenda = before ++ .enter r e :: after) :
    (∃ before', k.agenda = before' ++ .enter r e :: after) ∨
      p.Takes r m e ∧ after.flatMap (Task.captured r) = p.captured r := by
  rw [core] at agenda
  refine (Core.enter_runReady agenda).imp_right ?_
  rintro ⟨rfl, inside, held⟩
  have taken := congrArg Roster.underway (Core.roster_runReady (k := k) (r := r) w)
  rw [← core] at taken
  refine ⟨⟨w.ready (k.store r).isLoaded, ?_, inside⟩, held.trans captured⟩
  rw [← underway_core, ← underway]
  exact taken

/-- An entry that is underway was so before the move, or the move has taken it. -/
theorem Turn.enter (turn : Turn p m) (deferral : (p.core.worklist r).isSome)
    (agenda : (p.make m).core.agenda = before ++ .enter r e :: after) :
    (∃ before', p.core.agenda = before' ++ .enter r e :: after) ∨
      p.Takes r m e ∧ after.flatMap (Task.captured r) = p.captured r := by
  -- A task that is taken away stood in front of the entry.
  have popped {k : Core} {t : Task} (pending : p.core = k.call [t])
      (older : ∃ before', k.agenda = before' ++ .enter r e :: after) :
      ∃ before', p.core.agenda = before' ++ .enter r e :: after := by
    obtain ⟨before', older⟩ := older
    exact ⟨t :: before', by rw [pending, Core.call, older]; rfl⟩
  cases turn with
  | merged r' d inRange core =>
    rw [core] at agenda
    exact .inl (Core.enter_call (by simp) agenda)
  | resolved r' d waiting clashes k inRange pending core =>
    rw [core, Core.agenda_resolve] at agenda
    exact .inl (popped pending ⟨before, agenda⟩)
  | dropped r' es k pending none core =>
    rw [core] at agenda
    exact .inl (popped pending ⟨before, agenda⟩)
  | deferred r' es w k inRange pending some core =>
    -- The entry was on its way before, or the move has just put it there.
    have underway := underway_core p r
    have captured := captured_core p r
    rw [pending, Core.call] at underway captured
    exact (enter_of_scan core underway captured agenda).imp_left (popped pending)
  | startedUp r' es w inRange some core =>
    exact enter_of_scan (k := p.core.note [.registered r' es]) core (underway_core p r)
      (captured_core p r) agenda
  | scanned r' w inRange some core =>
    exact enter_of_scan core (underway_core p r) (captured_core p r) agenda
  | hurried r' es none core =>
    -- These entries are of a runtime that has no worklist.
    have other : r' ≠ r := by
      rintro rfl
      rw [none] at deferral
      cases deferral
    rw [core] at agenda
    exact .inl (Core.enter_call (by simp [other]) agenda)
  | entered r' e' k pending core =>
    rw [core] at agenda
    exact .inl (popped pending ⟨before, agenda⟩)
  | _ =>
    have kept : (p.make m).core.agenda = p.core.agenda := by
      simp [*, Core.create, Core.note, Core.setStore, Core.settleAttempt]
    exact .inl ⟨before, kept ▸ agenda⟩

variable {onInject onHint : List (ChunkId × Script)} {ms : List Move}

/-- An entry that is underway was taken by some move of the run; what merges held then is what those
hold that still wait behind the entry. -/
theorem taken_follow (run : (fresh onInject onHint).follow ms = p)
    (deferral : (p.core.worklist r).isSome)
    (agenda : p.core.agenda = before ++ .enter r e :: after) :
    ∃ earlier m later, ms = earlier ++ m :: later ∧
      ((fresh onInject onHint).follow earlier).Takes r m e ∧
      after.flatMap (Task.captured r) = ((fresh onInject onHint).follow earlier).captured r := by
  induction ms using List.reverseRecOn generalizing p before with
  | nil =>
    subst run
    simp [core, fresh] at agenda
  | append_singleton ms m ih =>
    have h : ((fresh onInject onHint).follow ms).Reachable := (Reachable.fresh ..).follow ms
    have turn := h.turn m
    rw [follow_append, follow_cons, follow_nil] at run
    subst run
    rcases turn.deferral deferral with waits | ⟨rt, -, new, core⟩
    · -- Either the last move put the entry on its way, or an earlier one did.
      rcases turn.enter waits agenda with ⟨before', older⟩ | ⟨takes, held⟩
      · obtain ⟨earlier, m', later, moves, rest⟩ := ih rfl waits older
        exact ⟨earlier, m', later ++ [m], by rw [moves, List.append_assoc, List.cons_append], rest⟩
      · exact ⟨ms, m, [], rfl, takes, held⟩
    · -- A runtime that was not built has no entries underway.
      have pending : Task.enter r e ∈ ((fresh onInject onHint).follow ms).core.agenda := by
        rw [core] at agenda
        exact agenda ▸ List.mem_append_right _ List.mem_cons_self
      have inRange := h.sound.inRange r (alive_of_core pending (by simp [Task.uses]))
      exact absurd inRange (new ▸ Nat.lt_irrefl _)

/-- The attempts of a runtime that merges hold when an entry runs are those that they held when the
entry was taken. -/
theorem captured_of_enter {ts : List Task} (run : (fresh onInject onHint).follow ms = p)
    (deferral : (p.core.worklist r).isSome) (agenda : p.agenda = .enter r e :: ts) :
    ∃ earlier m later, ms = earlier ++ m :: later ∧
      ((fresh onInject onHint).follow earlier).Takes r m e ∧
      p.captured r = ((fresh onInject onHint).follow earlier).captured r := by
  have core : p.core.agenda = [] ++ .enter r e :: ts.filter Task.isCore := by
    show p.agenda.filter Task.isCore = _
    rw [agenda]
    rfl
  have captured : p.captured r = (ts.filter Task.isCore).flatMap (Task.captured r) := by
    rw [← captured_core, core]
    rfl
  rw [captured]
  exact taken_follow run deferral core

/-- An entry that a runtime with a worklist runs has all its chunks. -/
theorem loaded_of_enter {ts : List Task} (run : (fresh onInject onHint).follow ms = p)
    (deferral : (p.core.worklist r).isSome) (agenda : p.agenda = .enter r e :: ts) :
    ∀ c ∈ e.chunks, (p.store r).state c = .loaded := by
  have fair := (run ▸ tracked_follow onInject onHint ms r : p.Tracked r _).fair deferral
  refine isReady_iff.mp (fair.ready e ?_)
  rw [roster_core]
  simp [underway, agenda, Task.underway]

/-- While an entry runs, those attempts of its chunks are open that merges hold. -/
theorem Reachable.open_of_enter (h : p.Reachable) {ts : List Task}
    (agenda : p.agenda = .enter r e :: ts)
    {c : ChunkId} (loaded : (p.store r).state c = .loaded) {n : Attempt} (started : (c, n) ∈ p.started r) :
    p.outcome (.attempt r c n) = none ↔ (c, n) ∈ p.captured r := by
  have alive : p.alive r := alive_of_task (agenda ▸ List.mem_cons_self) (by simp [Task.uses])
  have ledger := h.balanced r
  rw [outcome_eq_none, and_iff_left alive]
  rw [ledger_core] at ledger ⊢
  -- A chunk that is loaded is not loading with that attempt.
  refine (ledger.unsettled (c, n) started).trans (or_iff_right ?_)
  intro loading
  have loading : (p.store r).state c = .loading n := loading
  rw [loaded] at loading
  cases loading

/-- **The attempts that are open when an entry runs are those that merges held when it was taken.**
Take any run of a page, at whose end a runtime with a worklist runs an entry. All chunks of the entry
are loaded. Some move of the run took the entry from the worklist, and an attempt of one of its
chunks is open exactly if a merge of that runtime had captured it then: the merge was interrupted
after it had marked the chunk loaded, and before it ended the attempts. -/
theorem entry_attempts {ts : List Task} (run : (fresh onInject onHint).follow ms = p)
    (waits : (p.runtime r).worklist.isSome) (agenda : p.agenda = .enter r e :: ts) :
    (∀ c ∈ e.chunks, (p.store r).state c = .loaded) ∧
    ∃ earlier m later, ms = earlier ++ m :: later ∧
      ((fresh onInject onHint).follow earlier).Takes r m e ∧
      ∀ c ∈ e.chunks, ∀ n, (c, n) ∈ p.started r →
        (p.outcome (.attempt r c n) = none ↔
          (c, n) ∈ ((fresh onInject onHint).follow earlier).captured r) := by
  have h : p.Reachable := run ▸ (Reachable.fresh onInject onHint).follow ms
  have loaded := loaded_of_enter run waits agenda
  obtain ⟨earlier, m, later, moves, takes, held⟩ := captured_of_enter run waits agenda
  refine ⟨loaded, earlier, m, later, moves, takes, fun c member n started => ?_⟩
  rw [← held]
  exact h.open_of_enter agenda (loaded c member) started

/-- A runtime whose extension looks for entries to run, with an entry that waits for a chunk; the
chunk is asked for and delivered. -/
def hasty : List Move :=
  List.flatMap (fun x => .call x.1 false :: List.replicate x.2 .task)
    [(.create "main" (.ok .standard) (some (.tap "hasty" false [.runSatisfied "main"])), 2),
      (.install "main" "chunks", 2), (.startup "main" (.ok [⟨.number 5, [.number 7]⟩]), 2),
      (.ensure "main" (.number 7) none, 4), (.push "chunks" ⟨[.number 7], [], [], []⟩, 4)]

/-- The entry runs while the attempt of its chunk is open. -/
theorem entered_early :
    ((fresh [] []).follow hasty).agenda.head? = some (.enter 0 ⟨.number 5, [.number 7]⟩) ∧
    ((fresh [] []).follow hasty).started 0 = [(.number 7, 1)] ∧
    ((fresh [] []).follow hasty).outcome (.attempt 0 (.number 7) 1) = none :=
  ⟨rfl, rfl, rfl⟩

/-- The entry was taken while a merge held the attempt. -/
theorem taken_early : ∃ earlier m later, hasty = earlier ++ m :: later ∧
    ((fresh [] []).follow earlier).Takes 0 m ⟨.number 5, [.number 7]⟩ ∧
    (.number 7, 1) ∈ ((fresh [] []).follow earlier).captured 0 := by
  have run : (fresh [] []).follow hasty = (fresh [] []).follow hasty := rfl
  have waits : (((fresh [] []).follow hasty).runtime 0).worklist.isSome := rfl
  have agenda : ((fresh [] []).follow hasty).agenda = .enter 0 ⟨.number 5, [.number 7]⟩ ::
      ((fresh [] []).follow hasty).agenda.tail := rfl
  have started : ((fresh [] []).follow hasty).started 0 = [(.number 7, 1)] := rfl
  have pending : ((fresh [] []).follow hasty).outcome (.attempt 0 (.number 7) 1) = none := rfl
  obtain ⟨-, earlier, m, later, moves, takes, held⟩ := entry_attempts run waits agenda
  refine ⟨earlier, m, later, moves, takes, (held (.number 7) (by simp) 1 ?_).mp pending⟩
  rw [started]
  exact List.mem_cons_self

end Page

end ChunkLoading
