import ChunkLoading.Proofs.Bystanders
import ChunkLoading.Proofs.Joins
import ChunkLoading.Proofs.Resources
import ChunkLoading.Proofs.Settlement

/-!
# What is done for an import

The modules that run for an import, the failures that are reported for it and its end are read off the log at
the moves that work for it (`Page.deeds`); what the handlers contributed to its chunks is read off the moves
that hand it over (`Page.contributions`). For each task of an import there is one lemma: what it leaves on the
agenda, what it makes of the import's future, and what it writes to the log.
-/

namespace ChunkLoading

/-- Whether an event tells of a module that runs, of a failure that is reported, or of a future that ends. -/
def Event.isDeed : Event → Bool
  | .executed .. | .reported .. | .settled .. => true
  | _ => false

/-- An import: its future with its name, and what it was asked for. -/
structure Import where
  future : FutureId
  name : String
  runtime : RuntimeId
  chunks : List ChunkId
  module : ModuleId

/-- The chunks that an import has asked for, each with what it waits for. -/
abbrev Contributions := List (ChunkId × List Awaited)

namespace Page

/-- Whether a move does something for an import: the task at hand serves it, or is the factory that is run
right before it ends. -/
def worksFor (f : FutureId) (p : Page) : Move → Bool
  | .call .. | .poll .. => false
  | .task =>
    match p.agenda with
    | .execute .. :: .settle f' .. :: _ => f' = f
    | t :: _ => t.serves f
    | [] => false

/-- The modules that a move runs for an import, the failures that it reports for it, and the end that it makes
of it. -/
def deeds (f : FutureId) (p : Page) (m : Move) : List Event :=
  if p.worksFor f m then ((p.make m).since p.log.length).filter Event.isDeed else []

/-- The chunk for which an import has asked all handlers, with what they contributed. -/
def contributions (f : FutureId) (p : Page) : Move → Contributions
  | .call .. | .poll .. => []
  | .task =>
    match p.agenda with
    | .gather _ c [] got (.importing f' ..) :: _ => if f' = f then [(c, got)] else []
    | _ => []

variable {p q : Page} {f : FutureId} {r : RuntimeId} {c : ChunkId}

theorem since_eq {es : List Event} (log : q.log = es.reverse ++ p.log) :
    q.since p.log.length = es := by
  simp [since, log]

theorem deeds_of_log {m : Move} (es : List Event) (log : (p.make m).log = es.reverse ++ p.log)
    (works : p.worksFor f m) : p.deeds f m = es.filter Event.isDeed := by
  rw [deeds, if_pos works, since_eq log]

theorem deeds_of_silent {m : Move} (log : (p.make m).log = p.log) : p.deeds f m = [] := by
  unfold deeds
  split
  · have none : (p.make m).since p.log.length = [] := since_eq log
    rw [none]
    rfl
  · rfl

theorem deeds_of_not_works {m : Move} (idle : p.worksFor f m = false) : p.deeds f m = [] := by
  rw [deeds, if_neg (by simp [idle])]

/-- A task that does not serve an import does nothing for it, unless it is a factory right above the end of
the import. -/
theorem worksFor_of_apart {t : Task} {rest : List Task} (agenda : p.agenda = t :: rest)
    (apart : t.serves f = false) (above : t.runs = false ∨ ∀ u ∈ rest.head?, u.serves f = false) :
    p.worksFor f .task = false := by
  simp only [worksFor, agenda]
  split
  · rename_i r g f' r' result later split
    obtain ⟨rfl, rfl⟩ := List.cons.inj split
    rcases above with still | apart
    · cases still
    · exact apart _ rfl
  · rename_i t' later none split
    obtain ⟨rfl, rfl⟩ := List.cons.inj split
    exact apart
  · rfl

theorem worksFor_of_serves {t : Task} {rest : List Task} (agenda : p.agenda = t :: rest)
    (serves : t.serves f) : p.worksFor f .task := by
  simp only [worksFor, agenda]
  split
  · rename_i split
    obtain ⟨rfl, rfl⟩ := List.cons.inj split
    cases serves
  · rename_i split
    obtain ⟨rfl, rfl⟩ := List.cons.inj split
    exact serves
  · rename_i split
    cases split

theorem contributions_of_apart {t : Task} {rest : List Task} (agenda : p.agenda = t :: rest)
    (apart : t.serves f = false) : p.contributions f .task = [] := by
  simp only [contributions, agenda]
  split
  · rename_i split
    obtain ⟨rfl, rfl⟩ := List.cons.inj split
    have other : decide _ = false := apart
    exact if_neg (of_decide_eq_false other)
  · rfl

/-! ## What the contributions to a chunk cover -/

/-- What was contributed to a chunk: attempts that were started, among other things. It covers the script
handlers, but for handlers that are still to be asked: something has failed, the chunk is loaded, an attempt
to load it is among the contributions, or no script handler was to be asked for it. -/
structure Covered (p : Page) (r : RuntimeId) (c : ChunkId) (handlers : List Handler) (got : List Awaited) :
    Prop where
  started : ∀ r' c' n, .attempt r' c' n ∈ got → (c', n) ∈ p.started r'
  covers : (∃ e, .ready (.failed e) ∈ got) ∨ (p.store r).state c = .loaded ∨ (∃ n, .attempt r c n ∈ got) ∨
    ∀ only, .script only ∈ (p.runtime r).handlers → Handler.serves only c → .script only ∈ handlers

variable {handlers : List Handler} {got : List Awaited}

theorem Reachable.handlers_make (h : p.Reachable) (inRange : r < p.runtimes.length) (m : Move) :
    ((p.make m).runtime r).handlers = (p.runtime r).handlers := by
  obtain ⟨new, settings⟩ := h.settings_follow [m]
  have kept : (p.make m).demand.settings[r]? = some (p.runtime r).settings := by
    rw [show (p.make m).demand.settings = _ from settings]
    exact settings_append (settings_get inRange) new
  have still : r < (p.make m).runtimes.length := Nat.lt_of_lt_of_le inRange (h.turn m).count
  rw [settings_get still] at kept
  exact congrArg Settings.handlers (Option.some.inj kept)

theorem Covered.make (covered : p.Covered r c handlers got) (h : p.Reachable)
    (inRange : r < p.runtimes.length) (m : Move) : (p.make m).Covered r c handlers got := by
  refine ⟨fun r' c' n among => h.started_make (covered.started r' c' n among) m, ?_⟩
  rcases covered.covers with failed | loaded | waiting | asked
  · exact .inl failed
  · exact .inr (.inl (h.loaded_follow loaded [m]))
  · exact .inr (.inr (.inl waiting))
  · refine .inr (.inr (.inr ?_))
    rw [h.handlers_make inRange]
    exact asked

/-- A runtime that begins to ask its handlers asks them all. -/
theorem covered_all (p : Page) (r : RuntimeId) (c : ChunkId) : p.Covered r c (p.runtime r).handlers [] :=
  ⟨nofun, .inr (.inr (.inr fun _ member _ => member))⟩

/-- A script handler that serves a chunk contributes an attempt to load it, unless the chunk is loaded. -/
theorem Reachable.script_gives (h : p.Reachable) {only : Option (List ChunkId)}
    (serves : Handler.serves only c) :
    (p.store r).state c = .loaded ∨ ∃ n, .attempt r c n ∈ p.gives r c (.script only) := by
  have unfailed := h.sound.unfailed r c
  simp only [gives, if_pos serves]
  rw [Store.beginLoad_eq unfailed]
  cases state : (p.store r).state c with
  | failed => exact absurd state unfailed
  | loaded => exact .inl rfl
  | loading n => exact .inr ⟨n, List.mem_singleton_self _⟩
  | notRequested => exact .inr ⟨_, List.mem_singleton_self _⟩
  | hintOnly => exact .inr ⟨_, List.mem_singleton_self _⟩

/-- Handlers contribute attempts that were started before, or that they start. -/
theorem Reachable.started_gives (h : p.Reachable) {handler : Handler} {rest : List Handler}
    {caller : Caller} {ts : List Task}
    (agenda : p.agenda = .gather r c (handler :: rest) got caller :: ts) {r' : RuntimeId} {c' : ChunkId}
    {n : Attempt} (given : .attempt r' c' n ∈ p.gives r c handler) :
    (c', n) ∈ (p.make .task).started r' := by
  have unfailed := h.sound.unfailed r c
  cases handler with
  | script only =>
    simp only [gives] at given
    split at given
    · rename_i serves
      rw [Store.beginLoad_eq unfailed] at given
      have starts (state : (p.store r).state c = .notRequested ∨ (p.store r).state c = .hintOnly) :
          (c, (p.store r).attempts + 1) ∈ (p.make .task).started r := by
        -- The attempt starts with a request, which is in the log after the move.
        have made : p.make .task = p.rest.gatherFrom r c (.script only) rest got caller :=
          make_task agenda
        have injected : .injected p.requests.length (p.request r c ((p.store r).attempts + 1)) ∈
            (p.make .task).log := by
          have same : p.rest.store r = p.store r := rfl
          rw [made, gatherFrom_script (same ▸ unfailed) serves, same]
          rcases state with state | state <;> simp only [state] <;> exact List.mem_cons_self
        exact List.mem_filterMap.mpr
          ⟨_, List.mem_reverse.mpr injected, by simp [Event.started?, request]⟩
      -- A chunk under way gives the attempt that it is under way by, an idle one a new attempt.
      cases state : (p.store r).state c with
      | failed => exact absurd state unfailed
      | loaded =>
        rw [state] at given
        cases List.mem_singleton.mp given
      | loading n' =>
        rw [state] at given
        cases List.mem_singleton.mp given
        have ledger := h.balanced r
        rw [ledger_core] at ledger
        exact h.started_make (ledger.loading c n state) .task
      | notRequested =>
        rw [state] at given
        cases List.mem_singleton.mp given
        exact starts (.inl state)
      | hintOnly =>
        rw [state] at given
        cases List.mem_singleton.mp given
        exact starts (.inr state)
    · cases given
  | noop => cases List.mem_singleton.mp given
  | preload children => cases given
  | custom name only answer =>
    simp only [gives] at given
    split at given
    · cases answer <;> cases List.mem_singleton.mp given
    · cases given

/-- A handler that is asked is covered by what it contributes. -/
theorem Covered.asked (h : p.Reachable) {handler : Handler} {rest : List Handler} {caller : Caller}
    {ts : List Task} (agenda : p.agenda = .gather r c (handler :: rest) got caller :: ts)
    (covered : p.Covered r c (handler :: rest) got) :
    (p.make .task).Covered r c rest (got ++ p.gives r c handler) := by
  have inRange : r < p.runtimes.length :=
    h.sound.inRange r (alive_of_task (agenda ▸ List.mem_cons_self) (by simp [Task.uses]))
  have later := covered.make h inRange .task
  constructor
  · -- Attempts that are waited for were started, the new one by this move.
    intro r' c' n among
    rcases List.mem_append.mp among with among | given
    · exact later.started r' c' n among
    · exact h.started_gives agenda given
  · rcases later.covers with ⟨e, failed⟩ | loaded | ⟨n, waiting⟩ | asked
    · exact .inl ⟨e, List.mem_append_left _ failed⟩
    · exact .inr (.inl loaded)
    · exact .inr (.inr (.inl ⟨n, List.mem_append_left _ waiting⟩))
    · -- Only a script handler that serves the chunk was owed an attempt.
      by_cases script : ∃ only, handler = .script only ∧ Handler.serves only c
      · obtain ⟨only, rfl, serves⟩ := script
        rcases h.script_gives (r := r) serves with loaded | ⟨n, given⟩
        · exact .inr (.inl (h.loaded_follow loaded [.task]))
        · exact .inr (.inr (.inl ⟨n, List.mem_append_right _ given⟩))
      · refine .inr (.inr (.inr fun only handled serves => ?_))
        rcases List.mem_cons.mp (asked only handled serves) with same | later
        · exact absurd ⟨only, same.symm, serves⟩ script
        · exact later

/-- What ended well and covers the script handlers has loaded the chunk. -/
theorem Covered.loaded (covered : p.Covered r c [] got) (h : p.Reachable)
    (joined : p.joined got = some .ok) {only : Option (List ChunkId)}
    (handled : .script only ∈ (p.runtime r).handlers) (serves : Handler.serves only c) :
    (p.store r).state c = .loaded := by
  have ok {a : Awaited} (member : a ∈ got) : p.outcome a = some .ok :=
    Join.all_eq_ok.mp joined _ (List.mem_map_of_mem member)
  rcases covered.covers with ⟨e, failed⟩ | loaded | ⟨n, waiting⟩ | asked
  · cases ok failed
  · exact loaded
  · rcases outcome_eq_some.mp (ok waiting) with ended | ⟨-, -, abandoned⟩
    · have ledger := h.balanced r
      rw [ledger_core] at ledger ended
      exact ledger.ok (c, n) (covered.started r c n waiting) ended
    · cases abandoned
  · cases asked only handled serves

theorem Reachable.inRange_follow (h : p.Reachable) (inRange : r < p.runtimes.length) (ms : List Move) :
    r < (p.follow ms).runtimes.length := by
  induction ms generalizing p with
  | nil => exact inRange
  | cons m ms ih => exact ih (.make m h) (Nat.lt_of_lt_of_le inRange (h.turn m).count)

/-! ## The tasks of an import -/

variable {base : List Task} {rest : List ChunkId} {loads : List (List Awaited)} {module : ModuleId}
  {settledAny : Bool} {future : Future}

/-- An import asks its runtime for the next chunk. -/
theorem make_load_cons (agenda : p.agenda = .load f r (c :: rest) loads module :: base) :
    ∃ handlers got, (p.make .task).agenda =
        .gather r c handlers got (.importing f rest loads module) :: base ∧
      (p.make .task).futures = p.futures ∧ (p.make .task).log = p.log ∧
      (p.make .task).Covered r c handlers got := by
  have made : p.make .task = p.rest.ask r c (.importing f rest loads module) := make_task agenda
  have below : p.rest.agenda = base := agenda_rest agenda
  rw [made]
  simp only [ask]
  split
  · exact ⟨_, [], congrArg (_ :: ·) below, rfl, rfl, covered_all _ r c⟩
  · refine ⟨[], _, congrArg (_ :: ·) below, rfl, rfl, ?_, .inl ⟨_, List.mem_singleton_self _⟩⟩
    intro r' c' n among
    cases List.mem_singleton.mp among

/-- An import gets what was contributed to a chunk. -/
theorem make_gather_nil (agenda : p.agenda = .gather r c [] got (.importing f rest loads module) :: base) :
    (p.make .task).agenda = .load f r rest (loads ++ [got]) module :: base ∧
    (p.make .task).futures = p.futures ∧ (p.make .task).log = p.log := by
  have made : p.make .task = p.rest.gathered r got (.importing f rest loads module) := make_task agenda
  have below : p.rest.agenda = base := agenda_rest agenda
  rw [made]
  exact ⟨congrArg (_ :: ·) below, rfl, rfl⟩

theorem log_gatherFrom (p : Page) (r : RuntimeId) (c : ChunkId) (h : Handler) (rest : List Handler)
    (got : List Awaited) (caller : Caller) : ∃ es : List Event, es.filter Event.isDeed = [] ∧
      (p.gatherFrom r c h rest got caller).log = es.reverse ++ p.log := by
  cases h with
  | script only =>
    simp only [gatherFrom]
    split
    · split
      · exact ⟨[], rfl, rfl⟩
      · exact ⟨[], rfl, rfl⟩
      · exact ⟨[.injected _ _], rfl, rfl⟩
    · exact ⟨[], rfl, rfl⟩
  | noop => exact ⟨[], rfl, rfl⟩
  | preload children => exact ⟨[], rfl, rfl⟩
  | custom name only answer =>
    simp only [gatherFrom]
    split
    · split
      · exact ⟨[.asked name c true], rfl, rfl⟩
      · split
        · exact ⟨[.asked name c true], rfl, rfl⟩
        · exact ⟨[.asked name c true], rfl, rfl⟩
    · exact ⟨[.asked name c false], rfl, rfl⟩

/-- The next handler is asked for a chunk of an import. -/
theorem make_gather_cons {handler : Handler} {handlers : List Handler} {caller : Caller}
    (agenda : p.agenda = .gather r c (handler :: handlers) got caller :: base) :
    (∃ ts, Foreign f false ts ∧ (p.make .task).agenda =
      ts ++ .gather r c handlers (got ++ p.gives r c handler) caller :: base) ∧
    (f < p.futures.length → (p.make .task).futures[f]? = p.futures[f]?) ∧
    ∃ es : List Event, es.filter Event.isDeed = [] ∧ (p.make .task).log = es.reverse ++ p.log := by
  have made : p.make .task = p.rest.gatherFrom r c handler handlers got caller := make_task agenda
  have below : p.rest.agenda = base := agenda_rest agenda
  have spares : Spares f false _ (p.rest.gatherFrom r c handler handlers got caller) := .gatherFrom ..
  have same : p.rest.gives r c handler = p.gives r c handler := rfl
  obtain ⟨ts, foreign, pushed⟩ := spares.agenda
  rw [made]
  refine ⟨⟨ts, foreign, ?_⟩, spares.future, log_gatherFrom ..⟩
  rw [pushed, same, ← below]
  rfl

/-- A pass begins to poll an import: it asks for its chunks at first, and looks what it waits for later. -/
theorem pass_eq (there : p.futures[f]? = some future) (idle : future.polling = false)
    (begins : future.progress = .unstarted r rest module ∧ loads = [] ∨
      rest = [] ∧ future.progress = .importing r loads module) :
    p.pass f settledAny = p.pollImport f settledAny (.load f r rest loads module) := by
  simp only [pass, there, idle]
  rcases begins with ⟨progress, rfl⟩ | ⟨rfl, progress⟩ <;> simp [progress]

theorem make_pass (agenda : p.agenda = .pass f settledAny :: base) (there : p.futures[f]? = some future)
    (idle : future.polling = false)
    (begins : future.progress = .unstarted r rest module ∧ loads = [] ∨
      rest = [] ∧ future.progress = .importing r loads module) :
    (p.make .task).agenda = .load f r rest loads module :: .polled f settledAny :: base ∧
    (p.make .task).futures[f]? = some { future with polling := true } ∧
    (p.make .task).log = p.log := by
  have made : p.make .task = p.rest.pass f settledAny := make_task agenda
  have below : p.rest.agenda = base := agenda_rest agenda
  have kept : p.rest.futures[f]? = some future := there
  rw [made, pass_eq kept idle begins]
  refine ⟨by rw [← below]; rfl, ?_, rfl⟩
  simp [pollImport, call, modifyFuture, kept]

/-- The poll of an import ends. -/
theorem make_polled (agenda : p.agenda = .polled f settledAny :: base)
    (there : p.futures[f]? = some future) :
    (∃ settledAny', (p.make .task).agenda = .pass (f + 1) settledAny' :: base) ∧
    (p.make .task).futures[f]? = some { future with polling := false } ∧
    (p.make .task).log = p.log := by
  have made : p.make .task = p.rest.polled f settledAny := make_task agenda
  have below : p.rest.agenda = base := agenda_rest agenda
  have kept : p.rest.futures[f]? = some future := there
  rw [made]
  refine ⟨⟨_, congrArg (_ :: ·) below⟩, ?_, rfl⟩
  simp [polled, call, modifyFuture, kept]

theorem settleFuture_eq (there : p.futures[f]? = some future) (result : LoadResult) :
    (p.settleFuture f result).agenda = p.agenda ∧
    (p.settleFuture f result).futures[f]? = some { future with progress := .settled result } ∧
    (p.settleFuture f result).log = .settled future.name result :: p.log := by
  simp [settleFuture, there, modifyFuture, note]

/-- An import settles. -/
theorem make_settle {result : LoadResult} (agenda : p.agenda = .settle f r result :: base)
    (there : p.futures[f]? = some future) :
    (p.make .task).agenda = base ∧
    (p.make .task).futures[f]? = some { future with progress := .settled result } ∧
    (p.make .task).log = .settled future.name result :: p.log := by
  have made : p.make .task = p.rest.settleFuture f result := make_task agenda
  have below : p.rest.agenda = base := agenda_rest agenda
  have settled := settleFuture_eq (p := p.rest) there result
  rw [below] at settled
  rw [made]
  exact settled

/-- The module of an import runs. -/
theorem make_execute {g : FactoryId} {factory : Factory} (agenda : p.agenda = .execute r g :: base)
    (made : p.factories[g]? = some factory) :
    (∃ script : Script, (p.make .task).agenda = script.map (.perform · true) ++ base) ∧
    (p.make .task).futures = p.futures ∧
    (p.make .task).log = .executed r (p.nameOf? r) g factory.module factory.key :: p.log := by
  have done : p.make .task = p.rest.execute r g := make_task agenda
  have below : p.rest.agenda = base := agenda_rest agenda
  have found : p.rest.factories[g]? = some factory := made
  rw [done]
  simp only [execute, found]
  exact ⟨⟨factory.script, congrArg (_ ++ ·) below⟩, rfl, rfl⟩

/-! ## Looking at what an import waits for -/

theorem alive_of_alive_rest (alive : p.rest.alive r) : p.alive r := by
  rcases alive_iff.mp alive with named | queued | imported | ⟨t, member, uses⟩
  · exact alive_iff.mpr (.inl named)
  · exact alive_iff.mpr (.inr (.inl queued))
  · exact alive_iff.mpr (.inr (.inr (.inl imported)))
  · exact alive_of_task (List.mem_of_mem_tail member) uses

/-- A page refers to all runtimes that another one refers to, if it has the same names and queues and makes
up for the futures and tasks that it has not. -/
theorem alive_of_kept (names : q.names = p.names) (queues : q.queues = p.queues)
    (futures : ∀ (g : FutureId) (future : Future), p.futures[g]? = some future →
      future.progress.holds r → q.alive r)
    (tasks : ∀ t ∈ p.agenda, t.uses r → q.alive r) (alive : p.alive r) : q.alive r := by
  rcases alive_iff.mp alive with named | queued | ⟨future, member, holds⟩ | ⟨t, member, uses⟩
  · exact alive_iff.mpr (.inl (names ▸ named))
  · exact alive_iff.mpr (.inr (.inl (queues ▸ queued)))
  · obtain ⟨g, found⟩ := List.mem_iff_getElem?.mp member
    exact futures g future found holds
  · exact tasks t member uses

theorem runtime_congr (runtimes : q.runtimes = p.runtimes) : q.runtime = p.runtime := by
  funext r
  rw [runtime, runtimes, runtime]

/-- Loads stand alike on pages that refer to the same runtimes. -/
theorem joined_congr (alive : ∀ r, q.alive r = p.alive r) (runtimes : q.runtimes = p.runtimes)
    (manual : q.manual = p.manual) : q.joined = p.joined := by
  have same := runtime_congr runtimes
  funext parts
  refine congrArg Join.all (List.map_congr_left fun a _ => ?_)
  cases a with
  | ready result => rfl
  | manual handler c => simp only [outcome, manual]
  | attempt r c n => exact outcome_congr (alive r) (by rw [same])

/-- While it looks, an import keeps alive what its task kept alive before. -/
theorem alive_looking (agenda : p.agenda = .load f r [] loads module :: base)
    (there : p.futures[f]? = some future) (held : ∀ r', future.progress.holds r' → r' = r)
    (r' : RuntimeId) :
    (p.rest.modifyFuture f ({ · with progress := .importing r loads module })).alive r' = p.alive r' := by
  have below : p.rest.agenda = base := agenda_rest agenda
  rw [Bool.eq_iff_iff]
  constructor
  · intro alive
    rcases alive_of_alive_modifyFuture alive with before | ⟨future', -, holds⟩
    · exact alive_of_alive_rest before
    · obtain rfl : r = r' := by simpa [Progress.holds] using holds
      exact alive_of_task (agenda ▸ List.mem_cons_self) (by simp [Task.uses])
  · intro alive
    let looking := p.rest.modifyFuture f ({ · with progress := .importing r loads module })
    -- The import itself keeps its runtime alive.
    have own : looking.alive r := by
      have changed : looking.futures[f]? = some { future with progress := .importing r loads module } := by
        have kept : p.rest.futures[f]? = some future := there
        simp [looking, modifyFuture, kept]
      exact alive_of_future (List.mem_of_getElem? changed) (by simp [Progress.holds])
    refine alive_of_kept (p := p) rfl rfl (fun g future' found holds => ?_) (fun t member uses => ?_) alive
    · by_cases same : f = g
      · subst same
        obtain rfl := Option.some.inj (there.symm.trans found)
        rw [held r' holds]
        exact own
      · have kept : looking.futures[g]? = some future' := by
          have found : p.rest.futures[g]? = some future' := found
          simp [looking, modifyFuture, same, found]
        exact alive_of_future (List.mem_of_getElem? kept) holds
    · rw [agenda] at member
      rcases List.mem_cons.mp member with rfl | member
      · have same : r = r' := by simpa [Task.uses] using uses
        rw [← same]
        exact own
      · exact alive_of_task (p := looking) (below ▸ member) uses

/-- So it sees all loads as they stood before. -/
theorem joined_looking (agenda : p.agenda = .load f r [] loads module :: base)
    (there : p.futures[f]? = some future) (held : ∀ r', future.progress.holds r' → r' = r) :
    (p.rest.modifyFuture f ({ · with progress := .importing r loads module })).joined = p.joined :=
  joined_congr (alive_looking agenda there held) rfl rfl

/-- What an import comes to when it looks at what it waits for: it goes on waiting, it is about to run its
module, or it fails. -/
theorem make_load_nil (agenda : p.agenda = .load f r [] loads module :: base)
    (there : p.futures[f]? = some future) (held : ∀ r', future.progress.holds r' → r' = r) :
    Join.all (loads.map p.joined) = none ∧ (p.make .task).agenda = base ∧
      (p.make .task).futures[f]? = some { future with progress := .importing r loads module } ∧
      (p.make .task).log = p.log ∨
    (∃ g, Join.all (loads.map p.joined) = some .ok ∧ (p.store r).factory? module = some g ∧
      (p.make .task).agenda = .execute r g :: .settle f r .ok :: base ∧
      (p.make .task).futures[f]? = some { future with progress := .importing r loads module } ∧
      (p.make .task).log = p.log) ∨
    ∃ e, (Join.all (loads.map p.joined) = some (.failed e) ∨
        Join.all (loads.map p.joined) = some .ok ∧ (p.store r).factory? module = none ∧
          e = .violation (.noFactory module)) ∧
      (p.make .task).agenda = base ∧
      (p.make .task).futures[f]? = some { future with progress := .settled (.failed e) } ∧
      (p.make .task).log =
        .settled future.name (.failed e) :: .reported r (p.runtime r).sink e :: p.log := by
  let looking := p.rest.modifyFuture f ({ · with progress := .importing r loads module })
  have below : looking.agenda = base := by simp [looking, modifyFuture, Page.rest, agenda]
  have changed : looking.futures[f]? = some { future with progress := .importing r loads module } := by
    have kept : p.rest.futures[f]? = some future := there
    simp [looking, modifyFuture, kept]
  -- A failure is reported to the sink, and then settles the import.
  have fails (e : LoadError) : ((looking.report r e).settleFuture f (.failed e)).agenda = base ∧
      ((looking.report r e).settleFuture f (.failed e)).futures[f]? =
        some { future with progress := .settled (.failed e) } ∧
      ((looking.report r e).settleFuture f (.failed e)).log =
        .settled future.name (.failed e) :: .reported r (p.runtime r).sink e :: p.log := by
    have settled := settleFuture_eq (p := looking.report r e) changed (.failed e)
    exact ⟨settled.1.trans below, settled.2.1, settled.2.2⟩
  have made : p.make .task = p.rest.load f r [] loads module := make_task agenda
  simp only [load] at made
  rw [joined_looking agenda there held] at made
  rw [made]
  cases joined : Join.all (loads.map p.joined) with
  | none => exact .inl ⟨rfl, below, changed, rfl⟩
  | some result =>
    have same : looking.store r = p.store r := rfl
    cases result with
    | failed e => exact .inr (.inr ⟨e, .inl rfl, fails e⟩)
    | ok =>
      cases factory : (looking.store r).factory? module with
      | none =>
        -- All is loaded, but no delivery has brought the module.
        refine .inr (.inr ⟨.violation (.noFactory module), .inr ⟨rfl, factory, rfl⟩, ?_⟩)
        simp only [looking] at factory
        simp only [endImport, factory]
        exact fails _
      | some g =>
        refine .inr (.inl ⟨g, rfl, factory, ?_⟩)
        simp only [looking] at factory
        simp only [endImport, factory]
        exact ⟨congrArg (Task.execute r g :: .settle f r .ok :: ·) below, changed, rfl⟩

end Page

end ChunkLoading
