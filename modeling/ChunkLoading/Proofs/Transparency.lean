import ChunkLoading.Proofs.Observation
import ChunkLoading.Proofs.PlainCommands

/-!
# Extensions are transparent

A run with extensions is accompanied by the same run without them: `bareMoves` tells the moves of the second
run that go with a move of the first one. Both pages are the same apart from extensions and answers at every
move (`plain_make`), and so along the runs (`plain_follow`). How often an extension is shown a delivery is
counted over its chain (`Watch.Shows.count`). Both together are `extensions_transparent`.
-/

namespace ChunkLoading

/-! ## Counting showings -/

namespace Watch

variable {w : Watch}

/-- An extension is told of a showing once if it is in the chain that the showing goes along. -/
theorem count_spread (w : Watch) (s : ExtensionId × Delivery) (y : ExtensionId) (d : Delivery) :
    (w.spread s).count (y, d) = if s.2 = d ∧ y ∈ w.chain s.1 then 1 else 0 := by
  have once : (w.spread s).Nodup := (w.nodup_chain s.1).map fun y z same => (Prod.mk.inj same).1
  rw [once.count]
  refine if_congr ?_ rfl rfl
  simp [Watch.spread, and_comm, eq_comm]

theorem count_spreads (w : Watch) (noticed : List Notice) (y : ExtensionId) (d : Delivery) :
    (noticed.flatMap fun n => w.spread (n.extension, n.delivery)).count (y, d) =
      noticed.countP fun n => n.delivery = d ∧ y ∈ w.chain n.extension := by
  induction noticed with
  | nil => rfl
  | cons n noticed ih =>
    rw [List.flatMap_cons, List.count_append, ih, count_spread, List.countP_cons, Nat.add_comm]
    simp

/-- An extension is shown a delivery once for each showing of it that was called for in its chain. -/
theorem Shows.count {shown : List (ExtensionId × Delivery)} {noticed : List Notice}
    (shows : w.Shows shown noticed) (y : ExtensionId) (d : Delivery) :
    shown.count (y, d) + (w.coming.flatMap w.spread).count (y, d) =
      noticed.countP fun n => n.delivery = d ∧ y ∈ w.chain n.extension := by
  rw [← List.count_append, shows.perm.count_eq, count_spreads]

end Watch

/-- Showings are the only tasks that can go. -/
theorem Task.exists_plain (t : Task) : ∃ t', t.plain? false = some t' := by
  cases t <;> exact ⟨_, rfl⟩

namespace Page

variable {p q : Page} {bare : Bool}

/-! ## Moves -/

/-- Whether the command at hand, if there is one, is unobtrusive. -/
def isUnobtrusive (p : Page) : Move → Bool
  | .task =>
    match p.agenda with
    | .perform command _ :: _ => p.rest.unobtrusive command
    | _ => true
  | .call .. | .poll .. => true

/-- The moves of the same run without extensions. A showing is left out: what the tap calls back then is called
without it, and a tap that only observes calls nothing back. -/
def bareMoves (p : Page) : Move → List Move
  | .task =>
    match p.agenda with
    | .observe x _ :: _ => (Script.plain true (p.tapScript x)).reverse.map (.call · true)
    | _ => [.task]
  | .call command nested => [.call command.unwatched nested]
  | .poll next => [.poll next]

/-- A script that is called back is called command by command, the last one first. -/
theorem follow_calls (p : Page) (s : Script) : p.follow (s.reverse.map (.call · true)) = p.callScript s := by
  induction s with
  | nil => rfl
  | cons c s ih =>
    rw [List.reverse_cons, List.map_append, follow_append, ih]
    rfl

theorem agenda_plain {t t' : Task} {ts : List Task} (agenda : p.agenda = t :: ts)
    (stays : t.plain? bare = some t') :
    (p.plain bare).agenda = t' :: ts.filterMap (Task.plain? bare) := by
  rw [plain_agenda, agenda, List.filterMap_cons_some stays]

theorem plain_rest {t t' : Task} {ts : List Task} (agenda : p.agenda = t :: ts)
    (stays : t.plain? bare = some t') : p.rest.plain bare = (p.plain bare).rest := by
  unfold rest
  rw [agenda_plain agenda stays, agenda]
  rfl

/-- Where nothing is left to do with extensions, nothing is left to do without them. -/
theorem agenda_eq_nil (same : q.plain false = p.plain true) (idle : p.agenda = []) : q.agenda = [] := by
  have none : q.agenda.filterMap (Task.plain? false) = [] := by
    rw [← plain_agenda, same, plain_agenda, idle]
    rfl
  refine List.eq_nil_iff_forall_not_mem.mpr fun t member => ?_
  obtain ⟨t', stays⟩ := t.exists_plain
  have gone := List.filterMap_eq_nil_iff.mp none t member
  rw [stays] at gone
  cases gone

/-- A task at hand that stays is done on both pages. -/
theorem plain_step (same : q.plain false = p.plain true) {t t' : Task} {ts : List Task}
    (agenda : p.agenda = t :: ts) (stays : t.plain? true = some t')
    (quiet : ∀ command nested, t = .perform command nested → p.rest.unobtrusive command) :
    (q.make .task).plain false = (p.make .task).plain true := by
  cases agenda' : q.agenda with
  | nil =>
    have none : (q.plain false).agenda = [] := by
      rw [plain_agenda, agenda']
      rfl
    rw [same, agenda_plain agenda stays] at none
    cases none
  | cons u us =>
    -- The tasks at hand are the same, perhaps with other answers and extensions.
    obtain ⟨u', stays'⟩ := u.exists_plain
    have hand : u' = t' := by
      have agendas := congrArg Page.agenda same
      rw [agenda_plain agenda stays, agenda_plain agenda' stays'] at agendas
      exact (List.cons.inj agendas).1
    calc (q.make .task).plain false
      _ = (q.rest.act u).plain false := by rw [make_task agenda']
      _ = ((q.rest.plain false).act u').plain false := plain_act stays' (by simp)
      _ = ((p.rest.plain true).act t').plain false := by
        rw [hand, plain_rest agenda' stays', plain_rest agenda stays, same]
      _ = (p.rest.act t).plain true := (plain_act stays fun _ => quiet).symm
      _ = (p.make .task).plain true := by rw [make_task agenda]

/-- **One move keeps the pages the same apart from extensions.** -/
theorem plain_make (same : q.plain false = p.plain true) {m : Move} (unobtrusive : p.isUnobtrusive m) :
    (q.follow (p.bareMoves m)).plain false = (p.make m).plain true := by
  cases m with
  | call command nested =>
    -- The second page is called without the extension that the command would set.
    show (q.call [_]).plain false = (p.call [_]).plain true
    rw [plain_call, plain_call, same]
    rfl
  | poll next =>
    show (q.call [_]).plain false = (p.call [_]).plain true
    rw [plain_call, plain_call, same]
    rfl
  | task =>
    cases agenda : p.agenda with
    | nil =>
      -- Nothing is at hand on either page.
      have idle : q.agenda = [] := agenda_eq_nil same agenda
      have moves : p.bareMoves .task = [.task] := by simp [bareMoves, agenda]
      rw [moves]
      simpa [make, step, agenda, idle] using same
    | cons t ts =>
      by_cases shows : ∃ x d, t = .observe x d
      · -- The second page has no such task, and stays as it is but for what a tap calls back.
        obtain ⟨x, d, rfl⟩ := shows
        have moves : p.bareMoves .task = (Script.plain true (p.tapScript x)).reverse.map (.call · true) := by
          simp [bareMoves, agenda]
        have left : p.rest.plain true = p.plain true := by
          rw [rest, agenda]
          simp [plain, agenda, Task.plain?]
        have shown : (p.make .task).plain true = _ := (congrArg (Page.plain true) (make_task agenda)).trans
          (bare_observe p.rest x d)
        rw [moves, follow_calls, plain_callScript, same, shown, left, Script.plain_false]
        rfl
      · -- All other tasks are at hand on both pages.
        obtain ⟨t', stays⟩ : ∃ t', t.plain? true = some t' := by
          cases t <;> first | exact ⟨_, rfl⟩ | exact absurd ⟨_, _, rfl⟩ shows
        have moves : p.bareMoves .task = [.task] := by
          cases t <;> first | (exact absurd ⟨_, _, rfl⟩ shows) | simp [bareMoves, agenda]
        rw [moves]
        refine plain_step same agenda stays ?_
        rintro command nested rfl
        simpa [isUnobtrusive, agenda] using unobtrusive

/-- **A run without extensions is the same run apart from extensions.** -/
theorem plain_follow {onInject onHint : List (ChunkId × Script)} {ms : List Move}
    (unobtrusive : (fresh onInject onHint).Always (fun p m => p.isUnobtrusive m) ms) :
    ((fresh (plainRules true onInject) (plainRules true onHint)).follow
      ((fresh onInject onHint).along bareMoves ms)).plain false =
        ((fresh onInject onHint).follow ms).plain true := by
  induction ms using List.reverseRecOn with
  | nil => simp [along, plain, fresh]
  | append_singleton ms m ih =>
    obtain ⟨before, now⟩ := always_concat.mp unobtrusive
    rw [along_concat, follow_append, follow_append]
    exact plain_make (ih before) now

/-! ## Runs -/

/-- Nothing but extensions, and what they report, tells the pages apart; the second one has none. -/
structure Coincides (p q : Page) : Prop where
  /-- The same chunks are in the same states, the same modules are there, and the same entries wait. -/
  runtimes : q.runtimes = p.runtimes.map ({ · with extension := none })
  names : q.names = p.names
  queues : q.queues = p.queues
  factories : q.factories = p.factories.map (Factory.plain true)
  keyed : q.keyed = p.keyed
  futures : q.futures = p.futures
  manual : q.manual = p.manual
  requests : q.requests = p.requests
  /-- Everything but answers and what extensions report is the same, and happened in the same order. -/
  log : q.log.filter (Event.stays false) = p.log.filter (Event.stays true)
  extensions : q.extensions = []
  bootstraps : q.bootstraps = .empty
  finished : p.agenda = [] → q.agenda = []

theorem coincides (same : q.plain false = p.plain true) : p.Coincides q where
  runtimes := (List.map_id q.runtimes).symm.trans (congrArg Page.runtimes same :)
  names := (congrArg Page.names same :)
  queues := (congrArg Page.queues same :)
  factories := by simpa [funext Factory.plain_false] using congrArg Page.factories same
  keyed := (congrArg Page.keyed same :)
  futures := (congrArg Page.futures same :)
  manual := (congrArg Page.manual same :)
  requests := (congrArg Page.requests same :)
  log := (congrArg Page.log same :)
  extensions := (congrArg Page.extensions same :)
  bootstraps := (congrArg Page.bootstraps same :)
  finished idle := agenda_eq_nil same idle

/-! ## Showings of merges -/

theorem nodup_mergings (p : Page) (m : Move) : (p.mergings m).Nodup := by
  unfold mergings
  split
  · split
    · exact .nil
    · rename_i t _ _
      cases t <;> simp [Task.merges]
  · exact .nil
  · exact .nil

theorem nodup_notices (p : Page) (m : Move) : (p.notices m).Nodup := by
  have option {α : Type} (x? : Option α) (f : α → Notice) : (x?.toList.map f).Nodup := by
    cases x? <;> simp
  unfold notices
  split
  · split
    · exact .nil
    · -- A move calls for one showing at most.
      unfold notifies
      split
      · exact option ..
      · exact option ..
      · exact .nil
  · exact .nil
  · exact .nil

/-- The merges that a runtime does while it has an extension. -/
def mergingsFor (r : RuntimeId) (x : ExtensionId) (p : Page) (m : Move) : List (RuntimeId × Delivery) :=
  if (p.runtime r).extension = some x then p.mergings m else []

/-- A runtime shows a delivery that it merges to the extension that it has then. -/
theorem count_notices (p : Page) (m : Move) (r : RuntimeId) (x : ExtensionId) (d : Delivery) :
    (p.notices m).count ⟨some r, x, d⟩ = (p.mergingsFor r x m).count (r, d) := by
  unfold mergingsFor
  split
  · rename_i installed
    rw [(p.nodup_notices m).count, (p.nodup_mergings m).count]
    refine if_congr ?_ rfl rfl
    rw [mem_notices, installed]
    simp
  · rename_i other
    rw [List.count_nil, List.count_eq_zero, mem_notices]
    exact fun noticed => other noticed.2

/-- Counted along a run, a runtime shows its extension as many deliveries as it merges. -/
theorem count_noticed (p : Page) (ms : List Move) (r : RuntimeId) (x : ExtensionId) (d : Delivery) :
    (p.noticed ms).count ⟨some r, x, d⟩ = (p.along (mergingsFor r x) ms).count (r, d) := by
  induction ms generalizing p with
  | nil => rfl
  | cons m ms ih =>
    show (p.notices m ++ (p.make m).noticed ms).count _ = (p.mergingsFor r x m ++ _).count _
    rw [List.count_append, List.count_append, ih, count_notices]

/-- The page after the same run without extensions, with a host that does not set any. -/
def bareRun (onInject onHint : List (ChunkId × Script)) (ms : List Move) : Page :=
  (fresh (plainRules true onInject) (plainRules true onHint)).follow ((fresh onInject onHint).along bareMoves ms)

variable {onInject onHint : List (ChunkId × Script)} {ms : List Move}

/-- **Extensions are transparent.** Take any run in which extensions are made, set, replaced, chained and
cleared at any moves.

* If no runtime is to have an extension that is not there, and no update that a bootstrap collected is run on a
  runtime, then the same run without extensions comes to the same page: extensions change nothing else.
* A runtime that merges a delivery shows it to the extension that it has then, and to no other.
* Whatever is shown to an extension is shown once to each extension of its chain, now or later; nothing else is
  shown. The chain is the extension, and then the chain of the one that it passes deliveries on to.
* Taps report what they are shown, in order. -/
theorem extensions_transparent (run : (fresh onInject onHint).follow ms = p) :
    ((fresh onInject onHint).Always (fun p m => p.isUnobtrusive m) ms →
      p.Coincides (bareRun onInject onHint ms)) ∧
    (∀ r x d, ((fresh onInject onHint).noticed ms).count ⟨some r, x, d⟩ =
      ((fresh onInject onHint).along (mergingsFor r x) ms).count (r, d)) ∧
    (∀ y d, ((fresh onInject onHint).shown ms).count (y, d) +
        (p.watch.coming.flatMap p.watch.spread).count (y, d) =
      ((fresh onInject onHint).noticed ms).countP fun n => n.delivery = d ∧ y ∈ p.watch.chain n.extension) ∧
    (∀ x, p.watch.chain x = x :: (p.watch.next? x).toList.flatMap p.watch.chain) ∧
    (p.log.filterMap Event.tap?).reverse =
      ((fresh onInject onHint).shown ms).filterMap fun s => p.watch.roles[s.1]?.bind (·.report? s.2) := by
  have shows := showings_follow onInject onHint ms
  have reached : p.Reachable := run ▸ (Reachable.fresh onInject onHint).follow ms
  rw [run] at shows
  refine ⟨fun unobtrusive => ?_, count_noticed _ ms, shows.count, Watch.chain_of_sound reached.watched,
    shows.tapped⟩
  rw [← run]
  exact coincides (plain_follow unobtrusive)

/-- A bootstrap in front of a tap is the extension of a runtime. While a delivery is merged, before it is shown,
it is replaced by another tap; after the next delivery that one is cleared. -/
def swapped : List Move :=
  List.flatMap (fun x => .call x.1 false :: List.replicate x.2 .task)
    [(.createBootstrap "hot" (.ok Bootstrap.fresh) (some (.tap "inner" false [])), 2),
      (.create "main" (.ok Blueprint.standard) (some (.bootstrap "hot")), 2),
      (.install "main" "chunks", 2), (.ensure "main" (.number 7) none, 4),
      (.push "chunks" ⟨[.number 7], [⟨.number 5, none, []⟩], [⟨.number 5, [.number 7]⟩], [.number 8]⟩, 2),
      (.setExtension "main" (some (.tap "outer" true [])), 10),
      (.push "chunks" ⟨[.number 8], [], [], []⟩, 6), (.setExtension "main" none, 2),
      (.push "chunks" ⟨[.number 9], [], [], []⟩, 5)]

theorem extensions_transparent_swapped :
    (fresh [] []).Always (fun p m => p.isUnobtrusive m) swapped ∧
    ((fresh [] []).follow swapped).merges.length = 3 ∧ ((fresh [] []).shown swapped).map (·.1) = [1, 0, 2] ∧
    (bareRun [] [] swapped).extensions = [] ∧
    (bareRun [] [] swapped).futures = [⟨"f0", .ensuring [.attempt 0 (.number 7) 1], false⟩] ∧
    ((bareRun [] [] swapped).store 0).hasModule (.number 5) := by
  have unobtrusive : (fresh [] []).Always (fun p m => p.isUnobtrusive m) swapped := by decide +kernel
  have same := (extensions_transparent rfl).1 unobtrusive
  exact ⟨unobtrusive, by decide +kernel, by decide +kernel, same.extensions,
    same.futures.trans (by decide +kernel), by decide +kernel⟩

end Page

end ChunkLoading
