import ChunkLoading.Proofs.Commands
import ChunkLoading.Proofs.LifeCycle

/-!
# Hints are advice

What hints do to a run is told by comparing it with the run without them. Both make the same moves, but
the second one lacks the calls and the tasks that are only about hints (`Becomes`). Then the two pages
are alike after every move, except while a hint is given that somebody asked for (`Beside`), and nothing
but hints tells them apart (`Matches`). This needs a host that does nothing when it gets a hint: what it
called then would be called in the first run only.
-/

namespace ChunkLoading

variable {w : Erasure}

/-- Whether a task answers a hint that a runtime was asked for: no other flag is given while a runtime
is in use. -/
def Task.answersHint : Task → Bool
  | .conclude (.flag _) _ (some _) => true
  | _ => false

/-- Whether a task may be only about hints: it gives one, or calls for one, or answers such a call. -/
def Task.isAside : Task → Bool
  | .hint .. | .conclude (.failed (.noRuntime _)) _ none => true
  | .perform command _ => command.isHint
  | t => t.answersHint

/-- A move without hints: a call for a hint is left out. -/
def Move.without (w : Erasure) : Move → Option Move
  | .task => some .task
  | .call command nested =>
    if w.calls && command.isHint then none else some (.call (command.without w) nested)
  | .poll next => some (.poll next)

namespace Page

variable {p q : Page}

/-- Nobody calls in while the host gets a hint that somebody asked for. -/
def HintsAlone (p : Page) : List Move → Prop
  | [] => True
  | m :: ms => (m = .task ∨ p.agenda.any Task.answersHint = false) ∧ (p.make m).HintsAlone ms

instance decidableHintsAlone (p : Page) : (ms : List Move) → Decidable (p.HintsAlone ms)
  | [] => .isTrue trivial
  | m :: ms =>
    have := decidableHintsAlone (p.make m) ms
    have : Decidable (m = .task) := match m with
      | .task => .isTrue rfl
      | .call .. => .isFalse nofun
      | .poll _ => .isFalse nofun
    inferInstanceAs (Decidable ((m = .task ∨ p.agenda.any Task.answersHint = false) ∧ _))

/-- Makes a move, if there is one. -/
def makes (p : Page) : Option Move → Page
  | none => p
  | some m => p.make m

namespace Alike

section

variable (same : p.Alike w q)

include same

theorem setAgenda {ts us : List Task} (alike : Agenda.Alike w ts us) :
    Alike w { p with agenda := ts } { q with agenda := us } where
  silent := same.silent
  count := same.count
  runtime := same.runtime
  log := same.log
  agenda := alike
  frame := by
    rw [same.frame]
    rfl

theorem conclude (a a' : Answer) (nested : Bool) :
    (p.conclude a nested).Alike w (q.conclude a' nested) := by
  cases nested with
  | true => exact same.note _ _ ⟨rfl, fun _ => rfl⟩
  | false =>
    refine ⟨same.silent, same.count, same.runtime, same.log, same.agenda, ?_⟩
    show { q with answer := a' } = _
    rw [same.frame]
    rfl

/-- An answer to a hint is given on one page alone. -/
theorem conclude_left (a : Answer) (nested : Bool) : (p.conclude a nested).Alike w q := by
  cases nested with
  | true => exact same.note [.answered a] [] ⟨rfl, fun _ => rfl⟩
  | false =>
    refine ⟨same.silent, same.count, same.runtime, same.log, same.agenda, ?_⟩
    exact same.frame

/-- **Every task that both pages have keeps them alike.** -/
theorem act (t : Task) (kept : t.isErased w = false) : (p.act t).Alike w (q.act (t.without w)) := by
  cases t with
  | perform command nested => exact same.perform command kept nested
  | conclude a nested inUse => exact same.conclude a a nested
  | gather r c handlers got caller => exact same.gather r c handlers got caller
  | hint r c kind => exact same.hint kept r c kind
  | merge r d => exact same.merge r d
  | observe x d => exact same.observe x d
  | resolve r d waiting clashes => exact same.resolve r d waiting clashes
  | defer r es => exact same.defer r es
  | enter r e => exact same.enter r e
  | execute r f => exact same.execute r f
  | pass next settledAny => exact same.pass next settledAny
  | load f r rest loads module => exact same.load f r rest loads module
  | settle f r result => exact same.settleFuture f result
  | polled f settledAny => exact same.polled f settledAny

end

end Alike

/-- The pages are alike, except that the first one may be about to give a hint that the second one lacks,
or to answer it. -/
inductive Beside (w : Erasure) (p q : Page) : Prop where
  | alike (same : p.Alike w q)
  | hinting {r : RuntimeId} {c : ChunkId} {kind : HintKind} {b nested : Bool} {ts : List Task}
    (agenda : p.agenda = .hint r c kind :: .conclude (.flag b) nested (some r) :: ts)
    (same : Alike w { p with agenda := ts } q)
  | answering {r : RuntimeId} {b nested : Bool} {ts : List Task}
    (agenda : p.agenda = .conclude (.flag b) nested (some r) :: ts)
    (same : Alike w { p with agenda := ts } q)

/-- What becomes of a move in the run without hints: it loses its own hints, and a task may be missing
that is only about hints. -/
def Becomes (w : Erasure) (p : Page) (m : Move) (o : Option Move) : Prop :=
  o = m.without w ∨ m = .task ∧ o = none ∧ ∃ t ts, p.agenda = t :: ts ∧ t.isAside

theorem step_eq {t : Task} {ts : List Task} (agenda : p.agenda = t :: ts) :
    p.step = { p with agenda := ts }.act t := by
  unfold step
  rw [agenda]

/-- A hint to a host that does nothing leaves the agenda as it is. -/
theorem hint_agenda (silent : ∀ c, hostScript p.onHint c = []) (ts : List Task) (r : RuntimeId)
    (c : ChunkId) (kind : HintKind) :
    { p with agenda := ts }.hint r c kind = { p.hint r c kind with agenda := ts } := by
  have store : { p with agenda := ts }.store r = p.store r := rfl
  unfold hint
  rw [store]
  split
  · rfl
  · simp only [silent]
    rfl

/-- A call for a hint is about to give the hint, or to tell that there is no runtime. -/
theorem Alike.performHint {ts : List Task} {command : Command} (same : Alike w { p with agenda := ts } q)
    (isHint : command.isHint) (nested : Bool) :
    Beside w ({ p with agenda := ts }.perform nested command) q := by
  cases command with
  | hint name c kind =>
    simp only [Page.perform, Page.withRuntime]
    split
    · exact .hinting rfl same
    · exact .alike (same.call (.answered name nested .nil))
  | _ => cases isHint

theorem Alike.makes_task (same : p.Alike w q) :
    ∃ o, Becomes w p .task o ∧ Beside w (p.make .task) (q.makes o) := by
  have both (alike : p.step.Alike w q.step) :
      ∃ o, Becomes w p .task o ∧ Beside w (p.make .task) (q.makes o) :=
    ⟨some .task, .inl rfl, .alike alike⟩
  have first {t : Task} {ts : List Task} (agenda : p.agenda = t :: ts) (aside : t.isAside)
      (beside : Beside w p.step q) :
      ∃ o, Becomes w p .task o ∧ Beside w (p.make .task) (q.makes o) :=
    ⟨none, .inr ⟨rfl, rfl, t, ts, agenda, aside⟩, beside⟩
  generalize agenda : p.agenda = ts
  generalize agenda' : q.agenda = us
  have alike := same.agenda
  rw [agenda, agenda'] at alike
  -- The agendas say whether the second page has the task at hand too.
  cases alike with
  | nil =>
    refine both ?_
    unfold step
    rw [agenda, agenda']
    exact same
  | keep t kept rest =>
    refine both ?_
    rw [step_eq agenda, step_eq agenda']
    exact (same.setAgenda rest).act t kept
  | conclude a a' nested inUse rest =>
    refine both ?_
    rw [step_eq agenda, step_eq agenda']
    exact (same.setAgenda rest).conclude a a' nested
  | hint r c kind used rest =>
    -- The hint of a delivery or of a handler is given on the first page only.
    refine first agenda rfl (.alike ?_)
    rw [step_eq agenda]
    have alone := same.setAgenda rest
    rw [← agenda'] at alone
    exact Alike.hint_left alone r c kind
  | call command nested erased rest =>
    -- Somebody asked for a hint, which takes two more tasks: until then the pages are only beside.
    have isHint : command.isHint := (Bool.and_eq_true_iff.mp erased).2
    refine first agenda isHint ?_
    rw [step_eq agenda]
    have alone := same.setAgenda rest
    rw [← agenda'] at alone
    exact Alike.performHint alone isHint nested
  | answered name nested rest =>
    refine first agenda rfl (.alike ?_)
    rw [step_eq agenda]
    have alone := same.setAgenda rest
    rw [← agenda'] at alone
    exact Alike.conclude_left alone _ nested

/-- **What one move does.** If the pages are beside each other before it, then they are so afterwards,
when the second page makes the same move without hints, or none. -/
theorem Beside.make (beside : Beside w p q) {m : Move}
    (alone : m = .task ∨ p.agenda.any Task.answersHint = false) :
    ∃ o, Becomes w p m o ∧ Beside w (p.make m) (q.makes o) := by
  cases beside with
  | alike same =>
    cases m with
    | task => exact same.makes_task
    | poll next => exact ⟨some (.poll next), .inl rfl, .alike (same.call (.single rfl))⟩
    | call command nested =>
      refine ⟨(Move.call command nested).without w, .inl rfl, ?_⟩
      simp only [Move.without]
      split
      · rename_i erased
        -- A command that only hints is left out on the other page.
        exact .alike (same.call (.call command nested erased .nil))
      · rename_i kept
        exact .alike (same.call (.single (t := .perform command nested) (Bool.eq_false_iff.mpr kept)))
  -- From here on the task at hand is about a hint, and nobody calls in before it is answered.
  | @hinting r c kind b nested ts agenda same =>
    rcases alone with rfl | quiet
    · refine ⟨none, .inr ⟨rfl, rfl, _, _, agenda, rfl⟩, ?_⟩
      show Beside w p.step q
      rw [step_eq agenda]
      show Beside w ({ p with agenda := _ }.hint r c kind) q
      have hinted := same.hint_left r c kind
      rw [hint_agenda same.silent] at hinted ⊢
      exact .answering rfl hinted
    · rw [agenda] at quiet
      cases quiet
  | @answering r b nested ts agenda same =>
    rcases alone with rfl | quiet
    · refine ⟨none, .inr ⟨rfl, rfl, _, _, agenda, rfl⟩, .alike ?_⟩
      show p.step.Alike w q
      rw [step_eq agenda]
      exact same.conclude_left (.flag b) nested
    · rw [agenda] at quiet
      cases quiet

/-! ## Runs -/

/-- Nothing but hints tells the pages apart. -/
structure Matches (w : Erasure) (p q : Page) : Prop where
  /-- The host got the same resource requests in the same order. -/
  requests : q.requests = p.requests
  futures : q.futures = p.futures
  /-- The same attempts ended in the same way. -/
  outcomes : ∀ r, (q.runtime r).outcomes = (p.runtime r).outcomes
  /-- The module tables are the same. -/
  factories : ∀ r, (q.store r).factories = (p.store r).factories
  /-- The same entries wait. -/
  worklist : ∀ r, (q.runtime r).worklist = (p.runtime r).worklist
  state : ∀ r c, ((q.store r).state c).unhinted = ((p.store r).state c).unhinted
  /-- Everything else that happened is the same, and happened in the same order. -/
  log : q.log.filterMap Event.unhinted? = p.log.filterMap Event.unhinted?
  /-- If everything is erased, then no hint is given, and no chunk is only hinted. -/
  mute : w.everything → (∀ e ∈ q.log, e.isHint = false) ∧
    ∀ r c, (q.store r).state c = ((p.store r).state c).unhinted
  finished : p.agenda = [] → q.agenda = []

/-- A chunk is only hinted if there was a hint. -/
theorem Reachable.state_ne_hintOnly (h : q.Reachable) (mute : ∀ e ∈ q.log, e.isHint = false)
    (r : RuntimeId) (c : ChunkId) : (q.store r).state c ≠ .hintOnly := by
  intro state
  have word := h.worded.word r c
  rw [state] at word
  obtain ⟨before, -, last, rfl, signs⟩ := word
  have hinted : Sign.hint ∈ q.signs r c := by
    rw [← signs]
    simp
  obtain ⟨e, member, sign⟩ := List.mem_filterMap.mp hinted
  have none := mute e (List.mem_reverse.mp member)
  cases e <;> simp_all [Event.sign?, Event.isHint]

/-- Pages that are beside each other are alike apart from the task at hand. -/
theorem Beside.exists_alike (beside : Beside w p q) :
    ∃ ts, Alike w { p with agenda := ts } q ∧ (p.agenda = [] → ts = []) := by
  cases beside with
  | alike same => exact ⟨p.agenda, same, id⟩
  | hinting agenda same => exact ⟨_, same, fun none => by simp [agenda] at none⟩
  | answering agenda same => exact ⟨_, same, fun none => by simp [agenda] at none⟩

/-- Pages that go on side by side match in what hints are not to change. -/
theorem Beside.matches (beside : Beside w p q) (h : q.Reachable) : p.Matches w q := by
  obtain ⟨ts, same, finished⟩ := beside.exists_alike
  have state (r : RuntimeId) (c : ChunkId) :
      ((q.store r).state c).unhinted = ((p.store r).state c).unhinted := (same.store r).state c
  refine ⟨same.requests, same.futures, fun r => (same.runtime r).outcomes,
    fun r => (same.store r).factories, fun r => (same.runtime r).worklist, state, same.log.visible,
    ?_, ?_⟩
  · -- Without hints, the state of a chunk is what the other page has apart from hints.
    intro everything
    have mute : ∀ e ∈ q.log, e.isHint = false := by
      simpa using same.log.mute everything
    refine ⟨mute, fun r c => ?_⟩
    have plain := h.state_ne_hintOnly mute r c
    rw [← state]
    revert plain
    cases (q.store r).state c <;> simp [ChunkState.unhinted]
  · intro none
    have alike : Agenda.Alike w ts q.agenda := same.agenda
    rw [finished none] at alike
    generalize q.agenda = us at alike ⊢
    cases alike
    rfl

theorem follow_filterMap_cons (q : Page) (o : Option Move) (os : List (Option Move)) :
    q.follow ((o :: os).filterMap id) = (q.makes o).follow (os.filterMap id) := by
  cases o <;> rfl

/-- **What a run does.** Pages that are beside each other stay so at every move. -/
theorem Beside.follow {ms : List Move} (beside : Beside w p q) (alone : p.HintsAlone ms) :
    ∃ os : List (Option Move), os.length = ms.length ∧ ∀ n,
      (∀ m o, ms[n]? = some m → os[n]? = some o → Becomes w (p.follow (ms.take n)) m o) ∧
      Beside w (p.follow (ms.take n)) (q.follow ((os.take n).filterMap id)) := by
  induction ms generalizing p q with
  | nil =>
    refine ⟨[], rfl, fun n => ⟨fun m o move => ?_, ?_⟩⟩
    · rw [List.getElem?_nil] at move
      cases move
    · rw [List.take_nil, List.take_nil]
      exact beside
  | cons m ms ih =>
    obtain ⟨o, becomes, made⟩ := beside.make alone.1
    obtain ⟨os, length, rest⟩ := ih made alone.2
    refine ⟨o :: os, congrArg (· + 1) length, fun n => ?_⟩
    cases n with
    | zero =>
      refine ⟨fun m' o' move move' => ?_, beside⟩
      -- The first move is the one just made.
      obtain rfl := Option.some.inj move
      obtain rfl := Option.some.inj move'
      exact becomes
    | succ n =>
      rw [List.take_succ_cons, List.take_succ_cons, follow_cons, follow_filterMap_cons]
      exact rest n

/-- A fresh page is alike to the one whose host does not ask for hints. -/
theorem alike_fresh {onInject onHint : List (ChunkId × Script)}
    (silent : ∀ c, hostScript onHint c = []) :
    (fresh onInject onHint).Alike w
      (fresh (onInject.map fun rule => (rule.1, Script.without w rule.2)) onHint) where
  silent := silent
  count := rfl
  runtime _ := noRuntime.alike_without w
  log := ⟨rfl, fun _ => rfl⟩
  agenda := .nil
  frame := rfl

/-- **Hints are advice.** Take any run with a host that does nothing when it gets a hint, in which
nobody calls in meanwhile, and any kinds of hints. The same moves without these hints are a run too: a call
is as it was but for its hints, and no task is missing but those that are only about hints. After every
move, nothing but hints tells the two pages apart. -/
theorem hints_advise {onInject onHint : List (ChunkId × Script)} {ms : List Move}
    (silent : ∀ c, hostScript onHint c = []) (alone : (fresh onInject onHint).HintsAlone ms)
    (w : Erasure) : ∃ os : List (Option Move), os.length = ms.length ∧ ∀ n,
      (∀ m o, ms[n]? = some m → os[n]? = some o →
        Becomes w ((fresh onInject onHint).follow (ms.take n)) m o) ∧
      ((fresh onInject onHint).follow (ms.take n)).Matches w
        ((fresh (onInject.map fun rule => (rule.1, Script.without w rule.2)) onHint).follow
          ((os.take n).filterMap id)) := by
  obtain ⟨os, length, run⟩ := Beside.follow (.alike (alike_fresh (w := w) silent)) alone
  refine ⟨os, length, fun n => ⟨(run n).1, ?_⟩⟩
  exact (run n).2.matches ((Reachable.fresh _ _).follow _)

/-- A run with hints of all kinds: a call for one, the child of a chunk that is asked for, and the
prefetch list of a delivery. -/
def advised : List Move :=
  ([.create "main" (.ok { Blueprint.standard with preload := ⟨[(.number 7, [.number 8])]⟩ }) none,
    .install "main" "chunks", .hint "main" (.number 9) .prefetch, .ensure "main" (.number 7) none,
    .push "chunks" ⟨[.number 7], [⟨.number 5, none, []⟩], [⟨.number 5, [.number 9]⟩], [.number 6]⟩]
    : List Command).flatMap fun command => .call command false :: List.replicate 6 .task

theorem hints_advise_advised :
    (fresh [] []).HintsAlone advised ∧ ((fresh [] []).follow advised).log.countP Event.isHint = 3 ∧
    ∃ q : Page, q.Reachable ∧ q.log.countP Event.isHint = 0 ∧
      ((fresh [] []).follow advised).Matches ⟨true, true, true, true⟩ q := by
  have alone : (fresh [] []).HintsAlone advised := by decide +kernel
  obtain ⟨os, -, run⟩ := hints_advise (fun _ => rfl) alone ⟨true, true, true, true⟩
  have same := (run advised.length).2
  rw [List.take_length] at same
  refine ⟨alone, by decide +kernel, _, (Reachable.fresh _ _).follow _, ?_, same⟩
  exact List.countP_eq_zero.mpr fun e member => by simp [(same.mute rfl).1 e member]

end Page

end ChunkLoading
