import ChunkLoading.Proofs.Roster
import ChunkLoading.Proofs.Supply
import Mathlib.Data.List.Induction

/-!
# Deferred entries

The roster of a runtime is read off a page: entries are announced by merges, wait in the worklist,
are underway on the agenda, and are entered by events. What was handed to a runtime along a run is
what its roster holds, so that no entry is lost or run twice; none runs before its chunks are there;
and when nothing is going on, none waits that could run (`entries_follow`).
-/

namespace ChunkLoading

/-- The entries of a runtime that are registered by an event. -/
def Event.registered? (r : RuntimeId) : Event → Option (List DeferredEntry)
  | .registered r' es => if r' = r then some es else none
  | _ => none

/-- The entry of a runtime that is run by an event. -/
def Event.entered? (r : RuntimeId) : Event → Option DeferredEntry
  | .entered r' e => if r' = r then some e else none
  | _ => none

namespace Task

/-- The entries of a runtime that a task runs. -/
def underway (r : RuntimeId) : Task → List DeferredEntry
  | .enter r' e => if r' = r then [e] else []
  | _ => []

/-- The entries of a runtime that a task registers. -/
def announced (r : RuntimeId) : Task → List DeferredEntry
  | .defer r' es => if r' = r then es else []
  | _ => []

/-- Whether a task registers entries of a runtime. -/
def defers (r : RuntimeId) : Task → Bool
  | .defer r' _ => r' = r
  | _ => false

end Task

namespace Core

variable {k : Core} {r r' : RuntimeId}

/-- The roster of a runtime. -/
def roster (k : Core) (r : RuntimeId) : Roster where
  loaded := (k.store r).isLoaded
  waiting := (k.worklist r).getD []
  underway := k.agenda.flatMap (Task.underway r)
  announced := k.agenda.flatMap (Task.announced r)
  due := k.agenda.any (Task.defers r)
  registered := (k.log.reverse.filterMap (Event.registered? r)).flatten
  entered := k.log.reverse.filterMap (Event.entered? r)

/-- Events tell which entries were registered and which were run. -/
theorem roster_note (es : List Event) : (k.note es).roster r = { k.roster r with
    registered := (k.roster r).registered ++ (es.filterMap (Event.registered? r)).flatten
    entered := (k.roster r).entered ++ es.filterMap (Event.entered? r) } := by
  simp [roster, note]

/-- Events that are no news of entries. -/
theorem roster_note_beside {es : List Event}
    (beside : ∀ e ∈ es, e.registered? r = none ∧ e.entered? r = none) :
    (k.note es).roster r = k.roster r := by
  have registered : es.filterMap (Event.registered? r) = [] :=
    List.filterMap_eq_nil_iff.mpr fun e member => (beside e member).1
  have entered : es.filterMap (Event.entered? r) = [] :=
    List.filterMap_eq_nil_iff.mpr fun e member => (beside e member).2
  simp [roster_note, registered, entered]

/-- Tasks tell which entries are to be run and which are announced. -/
theorem roster_call (ts : List Task) : (k.call ts).roster r = { k.roster r with
    underway := ts.flatMap (Task.underway r) ++ (k.roster r).underway
    announced := ts.flatMap (Task.announced r) ++ (k.roster r).announced
    due := ts.any (Task.defers r) || (k.roster r).due } := by
  simp [roster, call]

/-- Tasks that touch no entries of the runtime. -/
theorem roster_call_beside {ts : List Task}
    (beside : ∀ t ∈ ts, t.underway r = [] ∧ t.announced r = [] ∧ t.defers r = false) :
    (k.call ts).roster r = k.roster r := by
  have underway : ts.flatMap (Task.underway r) = [] :=
    List.flatMap_eq_nil_iff.mpr fun t member => (beside t member).1
  have announced : ts.flatMap (Task.announced r) = [] :=
    List.flatMap_eq_nil_iff.mpr fun t member => (beside t member).2.1
  have due : ts.any (Task.defers r) = false :=
    List.any_eq_false.mpr fun t member => by simp [(beside t member).2.2]
  simp [roster_call, underway, announced, due]

/-- A store tells which chunks are loaded. -/
theorem roster_setStore (s : Store) : (k.setStore r' s).roster r =
    if r = r' then { k.roster r with loaded := s.isLoaded } else k.roster r := by
  by_cases same : r = r'
  · subst same
    simp [roster, setStore]
  · simp [roster, setStore, same]

/-- A change of a store by which no chunk becomes loaded. -/
theorem roster_setStore_beside {s : Store} (kept : s.isLoaded = (k.store r').isLoaded) :
    (k.setStore r' s).roster r = k.roster r := by
  rw [roster_setStore]
  split
  · rename_i same
    subst same
    rw [kept]
    rfl
  · rfl

/-- Attempts have nothing to do with entries. -/
theorem roster_settleAttempt (c : ChunkId) (n : Attempt) (result : LoadResult) :
    (k.settleAttempt r' c n result).roster r = k.roster r := by
  simp [settleAttempt, note, roster, Event.registered?, Event.entered?]

theorem roster_resolve (d : Delivery) (waiting : List (ChunkId × Attempt))
    (clashes : List ModuleId) : (k.resolve r' d waiting clashes).roster r = k.roster r := by
  unfold resolve
  induction waiting generalizing k with
  | nil => rfl
  | cons w waiting ih => rw [List.foldl_cons, ih, roster_settleAttempt]

/-- What a scan takes is to be run next, and the rest waits. -/
theorem roster_runReady (w : Worklist) : (k.runReady r w).roster r = { k.roster r with
    waiting := w.waiting (k.store r).isLoaded
    underway := w.ready (k.store r).isLoaded ++ (k.roster r).underway } := by
  apply Roster.ext <;>
    simp [roster, runReady, call, setWorklist, List.flatMap_map, Task.underway, Task.announced,
      Task.defers, Function.comp_def]

/-- A scan takes nothing from other runtimes. -/
theorem roster_runReady_of_ne (other : r ≠ r') (w : Worklist) :
    (k.runReady r' w).roster r = k.roster r := by
  apply Roster.ext <;>
    simp [roster, runReady, call, setWorklist, List.flatMap_map, Task.underway, Task.announced,
      Task.defers, Function.comp_def, other, Ne.symm other]

/-- A worklist is still there after a scan. -/
theorem isSome_runReady (some : (k.worklist r).isSome) (w : Worklist) :
    ((k.runReady r' w).worklist r).isSome := by
  by_cases same : r = r'
  · simp [runReady, call, setWorklist, same]
  · simpa [runReady, call, setWorklist, same] using some

/-- Registering entries and looking for entries to run is a scan. -/
theorem roster_scan {w : Worklist} (some : k.worklist r = some w) (es : List DeferredEntry) :
    ((k.note [.registered r es]).runReady r (w ++ es)).roster r = (k.roster r).scan es := by
  rw [roster_runReady, roster_note]
  apply Roster.ext <;>
    simp [roster, note, Roster.scan, some, Event.registered?, Event.entered?]

/-- A merge announces the entries of its delivery. -/
theorem roster_step_merged (unfailed : (k.store r).NoneFailed) (d : Delivery) (es : List Event)
    (beside : ∀ e ∈ es, e.registered? r = none ∧ e.entered? r = none)
    (waiting : List (ChunkId × Attempt)) (clashes : List ModuleId) :
    (k.roster r).Step d.entries ((((k.setStore r ((k.store r).merge d).store).note es).call
      [.resolve r d waiting clashes, .defer r d.entries]).roster r) := by
  have step : (k.store r).Step ((k.store r).merge d).store := .merged d
  have grows (c : ChunkId) (loaded : (k.store r).isLoaded c) :
      ((k.store r).merge d).store.isLoaded c :=
    Store.isLoaded_iff.mpr (step.loaded unfailed (Store.isLoaded_iff.mp loaded))
  rw [roster_call, roster_note_beside beside, roster_setStore, if_pos rfl]
  simpa [Task.underway, Task.announced, Task.defers] using
    Roster.Step.merged (x := k.roster r) _ d.entries grows

/-- Entries that were announced are registered, and the worklist is looked through. -/
theorem roster_step_deferred {w : Worklist} (some : k.worklist r = some w)
    (es : List DeferredEntry) : ((k.call [.defer r es]).roster r).Step []
      (((k.note [.registered r es]).runReady r (w ++ es)).roster r) := by
  have announced : ((k.call [.defer r es]).roster r).announced = es ++ (k.roster r).announced := by
    simp [roster_call, Task.announced]
  have step := Roster.Step.deferred es _ (k.roster r).due announced
  have popped : { ((k.call [.defer r es]).roster r).scan es with
      announced := (k.roster r).announced, due := (k.roster r).due } = (k.roster r).scan es := by
    simp [roster_call, Roster.scan, Task.underway]
  rw [popped] at step
  rw [roster_scan some]
  exact step

/-- The next entry underway is run. -/
theorem roster_step_entered (k : Core) (r : RuntimeId) (e : DeferredEntry) :
    ((k.call [.enter r e]).roster r).Step [] ((k.note [.entered r e]).roster r) := by
  have underway : ((k.call [.enter r e]).roster r).underway = e :: (k.roster r).underway := by
    simp [roster_call, Task.underway]
  have step := Roster.Step.entered e _ underway
  have popped : (k.note [.entered r e]).roster r =
      { (k.call [.enter r e]).roster r with
        underway := (k.roster r).underway
        entered := ((k.call [.enter r e]).roster r).entered ++ [e] } := by
    simp [roster_call, roster_note, Task.announced, Task.defers, Event.registered?, Event.entered?]
  rw [popped]
  exact step

end Core

namespace Page

variable {p : Page} {m : Move} {r : RuntimeId} {e : DeferredEntry} {w : Worklist}

/-- The entries of a runtime that were taken from the worklist and not run yet. -/
def underway (p : Page) (r : RuntimeId) : List DeferredEntry := p.agenda.flatMap (Task.underway r)

/-- The entries of merged deliveries that a runtime has not registered yet. -/
def announced (p : Page) (r : RuntimeId) : List DeferredEntry :=
  p.agenda.flatMap (Task.announced r)

/-- The entries that a runtime has registered, in order. -/
def registered (p : Page) (r : RuntimeId) : List DeferredEntry :=
  (p.log.reverse.filterMap (Event.registered? r)).flatten

/-- The entries that a runtime has run, in order. -/
def entered (p : Page) (r : RuntimeId) : List DeferredEntry :=
  p.log.reverse.filterMap (Event.entered? r)

/-- A roster is read off a page as it is off the core. -/
theorem roster_core (p : Page) (r : RuntimeId) : p.core.roster r =
    { loaded := (p.store r).isLoaded
      waiting := (p.runtime r).worklist.getD []
      underway := p.underway r
      announced := p.announced r
      due := p.agenda.any (Task.defers r)
      registered := p.registered r
      entered := p.entered r } := by
  apply Roster.ext
  · rfl
  · rfl
  · exact flatMap_core (fun t beside => by cases t <;> first | rfl | cases beside) p.agenda
  · exact flatMap_core (fun t beside => by cases t <;> first | rfl | cases beside) p.agenda
  · have defers (t : Task) : (t.isCore && t.defers r) = t.defers r := by
      cases t <;> simp [Task.isCore, Task.defers]
    show (p.agenda.filter Task.isCore).any (Task.defers r) = _
    rw [List.any_filter]
    simp only [defers]
  · exact congrArg List.flatten
      (filterMap_core (fun e beside => by cases e <;> first | rfl | cases beside) p.log)
  · exact filterMap_core (fun e beside => by cases e <;> first | rfl | cases beside) p.log

/-- A step of a store that is no merge loads no chunks. -/
theorem isLoaded_assign {s : Store} {c : ChunkId} {next : ChunkState}
    (before : s.state c ≠ .loaded) (after : next ≠ .loaded) :
    (s.assign c next).isLoaded = s.isLoaded := by
  funext c'
  unfold Store.isLoaded
  rw [Store.state_assign]
  by_cases same : c = c'
  · subst same
    simp [before, after]
  · simp [same]

/-- What a move does to the roster of a runtime with a worklist. -/
theorem Turn.roster (turn : Turn p m) (unfailed : ∀ r, (p.core.store r).NoneFailed)
    (deferral : (p.core.worklist r).isSome) :
    ((p.make m).core.worklist r).isSome ∧
      (p.core.roster r).Step (p.offers r m) ((p.make m).core.roster r) := by
  -- Turns for which there is no worklist are those of other runtimes.
  have other {r' : RuntimeId} (none : p.core.worklist r' = none) : r' ≠ r := by
    rintro rfl
    rw [none] at deferral
    cases deferral
  cases turn with
  | beside core offers =>
    rw [core, offers r deferral]
    exact ⟨deferral, .same⟩
  | created b x rt built core offers =>
    -- The runtime that is built is another one, since this one has a worklist already.
    have old : r ≠ p.core.count := by
      rintro rfl
      have none : p.core.worklist p.core.count = none :=
        congrArg Runtime.worklist (runtime_outOfRange (Nat.lt_irrefl _))
      rw [none] at deferral
      cases deferral
    have kept : (p.core.create rt).roster r = p.core.roster r := by
      simp [Core.roster, Core.create, old]
    rw [core, offers, kept]
    exact ⟨by simpa [Core.create, old] using deferral, .same⟩
  -- Hints, attempts that start and attempts that fail load no chunk, so that no entry becomes ready.
  | hinted r' c kind address nonce crossOrigin inRange idle core offers =>
    have kept : ((p.core.store r').assign c .hintOnly).isLoaded = (p.core.store r').isLoaded :=
      isLoaded_assign (by simp [idle]) (by simp)
    rw [core, offers, Core.roster_note_beside (by simp [Event.registered?, Event.entered?]),
      Core.roster_setStore_beside kept]
    exact ⟨deferral, .same⟩
  | started r' c number q inRange idle request core offers =>
    have kept : ((p.core.store r').start c).isLoaded = (p.core.store r').isLoaded := by
      refine isLoaded_assign ?_ (by simp)
      intro loaded
      have loaded : (p.core.store r').state c = .loaded := loaded
      rw [loaded] at idle
      cases idle
    rw [core, offers, Core.roster_note_beside (by simp [Event.registered?, Event.entered?]),
      Core.roster_setStore_beside kept]
    exact ⟨deferral, .same⟩
  | rejected r' c n e inRange loading own alive core offers =>
    have kept : ((p.core.store r').reset c).isLoaded = (p.core.store r').isLoaded :=
      (isLoaded_assign (by simp) (by simp)).trans (isLoaded_assign (by simp [loading]) (by simp))
    rw [core, offers, Core.roster_settleAttempt,
      Core.roster_note_beside (by simp [Event.registered?, Event.entered?]),
      Core.roster_setStore_beside kept]
    exact ⟨deferral, .same⟩
  | merged r' d inRange core offers =>
    refine ⟨core ▸ deferral, ?_⟩
    rw [core, offers]
    by_cases same : r' = r
    · -- Chunks are loaded and entries announced; the worklist is looked through when it gets to them.
      subst same
      rw [if_pos rfl]
      exact Core.roster_step_merged (unfailed r') d _ (by simp [Event.registered?, Event.entered?]) _ _
    · rw [if_neg same,
        Core.roster_call_beside (by simp [Task.underway, Task.announced, Task.defers, same]),
        Core.roster_note_beside (by simp [Event.registered?, Event.entered?]),
        Core.roster_setStore, if_neg (Ne.symm same)]
      exact .same
  | resolved r' d waiting clashes k inRange pending core offers =>
    -- The ends of attempts have nothing to do with entries.
    rw [pending] at deferral
    rw [core, offers, pending, Core.roster_resolve, Core.worklist_resolve,
      Core.roster_call_beside (by simp [Task.underway, Task.announced, Task.defers])]
    exact ⟨deferral, .same⟩
  | dropped r' es k pending none core offers =>
    have other := other none
    rw [pending] at deferral
    rw [core, offers, pending,
      Core.roster_call_beside (by simp [Task.underway, Task.announced, Task.defers, other])]
    exact ⟨deferral, .same⟩
  | deferred r' es w k inRange pending some core offers =>
    rw [pending] at deferral some
    rw [core, offers, pending]
    refine ⟨Core.isSome_runReady deferral _, ?_⟩
    by_cases same : r' = r
    · -- The entries that were announced are registered now.
      subst same
      exact Core.roster_step_deferred (k := k) some es
    · rw [Core.roster_runReady_of_ne (Ne.symm same),
        Core.roster_note_beside (by simp [Event.registered?, Event.entered?, same]),
        Core.roster_call_beside (by simp [Task.underway, Task.announced, Task.defers, same])]
      exact .same
  | startedUp r' es w inRange some core offers =>
    rw [core, offers]
    refine ⟨Core.isSome_runReady deferral _, ?_⟩
    by_cases same : r' = r
    · -- What a startup hands over is registered at once.
      subst same
      rw [if_pos rfl, Core.roster_scan some]
      exact .scanned es
    · rw [if_neg same, Core.roster_runReady_of_ne (Ne.symm same),
        Core.roster_note_beside (by simp [Event.registered?, Event.entered?, same])]
      exact .same
  | scanned r' w inRange some core offers =>
    rw [core, offers]
    refine ⟨Core.isSome_runReady deferral _, ?_⟩
    by_cases same : r' = r
    · subst same
      -- A scan by itself registers nothing.
      have again : (p.core.runReady r' w).roster r' = (p.core.roster r').scan [] := by
        rw [Core.roster_runReady]
        simp [Core.roster, Roster.scan, some]
      rw [again]
      exact .scanned []
    · rw [Core.roster_runReady_of_ne (Ne.symm same)]
      exact .same
  | hurried r' es none core offers =>
    have other := other none
    rw [core, offers r deferral, Core.roster_call_beside]
    · exact ⟨deferral, .same⟩
    · intro t member
      obtain ⟨e, -, rfl⟩ := List.mem_map.mp member
      simp [Task.underway, Task.announced, Task.defers, other]
  | entered r' e k pending core offers =>
    rw [pending] at deferral
    rw [core, offers, pending]
    refine ⟨deferral, ?_⟩
    by_cases same : r' = r
    · -- An entry that was underway has been run.
      subst same
      exact Core.roster_step_entered k r' e
    · rw [Core.roster_note_beside (by simp [Event.registered?, Event.entered?, same]),
        Core.roster_call_beside (by simp [Task.underway, Task.announced, Task.defers, same])]
      exact .same

/-! ## Along runs -/

/-- The entries that are handed to a runtime along a run: those of startups, and those that merged
deliveries carry. -/
def offered (p : Page) (r : RuntimeId) : List Move → List DeferredEntry
  | [] => []
  | m :: ms => p.offers r m ++ (p.make m).offered r ms

/-- What the last move hands over comes last. -/
theorem offered_concat (p : Page) (r : RuntimeId) (ms : List Move) (m : Move) :
    p.offered r (ms ++ [m]) = p.offered r ms ++ (p.follow ms).offers r m := by
  induction ms generalizing p with
  | nil => simp [offered]
  | cons m' ms ih => simp [offered, ih]

/-- Nothing is handed to a runtime that is yet to be built. -/
theorem offers_outOfRange (sound : p.Sound) (outside : ¬ r < p.core.count) (m : Move) :
    p.offers r m = [] := by
  unfold offers
  cases m with
  | call command nested => rfl
  | poll next => rfl
  | task =>
    simp only
    split
    · rename_i name es nested ts agenda
      rw [if_neg]
      intro named
      exact outside (sound.inRange r (alive_of_name named))
    · rename_i r' d ts agenda
      rw [if_neg]
      rintro rfl
      have alive : p.alive r' :=
        alive_of_task (agenda ▸ List.mem_cons_self) (by simp [Task.uses])
      exact outside (sound.inRange r' alive)
    · rfl

/-- No task is about entries of a runtime that is not there. -/
theorem tasks_outOfRange (sound : p.Sound) (outside : ¬ r < p.core.count) :
    p.underway r = [] ∧ p.announced r = [] := by
  have unused (t : Task) (member : t ∈ p.agenda) : t.uses r = false := by
    by_contra uses
    exact outside (sound.inRange r (alive_of_task member (by simpa using uses)))
  constructor
  · apply List.flatMap_eq_nil_iff.mpr
    intro t member
    have unused := unused t member
    cases t <;> simp_all [Task.underway, Task.uses]
  · apply List.flatMap_eq_nil_iff.mpr
    intro t member
    have unused := unused t member
    cases t <;> simp_all [Task.announced, Task.uses]

/-- A runtime gets its worklist when it is built, or never. -/
theorem Turn.deferral (turn : Turn p m) (deferral : ((p.make m).core.worklist r).isSome) :
    (p.core.worklist r).isSome ∨
      ∃ rt, Built rt ∧ r = p.core.count ∧ (p.make m).core = p.core.create rt := by
  have scanned {k : Core} {r' : RuntimeId} {w w' : Worklist} (before : k.worklist r' = some w')
      (after : ((k.runReady r' w).worklist r).isSome) : (k.worklist r).isSome := by
    by_cases same : r = r'
    · simp [same, before]
    · simpa [Core.runReady, Core.call, Core.setWorklist, same] using after
  cases turn with
  | created b x rt built core =>
    by_cases newest : r = p.core.count
    · exact .inr ⟨rt, built_of_build built, newest, core⟩
    · exact .inl (by simpa [core, Core.create, newest] using deferral)
  | deferred r' es w k inRange pending some core =>
    rw [core] at deferral
    rw [pending] at some ⊢
    exact .inl (scanned (k := k.note [.registered r' es]) some deferral)
  | startedUp r' es w inRange some core =>
    rw [core] at deferral
    exact .inl (scanned (k := p.core.note [.registered r' es]) some deferral)
  | scanned r' w inRange some core =>
    rw [core] at deferral
    exact .inl (scanned some deferral)
  | _ =>
    have kept : (p.make m).core.worklist = p.core.worklist := by
      simp [*, Core.setStore, Core.note, Core.call, Core.settleAttempt]
    exact .inl (kept ▸ deferral)

/-- A runtime that is yet to be built runs no entries. -/
theorem Turn.entered_outOfRange (turn : Turn p m) (sound : p.Sound)
    (outside : ¬ r < p.core.count) : (p.make m).entered r = p.entered r := by
  have log : (p.make m).core.log.reverse.filterMap (Event.entered? r) =
      p.core.log.reverse.filterMap (Event.entered? r) := by
    cases turn with
    | entered r' e k pending core =>
      have member : Task.enter r' e ∈ p.core.agenda := by
        rw [pending]
        exact List.mem_cons_self
      have alive : p.alive r' := alive_of_core member (by simp [Task.uses])
      have other : r' ≠ r := by
        rintro rfl
        exact outside (sound.inRange r' alive)
      simp [pending, core, Core.note, Core.call, Event.entered?, other]
    | resolved r' d waiting clashes k inRange pending core =>
      simp [pending, core, Core.log_resolve, Core.call, Event.entered?, List.filterMap_map]
    | _ =>
      simp [*, Core.setStore, Core.note, Core.call, Core.settleAttempt, Core.runReady,
        Core.setWorklist, Core.create, Event.entered?]
  have read (q : Page) : q.core.log.reverse.filterMap (Event.entered? r) = q.entered r :=
    congrArg Roster.entered (roster_core q r)
  rw [← read, ← read, log]

/-- What was handed to a runtime along a run is what its roster holds. -/
structure Tracked (p : Page) (r : RuntimeId) (offered : List DeferredEntry) : Prop where
  new : p.core.count ≤ r → offered = [] ∧ p.entered r = []
  fair : (p.core.worklist r).isSome → (p.core.roster r).Fair offered

/-- A move hands over what it offers, and the roster goes on from there; a runtime that is just built starts with
an empty one. -/
theorem Tracked.make {offered : List DeferredEntry} (tracked : p.Tracked r offered)
    (h : p.Reachable) (m : Move) : (p.make m).Tracked r (offered ++ p.offers r m) := by
  have turn := h.turn m
  constructor
  · intro beyond
    have before : p.core.count ≤ r := Nat.le_trans turn.count beyond
    obtain ⟨none, unentered⟩ := tracked.new before
    have outside := Nat.not_lt.mpr before
    rw [none, offers_outOfRange h.sound outside, turn.entered_outOfRange h.sound outside]
    exact ⟨rfl, unentered⟩
  · intro deferral
    rcases turn.deferral deferral with before | ⟨rt, built, rfl, core⟩
    · -- The worklist was there before, and stays fair.
      exact (tracked.fair before).step (turn.roster h.sound.unfailed before).2
    · -- The new runtime has had no entries yet.
      obtain ⟨none, unentered⟩ := tracked.new (Nat.le_refl _)
      obtain ⟨underway, announced⟩ := tasks_outOfRange h.sound (Nat.lt_irrefl p.core.count)
      have before := roster_core p p.core.count
      rw [underway, announced, unentered] at before
      have waiting : ((p.make m).core.roster p.core.count).waiting = [] := by
        rcases built.worklist with worklist | worklist <;>
          simp [core, Core.roster, Core.create, worklist]
      have kept : (p.make m).core.roster p.core.count = { p.core.roster p.core.count with
          loaded := rt.store.isLoaded, waiting := [] } := by
        rw [← waiting, core]
        simp [Core.roster, Core.create]
      rw [none, offers_outOfRange h.sound (Nat.lt_irrefl _), kept, before]
      exact ⟨by simp, by simp, by simp⟩

/-- **What was handed to a runtime along a run is what its roster holds.** -/
theorem tracked_follow (onInject onHint : List (ChunkId × Script)) (ms : List Move)
    (r : RuntimeId) : ((Page.fresh onInject onHint).follow ms).Tracked r
      ((Page.fresh onInject onHint).offered r ms) := by
  induction ms using List.reverseRecOn with
  | nil =>
    constructor
    · exact fun _ => ⟨rfl, rfl⟩
    · intro deferral
      cases deferral
  | append_singleton ms m ih =>
    rw [offered_concat, follow_append]
    exact ih.make ((Reachable.fresh onInject onHint).follow ms) m

/-- Entries that are underway one after the other are run in order along every run. -/
theorem Reachable.follows (h : p.Reachable) (deferral : (p.core.worklist r).isSome)
    (ms : List Move) {taken : List DeferredEntry} (queued : (p.core.roster r).Queued taken) :
    (p.core.roster r).Follows taken ((p.follow ms).core.roster r) := by
  induction ms generalizing p taken with
  | nil => exact ⟨0, [], by simp, by simp, queued⟩
  | cons m ms ih =>
    obtain ⟨still, step⟩ := (h.turn m).roster h.sound.unfailed deferral
    exact (step.follows queued).trans fun left queued => ih (.make m h) still queued

/-- What running an entry comes to: the factory of its module runs if there is one, and otherwise the
lack is reported. -/
theorem Reachable.make_enter (h : p.Reachable) {ts : List Task}
    (agenda : p.agenda = .enter r e :: ts) :
    match (p.store r).factory? e.entry with
    | some f => ∃ fac, p.factories[f]? = some fac ∧ (p.make .task).agenda = .execute r f :: ts ∧
      ((p.make .task).make .task).agenda = fac.script.map (.perform · true) ++ ts ∧
      ((p.make .task).make .task).log =
        .executed r (p.nameOf? r) f fac.module fac.key :: .entered r e :: p.log
    | none => (p.make .task).agenda = ts ∧ (p.make .task).log =
        .reported r (p.runtime r).sink (.violation (.noFactory e.entry)) :: .entered r e ::
          p.log := by
  have made : p.make .task = p.rest.enter r e := make_task agenda
  have rest : p.rest.agenda = ts := by
    simp [Page.rest, agenda]
  have same : p.rest.store r = p.store r := rfl
  have store : (p.rest.note [.entered r e]).store r = p.store r := rfl
  simp only [enter, store] at made
  cases held : (p.store r).factory? e.entry with
  | none =>
    rw [held] at made
    rw [made]
    exact ⟨rest, rfl⟩
  | some f =>
    rw [held] at made
    -- A factory that a module has is among those of the page.
    have known := h.known held
    have next : (p.make .task).agenda = .execute r f :: ts := by
      rw [made, ← rest]
      rfl
    have executed : (p.make .task).make .task = (p.make .task).rest.execute r f := make_task next
    have factory : (p.make .task).rest.factories[f]? = some p.factories[f] := by
      rw [made]
      exact List.getElem?_eq_getElem known
    refine ⟨p.factories[f], List.getElem?_eq_getElem known, next, ?_, ?_⟩
    · rw [executed]
      unfold execute
      rw [factory]
      show _ ++ (p.make .task).agenda.tail = _
      rw [next]
      rfl
    · rw [executed]
      unfold execute
      rw [factory, made]
      rfl

/-- An entry is ready if all its chunks are loaded. -/
theorem isReady_iff : e.isReady (p.store r).isLoaded ↔
    ∀ c ∈ e.chunks, (p.store r).state c = .loaded := by
  simp only [DeferredEntry.isReady, List.all_eq_true, Store.isLoaded_iff]

/-- What a move takes from the worklist of a runtime. -/
theorem Reachable.make_worklist (h : p.Reachable) (waits : (p.runtime r).worklist = some w)
    (m : Move) : ∃ es taken w', ((p.make m).runtime r).worklist = some w' ∧
      (p.make m).registered r = p.registered r ++ es ∧ (taken ++ w').Perm (w ++ es) ∧
      taken.Sublist (w ++ es) ∧ w'.Sublist (w ++ es) ∧
      (∀ e ∈ taken, ∀ c ∈ e.chunks, ((p.make m).store r).state c = .loaded) ∧
      ∀ ms, ∃ i new, ((p.make m).follow ms).entered r = (p.make m).entered r ++ new ∧
        (taken.take i).Sublist new ∧
        (taken.drop i).Sublist (((p.make m).follow ms).underway r) := by
  have deferral : (p.core.worklist r).isSome := Option.isSome_of_eq_some waits
  obtain ⟨still, step⟩ := (h.turn m).roster h.sound.unfailed deferral
  obtain ⟨w', waits'⟩ := Option.isSome_iff_exists.mp still
  have waits' : ((p.make m).runtime r).worklist = some w' := waits'
  obtain ⟨es, taken, registered, perm, sublist, sublist', ready, queued⟩ := step.takes
  have follows (ms : List Move) := (h.make m).follows still ms queued
  simp only [roster_core, waits, waits', Option.getD_some] at registered perm sublist sublist' ready
  refine ⟨es, taken, w', waits', registered, perm, sublist, sublist', ?_, ?_⟩
  · intro e member
    exact isReady_iff.mp (ready e member)
  · -- Whatever happens next, they are run in order.
    intro ms
    obtain ⟨i, new, entered, run, before, after, underway⟩ := follows ms
    simp only [roster_core] at entered underway
    refine ⟨i, new, entered, run, ?_⟩
    rw [underway, List.append_assoc]
    exact (List.sublist_append_left ..).trans (List.sublist_append_right ..)

/-- **Deferred entries run once, not too early, and in the end.** Take any run of a page and any
runtime that has a worklist after it. The entries handed to the runtime are those that were run, that
wait, that are underway and that a merge has announced. So when nothing is going on, they are those
that were run and those that wait, and each that waits lacks a chunk. Whatever happens next, the
entries that are taken from the worklist have all their chunks, and are run in the order in which
they were registered. An entry is run when all its chunks are there; the factory of its module is
called once if the runtime has one, and otherwise one failure is reported. -/
theorem entries_follow {onInject onHint : List (ChunkId × Script)} {ms : List Move}
    (run : (Page.fresh onInject onHint).follow ms = p) (waits : (p.runtime r).worklist = some w) :
    ((Page.fresh onInject onHint).offered r ms).Perm
      (p.entered r ++ w ++ p.underway r ++ p.announced r) ∧
    (p.agenda = [] →
      ((Page.fresh onInject onHint).offered r ms).Perm (p.entered r ++ w) ∧
      ∀ e ∈ w, ∃ c ∈ e.chunks, (p.store r).state c ≠ .loaded) ∧
    (∀ m, ∃ es taken w', ((p.make m).runtime r).worklist = some w' ∧
      (p.make m).registered r = p.registered r ++ es ∧ (taken ++ w').Perm (w ++ es) ∧
      taken.Sublist (w ++ es) ∧ w'.Sublist (w ++ es) ∧
      (∀ e ∈ taken, ∀ c ∈ e.chunks, ((p.make m).store r).state c = .loaded) ∧
      ∀ ms, ∃ i new, ((p.make m).follow ms).entered r = (p.make m).entered r ++ new ∧
        (taken.take i).Sublist new ∧
        (taken.drop i).Sublist (((p.make m).follow ms).underway r)) ∧
    ∀ e ts, p.agenda = .enter r e :: ts →
      (∀ c ∈ e.chunks, (p.store r).state c = .loaded) ∧
      match (p.store r).factory? e.entry with
      | some f => ∃ fac, p.factories[f]? = some fac ∧ (p.make .task).agenda = .execute r f :: ts ∧
        ((p.make .task).make .task).agenda = fac.script.map (.perform · true) ++ ts ∧
        ((p.make .task).make .task).log =
          .executed r (p.nameOf? r) f fac.module fac.key :: .entered r e :: p.log
      | none => (p.make .task).agenda = ts ∧ (p.make .task).log =
          .reported r (p.runtime r).sink (.violation (.noFactory e.entry)) :: .entered r e ::
            p.log := by
  have h : p.Reachable := run ▸ (Reachable.fresh onInject onHint).follow ms
  have deferral : (p.core.worklist r).isSome := Option.isSome_of_eq_some waits
  have fair := (run ▸ tracked_follow onInject onHint ms r : p.Tracked r _).fair deferral
  rw [roster_core, waits] at fair
  have conserved : ((Page.fresh onInject onHint).offered r ms).Perm
      (p.entered r ++ w ++ p.underway r ++ p.announced r) := by
    rw [List.perm_iff_count]
    intro e
    have count := fair.conserved e
    simp only [List.count_append]
    exact count
  refine ⟨conserved, ?_, h.make_worklist waits, ?_⟩
  · intro quiet
    constructor
    · -- Nothing is on its way when nothing is going on.
      have underway : p.underway r = [] := by simp [Page.underway, quiet]
      have announced : p.announced r = [] := by simp [Page.announced, quiet]
      rw [underway, announced, List.append_nil, List.append_nil] at conserved
      exact conserved
    · intro e member
      by_contra all
      have ready : e.isReady (p.store r).isLoaded := isReady_iff.mpr (by simpa using all)
      -- Then the worklist would still have to be looked through.
      have due := fair.awake e member ready
      simp [quiet] at due
  · -- An entry that is run was ready when it was taken, and chunks stay loaded.
    intro e ts agenda
    refine ⟨isReady_iff.mp (fair.ready e ?_), h.make_enter agenda⟩
    show e ∈ p.agenda.flatMap (Task.underway r)
    rw [agenda]
    simp [Task.underway]

/-- A startup with two entries, and a delivery that one of them waits for. -/
def startedUp : List Move :=
  List.flatMap (fun command => .call command false :: List.replicate 9 .task)
    [.create "main" (.ok .standard) none, .install "main" "chunks",
      .startup "main" (.ok [⟨.number 5, [.number 7]⟩, ⟨.number 6, [.number 8]⟩]),
      .push "chunks" ⟨[.number 7], [⟨.number 5, none, []⟩], [], []⟩]

/-- One of the two entries has run, and the other one waits. -/
theorem entries_startedUp :
    (((Page.fresh [] []).follow startedUp).runtime 0).worklist = some [⟨.number 6, [.number 8]⟩] ∧
    ((Page.fresh [] []).follow startedUp).entered 0 = [⟨.number 5, [.number 7]⟩] ∧
    ((Page.fresh [] []).offered 0 startedUp).Perm
      (((Page.fresh [] []).follow startedUp).entered 0 ++ [⟨.number 6, [.number 8]⟩]) := by
  have waits : (((Page.fresh [] []).follow startedUp).runtime 0).worklist =
      some [⟨.number 6, [.number 8]⟩] := rfl
  obtain ⟨-, quiet, -⟩ := entries_follow rfl waits
  exact ⟨waits, rfl, (quiet rfl).1⟩

end Page

end ChunkLoading
