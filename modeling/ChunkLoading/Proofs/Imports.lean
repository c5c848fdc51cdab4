import ChunkLoading.Proofs.Deeds
import ChunkLoading.Proofs.Modules
import Mathlib.Data.List.Induction

/-!
# How imports end

An import asks for its chunks, waits for what the handlers contributed, and then runs its module or reports
a failure. Between its steps anything can happen on the page. `Import.Stage` says how far an import has come
in a run and what has been done for it until then (`Page.deeds`, `Page.contributions`); every move leads from
stage to stage (`Import.Stage.make`). So an import that ends well has run its module once, after all that it
waits for ended well, and one that fails has reported its failure once (`Page.Reachable.imported`).
-/

namespace ChunkLoading

namespace Page

variable {p q : Page} {f : FutureId}

/-! ## What an import keeps on a page -/

/-- A page keeps the future of an import, and what is still to be done for it on the agenda: what is above
that is foreign to the import, and so is what is below. -/
structure Holds (f : FutureId) (future : Future) (own : List Task) (p : Page) : Prop where
  future : p.futures[f]? = some future
  agenda : ∃ ts base, p.agenda = ts ++ own ++ base ∧ Foreign f false ts ∧
    ∀ t ∈ base, t.serves f = false

variable {future : Future} {own : List Task}

namespace Holds

/-- What is to be done for the import is at hand. -/
theorem now (own : List Task) {base : List Task} (there : p.futures[f]? = some future)
    (agenda : p.agenda = own ++ base) (apart : ∀ t ∈ base, t.serves f = false) : Holds f future own p :=
  ⟨there, [], base, agenda, .nil, apart⟩

/-- A page on which nothing is to be done for an import has no task of it. -/
theorem apart (holds : Holds f future [] p) : ∀ t ∈ p.agenda, t.serves f = false := by
  obtain ⟨ts, base, agenda, foreign, apart⟩ := holds.agenda
  rw [agenda, List.append_nil]
  exact List.forall_mem_append.mpr ⟨foreign.apart, apart⟩

theorem spared (holds : Holds f future own p) (spares : Spares f false p q) : Holds f future own q := by
  obtain ⟨ts, base, agenda, foreign, apart⟩ := holds.agenda
  obtain ⟨us, foreign', agenda'⟩ := spares.agenda
  refine ⟨(spares.future (List.getElem?_eq_some_iff.mp holds.future).1).trans holds.future,
    us ++ ts, base, ?_, foreign'.append foreign, apart⟩
  rw [agenda', agenda]
  simp

/-- Either the import is at hand, or nothing is to be done, or a task that is foreign to the import. -/
theorem head (holds : Holds f future own p) :
    (∃ base, p.agenda = own ++ base ∧ own ≠ [] ∧ ∀ t ∈ base, t.serves f = false) ∨
    p.agenda = [] ∨ ∃ t rest, p.agenda = t :: rest ∧ t.serves f = false ∧ p.worksFor f .task = false ∧
      ∀ q, Spares f t.runs p.rest q → Holds f future own q := by
  obtain ⟨ts, base, agenda, foreign, apart⟩ := holds.agenda
  have there : f < p.rest.futures.length := (List.getElem?_eq_some_iff.mp holds.future).1
  -- The task at hand is the first of what is above, of the import's own tasks, or of what is below.
  cases ts with
  | cons t ts =>
    -- Something foreign is to be done first.
    refine .inr (.inr ⟨t, ts ++ own ++ base, agenda, foreign.apart t List.mem_cons_self, ?_, ?_⟩)
    · refine worksFor_of_apart agenda (foreign.apart t List.mem_cons_self) ?_
      cases ts with
      | nil => exact .inl (foreign.last rfl t rfl)
      | cons u ts =>
        refine .inr fun u' head => ?_
        obtain rfl := Option.some.inj head
        exact foreign.apart u (List.mem_cons_of_mem _ List.mem_cons_self)
    · intro q spares
      obtain ⟨us, foreign', agenda'⟩ := spares.agenda
      have kept : p.rest.agenda = ts ++ own ++ base := by simp [rest, agenda]
      refine ⟨(spares.future there).trans holds.future, us ++ ts, base, ?_, ?_, apart⟩
      · rw [agenda', kept]
        simp
      · -- The last of the foreign tasks is the same, or the task at hand has run nothing.
        cases ts with
        | nil =>
          have still : t.runs = false := foreign.last rfl t rfl
          rw [List.append_nil]
          exact still ▸ foreign'
        | cons u ts =>
          have later : Foreign f false (u :: ts) :=
            ⟨fun t' member => foreign.apart t' (List.mem_cons_of_mem _ member), foreign.last⟩
          exact .above foreign'.apart later (List.cons_ne_nil _ _)
  | nil =>
    cases own with
    | cons t own => exact .inl ⟨base, agenda, List.cons_ne_nil _ _, apart⟩
    | nil =>
      cases base with
      | nil => exact .inr (.inl agenda)
      | cons t base =>
        -- The import has nothing to be done, so what is below is at hand.
        refine .inr (.inr ⟨t, base, agenda, apart t List.mem_cons_self, ?_, ?_⟩)
        · refine worksFor_of_apart agenda (apart t List.mem_cons_self) (.inr fun u head => ?_)
          exact apart u (List.mem_cons_of_mem _ (List.mem_of_mem_head? head))
        · intro q spares
          obtain ⟨us, foreign', agenda'⟩ := spares.agenda
          refine ⟨(spares.future there).trans holds.future, [], us ++ base, ?_, .nil, ?_⟩
          · rw [agenda']
            simp [rest, agenda]
          · exact List.forall_mem_append.mpr
              ⟨foreign'.apart, fun t member => apart t (List.mem_cons_of_mem _ member)⟩

end Holds

end Page

/-! ## Stages -/

open Page

namespace Import

/-- The progress of an import that has not begun. -/
def unstarted (i : Import) : Progress := .unstarted i.runtime i.chunks i.module

/-- The progress of an import that waits for what it has asked for. -/
def waiting (i : Import) (asked : Contributions) : Progress :=
  .importing i.runtime (asked.map (·.2)) i.module

/-- The task of an import that asks for the remaining chunks, and then looks. -/
def loading (i : Import) (rest : List ChunkId) (asked : Contributions) : Task :=
  .load i.future i.runtime rest (asked.map (·.2)) i.module

/-- What ends a poll of an import is still to be done, or the import is not being polled. -/
inductive Polling (i : Import) : Bool → List Task → Prop where
  | not : Polling i false []
  | still (settledAny : Bool) : Polling i true [.polled i.future settledAny]

/-- An import looks at what it waits for and finds that all is there: what was contributed to its chunks has
ended well, the chunks that a script handler serves are loaded, and its module has a factory. -/
structure Succeeds (i : Import) (asked : Contributions) (g : FactoryId) (p : Page) : Prop where
  looks : ∃ base, p.agenda = i.loading [] asked :: base
  all : asked.map (·.1) = i.chunks
  joined : ∀ a ∈ asked, p.joined a.2 = some .ok
  loaded : ∀ c ∈ i.chunks, ∀ only, .script only ∈ (p.runtime i.runtime).handlers →
    Handler.serves only c → (p.store i.runtime).state c = .loaded
  factory : (p.store i.runtime).factory? i.module = some g

/-- The import has looked and found that all is there, before it did anything. -/
def Succeeded (i : Import) (p : Page) (ms : List Move) (g : FactoryId) : Prop :=
  ∃ before later, ms = before ++ .task :: later ∧ p.along (deeds i.future) before = [] ∧
    i.Succeeds (p.along (contributions i.future) before) g (p.follow before)

/-- What was contributed to each chunk covers the script handlers. -/
def Covers (i : Import) (p : Page) (asked : Contributions) : Prop :=
  ∀ a ∈ asked, p.Covered i.runtime a.1 [] a.2

/-- What an import has done when it has ended. -/
inductive Ended (i : Import) (p : Page) (ms : List Move) : List Event → LoadResult → Prop where
  | ok {g : FactoryId} (succeeded : i.Succeeded p ms g) (name : Option String) (module : ModuleId)
      (key : Option String) :
    Ended i p ms [.executed i.runtime name g module key, .settled i.name .ok] .ok
  | failed {before later : List Move} (split : ms = before ++ .task :: later) (e : LoadError) :
    Ended i p ms [.reported i.runtime ((p.follow before).runtime i.runtime).sink e,
      .settled i.name (.failed e)] (.failed e)

/-- How far an import has come after a run: what it has asked for and what it has done until then, its
future, and what is still to be done for it. -/
inductive Phase (i : Import) (p : Page) (ms : List Move) :
    Contributions → List Event → Future → List Task → Prop where
  | unstarted : Phase i p ms [] [] ⟨i.name, i.unstarted, false⟩ []
  | asking {asked : Contributions} {rest : List ChunkId} {progress : Progress} (settledAny : Bool)
      (split : asked.map (·.1) ++ rest = i.chunks)
      (first : progress = i.unstarted ∨ rest = [] ∧ progress = i.waiting asked) :
    Phase i p ms asked [] ⟨i.name, progress, true⟩
      [i.loading rest asked, .polled i.future settledAny]
  | gathering {asked : Contributions} {c : ChunkId} {rest : List ChunkId} {handlers : List Handler}
      {got : List Awaited} (settledAny : Bool) (split : asked.map (·.1) ++ c :: rest = i.chunks)
      (covered : (p.follow ms).Covered i.runtime c handlers got) :
    Phase i p ms asked [] ⟨i.name, i.unstarted, true⟩
      [.gather i.runtime c handlers got (.importing i.future rest (asked.map (·.2)) i.module),
        .polled i.future settledAny]
  | waiting {asked : Contributions} {polling : Bool} {own : List Task}
      (all : asked.map (·.1) = i.chunks) (poll : i.Polling polling own) :
    Phase i p ms asked [] ⟨i.name, i.waiting asked, polling⟩ own
  | running {asked : Contributions} {g : FactoryId} (settledAny : Bool)
      (succeeded : i.Succeeded p ms g) :
    Phase i p ms asked [] ⟨i.name, i.waiting asked, true⟩
      [.execute i.runtime g, .settle i.future i.runtime .ok, .polled i.future settledAny]
  | run {asked : Contributions} {g : FactoryId} (settledAny : Bool) (succeeded : i.Succeeded p ms g)
      (name : Option String) (module : ModuleId) (key : Option String) :
    Phase i p ms asked [.executed i.runtime name g module key] ⟨i.name, i.waiting asked, true⟩
      [.settle i.future i.runtime .ok, .polled i.future settledAny]
  | ended {asked : Contributions} {deeds : List Event} {result : LoadResult} {polling : Bool}
      {own : List Task} (ended : i.Ended p ms deeds result) (poll : i.Polling polling own) :
    Phase i p ms asked deeds ⟨i.name, .settled result, polling⟩ own

/-- The stage of an import after a run. -/
def Stage (i : Import) (p : Page) (ms : List Move) : Prop :=
  i.Covers (p.follow ms) (p.along (contributions i.future) ms) ∧
  ∃ future own, i.Phase p ms (p.along (contributions i.future) ms) (p.along (deeds i.future) ms)
    future own ∧ Holds i.future future own (p.follow ms)

/-- What an import has asked for and done after a run on a page. -/
structure Stands (i : Import) (p : Page) (ms : List Move) (asked : Contributions) (done : List Event) :
    Prop where
  reachable : p.Reachable
  inRange : i.runtime < (p.follow ms).runtimes.length
  given : p.along (contributions i.future) ms = asked
  done : p.along (deeds i.future) ms = done
  covers : i.Covers (p.follow ms) asked

variable {i : Import} {p : Page} {ms : List Move} {m : Move} {g : FactoryId} {asked : Contributions}
  {done : List Event} {now : Future} {own : List Task}

theorem follow_concat (p : Page) (ms : List Move) (m : Move) : p.follow (ms ++ [m]) = (p.follow ms).make m :=
  follow_append p ms [m]

theorem Succeeded.concat (succeeded : i.Succeeded p ms g) (m : Move) : i.Succeeded p (ms ++ [m]) g := by
  obtain ⟨before, later, rfl, idle, succeeds⟩ := succeeded
  exact ⟨before, later ++ [m], by simp, idle, succeeds⟩

/-- The factory that was found can be run ever after. -/
theorem Succeeded.factory_made (succeeded : i.Succeeded p ms g) (h : p.Reachable) :
    ∃ factory, (p.follow ms).factories[g]? = some factory := by
  obtain ⟨before, later, rfl, -, succeeds⟩ := succeeded
  have held := (h.follow before).factory_follow succeeds.factory (.task :: later)
  rw [← follow_append] at held
  exact ⟨_, List.getElem?_eq_getElem ((h.follow _).known held)⟩

theorem Ended.concat {result : LoadResult} (ended : i.Ended p ms done result) (m : Move) :
    i.Ended p (ms ++ [m]) done result := by
  cases ended with
  | ok succeeded name module key => exact .ok (succeeded.concat m) name module key
  | @failed before later split e =>
    have split : ms ++ [m] = before ++ .task :: (later ++ [m]) := by simp [split]
    exact .failed split e

theorem Stands.covered_make (stands : i.Stands p ms asked done) {c : ChunkId} {handlers : List Handler}
    {got : List Awaited} (covered : (p.follow ms).Covered i.runtime c handlers got) (m : Move) :
    (p.follow (ms ++ [m])).Covered i.runtime c handlers got := by
  rw [follow_concat]
  exact covered.make (stands.reachable.follow ms) stands.inRange m

/-- A move that is not made for an import leaves it in its phase. -/
theorem Phase.concat (phase : i.Phase p ms asked done now own) (stands : i.Stands p ms asked done)
    (m : Move) : i.Phase p (ms ++ [m]) asked done now own := by
  cases phase with
  | unstarted => exact .unstarted
  | asking settledAny split first => exact .asking settledAny split first
  | gathering settledAny split covered =>
    exact .gathering settledAny split (stands.covered_make covered m)
  | waiting all poll => exact .waiting all poll
  | running settledAny succeeded => exact .running settledAny (succeeded.concat m)
  | run settledAny succeeded name module key =>
    exact .run settledAny (succeeded.concat m) name module key
  | ended ended poll => exact .ended (ended.concat m) poll

/-! ## From stage to stage -/

variable {cs : Contributions} {ds : List Event}

/-- What a move does for an import is added to what was done before. -/
theorem Stands.stage (stands : i.Stands p ms asked done)
    (gives : (p.follow ms).contributions i.future m = cs) (new : i.Covers (p.follow (ms ++ [m])) cs)
    (does : (p.follow ms).deeds i.future m = ds)
    (phase : i.Phase p (ms ++ [m]) (asked ++ cs) (done ++ ds) now own)
    (holds : Holds i.future now own ((p.follow ms).make m)) : i.Stage p (ms ++ [m]) := by
  have all : p.along (contributions i.future) (ms ++ [m]) = asked ++ cs := by
    rw [along_concat, stands.given, gives]
  refine ⟨?_, now, own, ?_, follow_concat p ms m ▸ holds⟩
  · rw [all]
    exact List.forall_mem_append.mpr ⟨fun a among => stands.covered_make (stands.covers a among) m, new⟩
  · rw [all, along_concat, stands.done, does]
    exact phase

/-- A move that hands over no contributions leaves those that were given. -/
theorem Stands.stage_of_silent (stands : i.Stands p ms asked done)
    (gives : (p.follow ms).contributions i.future m = []) (does : (p.follow ms).deeds i.future m = ds)
    (phase : i.Phase p (ms ++ [m]) asked (done ++ ds) now own)
    (holds : Holds i.future now own ((p.follow ms).make m)) : i.Stage p (ms ++ [m]) := by
  refine stands.stage gives (List.forall_mem_nil _) does ?_ holds
  rw [List.append_nil]
  exact phase

/-- A move that is not made for an import leaves it where it is. -/
theorem Stands.idle (stands : i.Stands p ms asked done) (phase : i.Phase p ms asked done now own)
    (gives : contributions i.future (p.follow ms) m = [])
    (does : (p.follow ms).worksFor i.future m = false)
    (holds : Holds i.future now own ((p.follow ms).make m)) : i.Stage p (ms ++ [m]) := by
  refine stands.stage_of_silent gives (deeds_of_not_works does) ?_ holds
  rw [List.append_nil]
  exact phase.concat stands m

/-- An import whose tasks are on top of the agenda. -/
structure AtHand (i : Import) (p : Page) (ms : List Move) (asked : Contributions) (done : List Event)
    (now : Future) (own base : List Task) : Prop extends i.Stands p ms asked done where
  there : (p.follow ms).futures[i.future]? = some now
  agenda : (p.follow ms).agenda = own ++ base
  apart : ∀ t ∈ base, t.serves i.future = false

namespace AtHand

variable {base : List Task} {now' : Future} {c : ChunkId} {rest : List ChunkId} {got : List Awaited}
  {handlers : List Handler} {settledAny : Bool}

/-- The task at hand leads to the stage of the phase that it leaves. -/
theorem comes (hand : i.AtHand p ms asked done now own base) (own' : List Task)
    (there : ((p.follow ms).make .task).futures[i.future]? = some now')
    (agenda : ((p.follow ms).make .task).agenda = own' ++ base)
    (gives : contributions i.future (p.follow ms) .task = [])
    (does : deeds i.future (p.follow ms) .task = ds)
    (phase : i.Phase p (ms ++ [.task]) asked (done ++ ds) now' own') : i.Stage p (ms ++ [.task]) :=
  hand.stage_of_silent gives does phase (.now own' there agenda hand.apart)

/-- It asks for the next chunk. -/
theorem ask (hand : i.AtHand p ms asked [] ⟨i.name, i.unstarted, true⟩
      [i.loading (c :: rest) asked, .polled i.future settledAny] base)
    (split : asked.map (·.1) ++ c :: rest = i.chunks) : i.Stage p (ms ++ [.task]) := by
  have gives : contributions i.future (p.follow ms) .task = [] := by
    simp [contributions, hand.agenda, loading]
  obtain ⟨handlers, got, agenda, futures, log, covered⟩ := make_load_cons hand.agenda
  rw [← follow_concat] at covered
  refine hand.comes [_, _] (futures ▸ hand.there) agenda gives (deeds_of_silent log) ?_
  exact .gathering settledAny split covered

/-- It asks the next handler. -/
theorem gather {handler : Handler} (hand : i.AtHand p ms asked [] ⟨i.name, i.unstarted, true⟩
      [.gather i.runtime c (handler :: handlers) got
        (.importing i.future rest (asked.map (·.2)) i.module), .polled i.future settledAny] base)
    (split : asked.map (·.1) ++ c :: rest = i.chunks)
    (covered : (p.follow ms).Covered i.runtime c (handler :: handlers) got) :
    i.Stage p (ms ++ [.task]) := by
  have gives : contributions i.future (p.follow ms) .task = [] := by simp [contributions, hand.agenda]
  obtain ⟨⟨ts, foreign, agenda⟩, futures, es, none, log⟩ :=
    make_gather_cons (f := i.future) hand.agenda
  have does := deeds_of_log (f := i.future) es log
    (worksFor_of_serves hand.agenda (by simp [Task.serves]))
  rw [none] at does
  have inside := (List.getElem?_eq_some_iff.mp hand.there).1
  -- What the handler asks for comes first.
  have holds : Holds i.future ⟨i.name, i.unstarted, true⟩
      [.gather i.runtime c handlers (got ++ (p.follow ms).gives i.runtime c handler)
        (.importing i.future rest (asked.map (·.2)) i.module), .polled i.future settledAny]
      ((p.follow ms).make .task) :=
    ⟨(futures inside).trans hand.there, ts, base, by rw [agenda]; simp, foreign, hand.apart⟩
  refine hand.stage_of_silent gives does (.gathering settledAny split ?_) holds
  rw [follow_concat]
  exact covered.asked (hand.reachable.follow ms) hand.agenda

/-- It gets what the handlers contributed. -/
theorem gathered (hand : i.AtHand p ms asked [] ⟨i.name, i.unstarted, true⟩
      [.gather i.runtime c [] got (.importing i.future rest (asked.map (·.2)) i.module),
        .polled i.future settledAny] base)
    (split : asked.map (·.1) ++ c :: rest = i.chunks)
    (covered : (p.follow ms).Covered i.runtime c [] got) : i.Stage p (ms ++ [.task]) := by
  have gives : contributions i.future (p.follow ms) .task = [(c, got)] := by
    simp [contributions, hand.agenda]
  obtain ⟨agenda, futures, log⟩ := make_gather_nil hand.agenda
  have holds : Holds i.future ⟨i.name, i.unstarted, true⟩
      [i.loading rest (asked ++ [(c, got)]), .polled i.future settledAny]
      ((p.follow ms).make .task) := by
    refine .now _ (futures ▸ hand.there) ?_ hand.apart
    rw [agenda]
    simp [loading]
  refine hand.stage gives (List.forall_mem_singleton.mpr (hand.covered_make covered .task))
    (deeds_of_silent log) ?_ holds
  exact .asking settledAny (by simpa using split) (.inl rfl)

/-- It looks, and finds that all is there. -/
theorem succeeds {progress : Progress} (hand : i.AtHand p ms asked [] ⟨i.name, progress, true⟩
      [i.loading [] asked, .polled i.future settledAny] base)
    (all : asked.map (·.1) = i.chunks)
    (joined : Join.all ((asked.map (·.2)).map (p.follow ms).joined) = some .ok)
    (factory : ((p.follow ms).store i.runtime).factory? i.module = some g) :
    i.Succeeds asked g (p.follow ms) := by
  have ended : ∀ a ∈ asked, (p.follow ms).joined a.2 = some .ok := fun a member =>
    Join.all_eq_ok.mp joined _ (List.mem_map_of_mem (List.mem_map_of_mem member))
  refine ⟨⟨_, hand.agenda⟩, all, ended, fun c member only handled serves => ?_, factory⟩
  rw [← all] at member
  obtain ⟨a, among, rfl⟩ := List.mem_map.mp member
  exact (hand.covers a among).loaded (hand.reachable.follow ms) (ended a among) handled serves

/-- It looks at what it waits for. -/
theorem look {progress : Progress} (hand : i.AtHand p ms asked [] ⟨i.name, progress, true⟩
      [i.loading [] asked, .polled i.future settledAny] base)
    (all : asked.map (·.1) = i.chunks) (held : ∀ r, progress.holds r → r = i.runtime) :
    i.Stage p (ms ++ [.task]) := by
  have gives : contributions i.future (p.follow ms) .task = [] := by
    simp [contributions, hand.agenda, loading]
  have works : (p.follow ms).worksFor i.future .task :=
    worksFor_of_serves hand.agenda (by simp [loading, Task.serves])
  rcases make_load_nil hand.agenda hand.there held with
    ⟨-, agenda, there, log⟩ | ⟨g, joined, factory, agenda, there, log⟩ | ⟨e, -, agenda, there, log⟩
  · -- It goes on waiting.
    refine hand.comes [_] there agenda gives (deeds_of_silent log) ?_
    exact .waiting all (.still settledAny)
  · -- It is about to run its module.
    have succeeds := hand.succeeds all joined factory
    refine hand.comes [_, _, _] there agenda gives (deeds_of_silent log) ?_
    exact .running settledAny ⟨ms, [], rfl, hand.done, hand.given ▸ succeeds⟩
  · -- It has failed.
    have does := deeds_of_log [.reported i.runtime _ e, .settled i.name (.failed e)] log works
    refine hand.comes [_] there agenda gives does ?_
    exact .ended (.failed rfl e) (.still settledAny)

/-- It runs its module. -/
theorem execute (hand : i.AtHand p ms asked [] ⟨i.name, i.waiting asked, true⟩
      [.execute i.runtime g, .settle i.future i.runtime .ok, .polled i.future settledAny] base)
    (succeeded : i.Succeeded p ms g) : i.Stage p (ms ++ [.task]) := by
  have gives : contributions i.future (p.follow ms) .task = [] := by simp [contributions, hand.agenda]
  have works : (p.follow ms).worksFor i.future .task := by simp [worksFor, hand.agenda]
  obtain ⟨factory, made⟩ := succeeded.factory_made hand.reachable
  obtain ⟨⟨script, agenda⟩, futures, log⟩ := make_execute hand.agenda made
  have does := deeds_of_log [.executed i.runtime _ _ factory.module factory.key] log works
  -- The commands of the factory come first.
  have holds : Holds i.future ⟨i.name, i.waiting asked, true⟩
      [.settle i.future i.runtime .ok, .polled i.future settledAny] ((p.follow ms).make .task) :=
    ⟨futures ▸ hand.there, _, base, by rw [agenda]; simp, Spares.script script, hand.apart⟩
  exact hand.stage_of_silent gives does (.run settledAny (succeeded.concat .task) _ _ _) holds

/-- It ends well after its module has run. -/
theorem settle {runs : Option String} {module : ModuleId} {key : Option String}
    (hand : i.AtHand p ms asked [.executed i.runtime runs g module key]
      ⟨i.name, i.waiting asked, true⟩
      [.settle i.future i.runtime .ok, .polled i.future settledAny] base)
    (succeeded : i.Succeeded p ms g) : i.Stage p (ms ++ [.task]) := by
  have gives : contributions i.future (p.follow ms) .task = [] := by simp [contributions, hand.agenda]
  obtain ⟨agenda, there, log⟩ := make_settle hand.agenda hand.there
  have does := deeds_of_log (f := i.future) [.settled i.name .ok] log
    (worksFor_of_serves hand.agenda (by simp [Task.serves]))
  refine hand.comes [_] there agenda gives does ?_
  exact .ended (.ok (succeeded.concat .task) runs module key) (.still settledAny)

/-- Its poll ends. -/
theorem polled {progress : Progress} (hand : i.AtHand p ms asked done ⟨i.name, progress, true⟩
      [.polled i.future settledAny] base)
    (phase : i.Phase p (ms ++ [.task]) asked done ⟨i.name, progress, false⟩ []) :
    i.Stage p (ms ++ [.task]) := by
  have gives : contributions i.future (p.follow ms) .task = [] := by simp [contributions, hand.agenda]
  obtain ⟨⟨settledAny', agenda⟩, there, log⟩ := make_polled hand.agenda hand.there
  have apart : ∀ t ∈ Task.pass (i.future + 1) settledAny' :: base, t.serves i.future = false :=
    List.forall_mem_cons.mpr ⟨rfl, hand.apart⟩
  refine hand.stage_of_silent gives (deeds_of_silent log) ?_ (.now [] there agenda apart)
  rw [List.append_nil]
  exact phase

/-- **An import that is at hand comes to its next stage.** -/
theorem next (hand : i.AtHand p ms asked done now own base) (phase : i.Phase p ms asked done now own)
    (some : own ≠ []) : i.Stage p (ms ++ [.task]) := by
  cases phase with
  | unstarted => exact absurd rfl some
  | @asking asked rest progress settledAny split first =>
    cases rest with
    | cons c rest =>
      -- There are chunks left to ask for, or the import looks at once.
      obtain rfl : progress = i.unstarted := first.resolve_right fun both => List.cons_ne_nil _ _ both.1
      exact hand.ask split
    | nil =>
      refine hand.look (by simpa using split) ?_
      rcases first with rfl | ⟨-, rfl⟩ <;>
        simp [Import.unstarted, Import.waiting, Progress.holds, eq_comm]
  | @gathering asked c rest handlers got settledAny split covered =>
    cases handlers with
    | nil => exact hand.gathered split covered
    | cons handler handlers => exact hand.gather split covered
  | waiting all poll =>
    cases poll with
    | not => exact absurd rfl some
    | still settledAny => exact hand.polled (.waiting all .not)
  | running settledAny succeeded => exact hand.execute succeeded
  | run settledAny succeeded => exact hand.settle succeeded
  | ended ended poll =>
    cases poll with
    | not => exact absurd rfl some
    | still settledAny => exact hand.polled (.ended (ended.concat .task) .not)

end AtHand

/-- A pass that comes to an import that waits begins to poll it. -/
theorem Stands.begins {base : List Task} {settledAny : Bool} (stands : i.Stands p ms asked done)
    (phase : i.Phase p ms asked done now own) (holds : Holds i.future now own (p.follow ms))
    (agenda : (p.follow ms).agenda = .pass i.future settledAny :: base)
    (idle : now.polling = false) (unsettled : now.progress.isSettled = false) :
    i.Stage p (ms ++ [.task]) := by
  have gives : contributions i.future (p.follow ms) .task = [] := by simp [contributions, agenda]
  have below (none : own = []) : ∀ t ∈ base, t.serves i.future = false := by
    subst none
    exact (List.forall_mem_cons.mp (agenda ▸ holds.apart)).2
  cases phase with
  | unstarted =>
    obtain ⟨agenda', there', log⟩ := make_pass agenda holds.future idle (.inl ⟨rfl, rfl⟩)
    refine stands.stage_of_silent gives (deeds_of_silent log) ?_
      (.now [i.loading i.chunks [], .polled i.future settledAny] there' agenda' (below rfl))
    exact .asking settledAny rfl (.inl rfl)
  | waiting all poll =>
    cases poll with
    | still => cases idle
    | not =>
      obtain ⟨agenda', there', log⟩ := make_pass agenda holds.future idle (.inr ⟨rfl, rfl⟩)
      refine stands.stage_of_silent gives (deeds_of_silent log) ?_
        (.now [i.loading [] asked, .polled i.future settledAny] there' agenda' (below rfl))
      exact .asking settledAny (by simpa using all) (.inr ⟨rfl, rfl⟩)
  | ended ended poll => cases unsettled
  | _ => cases idle

/-- **Every move leads an import from stage to stage.** -/
theorem Stage.make (stage : i.Stage p ms) (reachable : p.Reachable)
    (inRange : i.runtime < p.runtimes.length) (m : Move) : i.Stage p (ms ++ [m]) := by
  obtain ⟨covers, now, own, phase, holds⟩ := stage
  have stands : i.Stands p ms _ _ := ⟨reachable, reachable.inRange_follow inRange ms, rfl, rfl, covers⟩
  cases m with
  | call command nested =>
    exact stands.idle phase rfl rfl
      (holds.spared (.pushed (Spares.performing command nested) rfl rfl rfl))
  | poll next =>
    exact stands.idle phase rfl rfl (holds.spared (.pushed (Spares.passing next false) rfl rfl rfl))
  | task =>
    rcases holds.head with
      ⟨base, agenda, some, apart⟩ | agenda | ⟨t, rest, agenda, apart, idle, spared⟩
    · have hand : i.AtHand p ms _ _ now own base := ⟨stands, holds.future, agenda, apart⟩
      exact hand.next phase some
    · -- Nothing is to be done at all.
      have still : (p.follow ms).make .task = p.follow ms := by simp [Page.make, step, agenda]
      exact stands.idle phase (by simp [contributions, agenda]) (by simp [worksFor, agenda])
        (still.symm ▸ holds)
    · by_cases begins : (∃ settledAny, t = .pass i.future settledAny) ∧
          now.polling = false ∧ now.progress.isSettled = false
      · obtain ⟨⟨settledAny, rfl⟩, unpolled, unsettled⟩ := begins
        exact stands.begins phase holds agenda unpolled unsettled
      · -- The task leaves the import alone.
        have rests : ∀ settledAny, t = .pass i.future settledAny → ∀ future,
            (p.follow ms).rest.futures[i.future]? = Option.some future →
              future.polling ∨ future.progress.isSettled := by
          intro settledAny pass future there
          obtain rfl : now = future := Option.some.inj (holds.future.symm.trans there)
          by_contra neither
          rw [not_or, Bool.not_eq_true, Bool.not_eq_true] at neither
          exact begins ⟨⟨settledAny, pass⟩, neither⟩
        have spares := Spares.act apart rests
        rw [← make_task agenda] at spares
        exact stands.idle phase (contributions_of_apart agenda apart) idle (spared _ spares)

theorem Stage.follow (stage : i.Stage p []) (h : p.Reachable) (inRange : i.runtime < p.runtimes.length)
    (ms : List Move) : i.Stage p ms := by
  -- A stage speaks of the whole run, so the run grows at its end.
  induction ms using List.reverseRecOn with
  | nil => exact stage
  | append_singleton ms m ih => exact ih.make h inRange m

end Import

namespace Page

variable {p : Page} {f : FutureId} {r : RuntimeId}

/-! ## The beginning of an import -/

/-- The import that is made when a page is asked for one now. -/
def newImport (p : Page) (r : RuntimeId) (chunks : List ChunkId) (module : ModuleId)
    (label : Option String) : Import where
  future := p.futures.length
  name := (p.addFuture label (.unstarted r chunks module)).1
  runtime := r
  chunks := chunks
  module := module

theorem Reachable.stage_new (h : p.Reachable) {name : String} (named : p.names.get? name = some r)
    {chunks : List ChunkId} {module : ModuleId} {label : Option String} {nested : Bool}
    {ts : List Task} (agenda : p.agenda = .perform (.load name chunks module label) nested :: ts) :
    (p.newImport r chunks module label).Stage (p.make .task) [] := by
  have made : p.make .task = p.rest.perform nested (.load name chunks module label) := make_task agenda
  have found : p.rest.names.get? name = some r := named
  have begun : p.make .task = (p.rest.addFuture label (.unstarted r chunks module)).2.answerWith nested
      (.text (p.rest.addFuture label (.unstarted r chunks module)).1) := by
    rw [made]
    simp only [perform, withRuntime, found]
  have there : (p.make .task).futures[p.futures.length]? =
      some ⟨(p.newImport r chunks module label).name, .unstarted r chunks module, false⟩ := by
    rw [begun]
    exact List.getElem?_concat_length
  have apart : ∀ t ∈ (p.make .task).agenda, t.serves p.futures.length = false := by
    rw [begun]
    refine List.forall_mem_cons.mpr ⟨rfl, fun t member => ?_⟩
    exact h.serves_inRange _ (Nat.le_refl _) t (List.mem_of_mem_tail member)
  exact ⟨List.forall_mem_nil _, _, [], .unstarted, .now [] there rfl apart⟩

/-- Whatever happens on the page after an import was asked for, the import is at some stage. -/
theorem Reachable.stage_follow (h : p.Reachable) {name : String} (named : p.names.get? name = some r)
    {chunks : List ChunkId} {module : ModuleId} {label : Option String} {nested : Bool}
    {ts : List Task} (agenda : p.agenda = .perform (.load name chunks module label) nested :: ts)
    (ms : List Move) : (p.newImport r chunks module label).Stage (p.make .task) ms := by
  have inRange : r < p.runtimes.length := h.sound.inRange r (alive_of_name named)
  exact .follow (h.stage_new named agenda) (.make .task h)
    (Nat.lt_of_lt_of_le inRange (h.turn .task).count) ms

/-- **How imports end.** Whatever happens on the page after an import was asked for: if it ends well, it has
looked before at what it waits for and found that all is there, the contributions to each of its chunks
ended well, the chunks that a script handler serves loaded and a factory for its module merged; since then it
has run that factory, once, and reported nothing. If it fails, it has handed that failure to the sink of its
runtime, once, and run nothing. As long as it has not ended it has reported nothing, and run nothing unless
its module runs right now. -/
theorem Reachable.imported (h : p.Reachable) {name : String} (named : p.names.get? name = some r)
    {chunks : List ChunkId} {module : ModuleId} {label : Option String} {nested : Bool}
    {ts : List Task} (agenda : p.agenda = .perform (.load name chunks module label) nested :: ts)
    (ms : List Move) :
    let i := p.newImport r chunks module label
    let begun := p.make .task
    let done := begun.along (deeds i.future) ms
    ∃ progress polling, (begun.follow ms).futures[i.future]? = some ⟨i.name, progress, polling⟩ ∧
    (progress = .settled .ok → ∃ before later g runs ran key, ms = before ++ .task :: later ∧
      begun.along (deeds i.future) before = [] ∧
      i.Succeeds (begun.along (contributions i.future) before) g (begun.follow before) ∧
      done = [.executed r runs g ran key, .settled i.name .ok]) ∧
    (∀ e, progress = .settled (.failed e) → ∃ before later, ms = before ++ .task :: later ∧
      done = [.reported r ((begun.follow before).runtime r).sink e, .settled i.name (.failed e)]) ∧
    (progress.isSettled = false → done = [] ∨ ∃ g runs ran key,
      done = [.executed r runs g ran key] ∧ .settle i.future r .ok ∈ (begun.follow ms).agenda) := by
  intro i begun done
  obtain ⟨-, now, own, phase, holds⟩ := h.stage_follow named agenda ms
  obtain ⟨above, base, agenda', -, -⟩ := holds.agenda
  have there := holds.future
  generalize begun.along (contributions i.future) ms = asked at phase
  generalize total : begun.along (deeds i.future) ms = ds at phase
  have total : done = ds := total
  cases phase with
  | unstarted => exact ⟨_, _, there, nofun, nofun, fun _ => .inl total⟩
  | asking settledAny split first =>
    rcases first with rfl | ⟨-, rfl⟩
    · exact ⟨_, _, there, nofun, nofun, fun _ => .inl total⟩
    · exact ⟨_, _, there, nofun, nofun, fun _ => .inl total⟩
  | gathering => exact ⟨_, _, there, nofun, nofun, fun _ => .inl total⟩
  | waiting => exact ⟨_, _, there, nofun, nofun, fun _ => .inl total⟩
  | running => exact ⟨_, _, there, nofun, nofun, fun _ => .inl total⟩
  | run settledAny succeeded runs ran key =>
    refine ⟨_, _, there, nofun, nofun, fun _ => .inr ⟨_, runs, ran, key, total, ?_⟩⟩
    rw [agenda']
    simp [i, newImport]
  | ended result poll =>
    cases result with
    | ok succeeded runs ran key =>
      obtain ⟨before, later, split, idle, succeeds⟩ := succeeded
      refine ⟨_, _, there, fun _ => ?_, nofun, nofun⟩
      exact ⟨before, later, _, runs, ran, key, split, idle, succeeds, total⟩
    | @failed before later split e =>
      refine ⟨_, _, there, nofun, fun e' same => ?_, nofun⟩
      cases same
      exact ⟨before, later, split, total⟩

/-- A page that is asked to import a chunk, named twice, that has been delivered with the module. -/
def importing : Page :=
  ((fresh [] []).giveAll
    [.create "main" (.ok .standard) none, .install "main" "chunks",
      .push "chunks" ⟨[.number 7], [⟨.number 5, none, []⟩], [], []⟩]).make
    (.call (.load "main" [.number 7, .number 7] (.number 5) none) false)

theorem imported_delivered : ∃ g runs ran key,
    (importing.make .task).along (deeds 0) (.poll 0 :: List.replicate 16 .task) =
      [.executed 0 runs g ran key, .settled "f0" .ok] := by
  have reachable : importing.Reachable := .make _ ((Reachable.fresh _ _).giveAll _)
  have named : importing.names.get? "main" = some 0 := rfl
  obtain ⟨progress, polling, there, ok, -, -⟩ := Reachable.imported reachable named rfl
    (.poll 0 :: List.replicate 16 .task)
  have ended : some (⟨"f0", .settled .ok, false⟩ : Future) = some ⟨_, progress, polling⟩ := there
  obtain ⟨before, later, g, runs, ran, key, -, -, -, done⟩ :=
    ok (congrArg Future.progress (Option.some.inj ended)).symm
  exact ⟨g, runs, ran, key, done⟩

end Page

end ChunkLoading
