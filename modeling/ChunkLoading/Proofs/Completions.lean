import ChunkLoading.Proofs.Settlement
import ChunkLoading.Proofs.Views

/-!
# Reports on resources

The host reports how the resource of a request ended: whenever it likes, as often as it likes, and also
when nobody waits for the resource any more. A report ends the one attempt that its request was made for,
if that is still under way, and otherwise changes nothing (`Reachable.reported`).
-/

namespace ChunkLoading

/-! ## The numbers of requests -/

/-- The resource request that an event tells of, with its number. -/
def Event.order? : Event → Option (Nat × Request)
  | .injected number q => some (number, q)
  | _ => none

/-- The resource requests of a page: all of them, by which a report finds its request, and those that
events tell of, the newest first. -/
structure Orders where
  requests : List Request
  told : List (Nat × Request)

namespace Orders

/-- Events tell of each request under the number by which a report finds it. -/
def Numbered (o : Orders) : Prop := ∀ number q, (number, q) ∈ o.told ↔ o.requests[number]? = some q

/-- What a move can do to the requests. -/
inductive Step (o : Orders) : Orders → Prop where
  | same : Step o o
  | injected (q : Request) : Step o ⟨o.requests ++ [q], (o.requests.length, q) :: o.told⟩

theorem Step.numbered {o o' : Orders} (step : o.Step o') (numbered : o.Numbered) : o'.Numbered := by
  cases step with
  | same => exact numbered
  | injected q =>
    intro number q'
    rw [List.mem_cons, numbered, List.getElem?_append, List.getElem?_singleton, Prod.mk.injEq]
    by_cases old : number < o.requests.length
    · simp [old, Nat.ne_of_lt old]
    · have none : o.requests[number]? = none := List.getElem?_eq_none (Nat.le_of_not_lt old)
      by_cases new : number = o.requests.length
      · simp [new, eq_comm]
      · have beyond : number - o.requests.length ≠ 0 := by omega
        simp [old, new, beyond]

theorem Step.found {o o' : Orders} (step : o.Step o') {number : Nat} {q : Request}
    (found : o.requests[number]? = some q) : o'.requests[number]? = some q := by
  cases step with
  | same => exact found
  | injected q' => exact (List.getElem?_append_left (List.getElem?_eq_some_iff.mp found).1).trans found

end Orders

namespace Page

variable {p : Page} {r : RuntimeId}

def orders (p : Page) : Orders := ⟨p.requests, p.log.filterMap Event.order?⟩

theorem orders_note_beside {es : List Event} (beside : ∀ e ∈ es, e.order? = none) :
    (p.note es).orders = p.orders := by
  have none : es.reverse.filterMap Event.order? = [] :=
    List.filterMap_eq_nil_iff.mpr fun e member => beside e (List.mem_reverse.mp member)
  simp [orders, note, none]

theorem view_orders : View orders where
  call _ := rfl
  note inner := orders_note_beside fun e member => by
    have inner := inner e member
    cases e <;> first | rfl | cases inner
  runtime _ := rfl
  frame _ _ _ _ _ := rfl

theorem orders_merge (p : Page) (r : RuntimeId) (d : Delivery) : (p.merge r d).orders = p.orders := by
  refine orders_note_beside (p := p.setStore r _) fun e member => ?_
  rcases List.mem_cons.mp member with rfl | member
  · rfl
  · obtain ⟨c, -, rfl⟩ := List.mem_map.mp member
    rfl

theorem orders_observe (p : Page) (x : ExtensionId) (d : Delivery) :
    (p.observe x d).orders = p.orders := by
  unfold observe
  split
  · rfl
  · rename_i describes script found
    refine (view_orders.callScript ..).trans (orders_note_beside ?_)
    cases describes <;> simp [Event.order?]
  · rfl

theorem orders_hint (p : Page) (r : RuntimeId) (c : ChunkId) (kind : HintKind) :
    (p.hint r c kind).orders = p.orders := by
  unfold hint
  split
  · rfl
  · exact (view_orders.callScript ..).trans (orders_note_beside (by simp [Event.order?]))

/-- Modules that are made are no requests. -/
theorem orders_addModules (p : Page) (ms : List (ModuleSpec Command)) :
    (p.addModules ms).2.orders = p.orders := by
  rw [addModules_frame]
  rfl

theorem orders_ask (p : Page) (r : RuntimeId) (c : ChunkId) (caller : Caller) :
    (p.ask r c caller).orders = p.orders := by
  simp only [ask]
  split <;> rfl

/-- No command asks for a resource before anything that it calls. -/
theorem orders_perform (p : Page) (nested : Bool) (command : Command) :
    (p.perform nested command).orders = p.orders := by
  by_cases inner : command.isInner
  · exact view_orders.perform inner nested
  cases command with
  | create name plan extension =>
    simp only [perform]
    split
    · rename_i added
      obtain ⟨b, x, rt, -, frame⟩ := addRuntime_frame added
      rw [frame]
      rfl
    · rfl
  | install name queue =>
    refine view_orders.withRuntime fun r => ?_
    simp only [install]
    split <;> rfl
  | push queue spec => exact orders_addModules p spec.modules
  | ensure name c label => exact view_orders.withRuntime fun r => orders_ask ..
  | setExtension name spec =>
    -- An extension that is set, or taken away, asks for nothing by itself.
    cases spec with
    | none => exact view_orders.withRuntime fun r => rfl
    | some spec =>
      refine view_orders.withRuntime fun r => ?_
      split
      · rename_i added
        rw [addExtension_frame added]
        rfl
      · rfl
  | createBootstrap hot plan previous =>
    -- What a bootstrap builds is all kept beside the requests.
    obtain ⟨xs, bs, a, frame⟩ := createBootstrap_frame p nested hot plan previous
    rw [frame]
    rfl
  | observe hot spec =>
    simp only [perform]
    rw [view_orders.withBootstrap fun x b => by rfl]
    exact orders_addModules p spec.modules
  | applyManifest hot manifest =>
    refine view_orders.withBootstrap fun x b => ?_
    split <;> rfl
  | receive hot c modules =>
    simp only [perform]
    rw [view_orders.withBootstrap fun x b => by rfl]
    exact orders_addModules p modules
  | finish hot next runOn =>
    refine view_orders.withBootstrap fun x b => (view_orders.finishUpdate ..).trans ?_
    cases b.finish? next <;> rfl
  | _ => exact absurd rfl inner

/-- A script handler that is asked may ask the host for a resource. -/
theorem orders_gather (p : Page) (r : RuntimeId) (c : ChunkId) (handlers : List Handler)
    (got : List Awaited) (caller : Caller) :
    p.orders.Step (p.gather r c handlers got caller).orders := by
  have same {q : Page} (same : q.orders = p.orders) : p.orders.Step q.orders := same ▸ .same
  cases handlers with
  | nil => cases caller <;> exact same rfl
  | cons h rest =>
    cases h with
    | script only =>
      simp only [gather, gatherFrom]
      -- The chunk may be loaded, under way or still to be requested, if the handler serves it at all.
      split
      · split
        · exact same rfl
        · exact same rfl
        · exact .injected _
      · exact same rfl
    | noop => exact same rfl
    | preload children => exact same rfl
    | custom name only answer =>
      -- Whatever a handler of the application answers, it has only been asked.
      have asked (got : List Awaited) (serves : Bool) :
          ((p.call [.gather r c rest got caller]).note [.asked name c serves]).orders = p.orders :=
        orders_note_beside (by simp [Event.order?])
      simp only [gather, gatherFrom]
      split
      · split
        · exact same (asked ..)
        · split
          · exact same (asked ..)
          · exact same (asked _ true)
      · exact same (asked ..)

/-- A move asks the host for one more resource at most. -/
theorem orders_make (p : Page) (m : Move) : p.orders.Step (p.make m).orders := by
  have same {q : Page} (same : q.orders = p.orders) : p.orders.Step q.orders := same ▸ .same
  cases m with
  | call command nested => exact .same
  | poll next => exact .same
  | task =>
    cases agenda : p.agenda with
    | nil => exact same (by simp [make, step, agenda])
    | cons t ts =>
      have kept : p.rest.orders = p.orders := rfl
      rw [make_task agenda]
      cases t with
      | perform command nested => exact same (orders_perform p.rest nested command)
      | gather r c handlers got caller => exact orders_gather p.rest r c handlers got caller
      | hint r c kind => exact same (orders_hint p.rest r c kind)
      | merge r d => exact same (orders_merge p.rest r d)
      | observe x d => exact same (orders_observe p.rest x d)
      | load f r rest loads module =>
        cases rest with
        | cons c rest => exact same (orders_ask p.rest r c _)
        | nil => exact same (view_orders.load_nil p.rest f r loads module)
      | _ => exact same (view_orders.act rfl)

/-- The host knows each request by the number under which the page keeps it. -/
theorem Reachable.numbered (h : p.Reachable) : p.orders.Numbered := by
  induction h with
  | fresh onInject onHint => simp [Orders.Numbered, orders, Page.fresh]
  | make m h ih => exact (orders_make _ m).numbered ih

/-- The host reports on a request by the number under which it got the request. -/
theorem Reachable.injected_iff (h : p.Reachable) (number : Nat) (q : Request) :
    .injected number q ∈ p.log ↔ p.requests[number]? = some q := by
  refine Iff.trans ?_ (h.numbered number q)
  simp only [orders, List.mem_filterMap]
  constructor
  · intro member
    exact ⟨_, member, rfl⟩
  · rintro ⟨e, member, told⟩
    cases e with
    | injected number' q' =>
      obtain ⟨rfl, rfl⟩ := Prod.mk.inj (Option.some.inj told)
      exact member
    | _ => cases told

/-! ## Reports -/

/-- Whether the attempt that a request was made for is under way. -/
def UnderWay (p : Page) (q : Request) : Prop :=
  p.alive q.runtime ∧ (p.store q.runtime).state q.chunk = .loading q.attempt

instance (p : Page) (q : Request) : Decidable (p.UnderWay q) :=
  inferInstanceAs (Decidable (_ ∧ _))

/-- The host reports how the resource of a request ended, and the report is looked at. -/
def reporting (number : Nat) (e : ResourceEvent) (nested : Bool) : List Move :=
  [.call (.complete (.number number) e) nested, .task]

/-- What a report does that ends the attempt of a request with a failure. -/
structure Rejects (p : Page) (q : Request) (e : LoadError) (nested : Bool) (p' : Page) : Prop where
  /-- The chunk can be requested again, and no other chunk of any runtime is touched. -/
  state : ∀ r c, (p'.store r).state c =
    if r = q.runtime ∧ c = q.chunk then .notRequested else (p.store r).state c
  /-- The attempt had not ended before. -/
  pending : p.outcome (.attempt q.runtime q.chunk q.attempt) = none
  /-- Who waits for the attempt gets the failure, and nobody else gets anything. -/
  outcome : ∀ r c n, p'.outcome (.attempt r c n) =
    if r = q.runtime ∧ n = q.attempt then some (.failed e) else p.outcome (.attempt r c n)
  factories : ∀ r, (p'.store r).factories = (p.store r).factories
  worklist : ∀ r, (p'.runtime r).worklist = (p.runtime r).worklist
  /-- That is all, but for two events and the answer to the report. -/
  frame : p' = { p with
    runtimes := p.runtimes.modify q.runtime fun rt => { rt with
      store := (p.store q.runtime).reset q.chunk
      outcomes := rt.outcomes.set q.attempt (.failed e) }
    log := .resolved q.runtime q.chunk q.attempt (.failed e) ::
      .rejected q.runtime q.chunk q.attempt :: p.log
    agenda := .conclude (.chunk q.chunk) nested none :: p.agenda }

variable {number : Nat} {q : Request} {e : ResourceEvent} {nested : Bool}

theorem follow_reporting (found : p.requests[number]? = some q) (e : ResourceEvent) (nested : Bool) :
    p.follow (reporting number e nested) = (p.complete q e).answerWith nested (.chunk q.chunk) := by
  show p.perform nested (.complete (.number number) e) = _
  simp only [perform, request?, found]

/-- A report on an attempt that has ended finds nothing to do. -/
theorem complete_beside (beside : ¬ p.UnderWay q) (e : ResourceEvent) : p.complete q e = p := by
  unfold complete
  by_cases alive : p.alive q.runtime
  · have loading : (p.store q.runtime).state q.chunk ≠ .loading q.attempt :=
      fun loading => beside ⟨alive, loading⟩
    rw [if_pos alive, Store.fail_eq, if_neg loading]
    exact setStore_store p q.runtime
  · rw [if_neg alive]

/-- A report on an attempt that is under way resets its chunk and ends the attempt. -/
theorem complete_underWay (underWay : p.UnderWay q) (e : ResourceEvent) :
    p.complete q e = { p with
      runtimes := p.runtimes.modify q.runtime fun rt => { rt with
        store := (p.store q.runtime).reset q.chunk
        outcomes := rt.outcomes.set q.attempt (.failed (e.failure q.chunk q.address)) }
      log := .resolved q.runtime q.chunk q.attempt (.failed (e.failure q.chunk q.address)) ::
        .rejected q.runtime q.chunk q.attempt :: p.log } := by
  obtain ⟨alive, loading⟩ := underWay
  unfold complete
  rw [if_pos alive, Store.fail_eq, if_pos loading]
  simp only [setStore, settleAttempt, modifyRuntime, note, List.modify_modify_eq]
  rfl

/-- The report ends the attempt of its request, if that is under way. -/
theorem Reachable.rejects (h : p.Reachable) (found : p.requests[number]? = some q)
    (underWay : p.UnderWay q) (e : ResourceEvent) (nested : Bool) :
    Rejects p q (e.failure q.chunk q.address) nested (p.follow (reporting number e nested)) := by
  obtain ⟨alive, loading⟩ := id underWay
  have inRange := h.sound.inRange q.runtime alive
  have frame := (follow_reporting found e nested).trans
    (congrArg (answerWith · nested (.chunk q.chunk)) (complete_underWay underWay e))
  let failure : LoadResult := .failed (e.failure q.chunk q.address)
  -- The runtime of the request is the only one that changes.
  have runtime (r : RuntimeId) : (p.follow (reporting number e nested)).runtime r =
      if r = q.runtime then { p.runtime r with
        store := (p.store q.runtime).reset q.chunk
        outcomes := (p.runtime r).outcomes.set q.attempt failure }
      else p.runtime r := by
    rw [frame]
    refine (runtime_modifyRuntime p q.runtime _ r).trans ?_
    by_cases same : r = q.runtime
    · rw [if_pos ⟨same.symm, inRange⟩, if_pos same, same]
    · rw [if_neg fun both => same both.1.symm, if_neg same]
  have kept (r : RuntimeId) : (p.follow (reporting number e nested)).alive r = p.alive r := by
    rw [follow_reporting found, alive_answerWith, complete_underWay underWay]
    rfl
  refine ⟨?_, ?_, ?_, ?_, ?_, frame⟩
  · -- The chunk is reset, and no other one.
    intro r c
    unfold store
    rw [runtime]
    by_cases same : r = q.runtime
    · rw [if_pos same]
      show ((p.store q.runtime).reset q.chunk).state c = _
      rw [Store.state_reset, same]
      by_cases chunk : q.chunk = c
      · rw [if_pos chunk, if_pos ⟨rfl, chunk.symm⟩]
      · rw [if_neg chunk, if_neg fun both => chunk both.2.symm]
        rfl
    · rw [if_neg same, if_neg fun both => same both.1]
  · -- An attempt under way is open.
    refine outcome_eq_none.mpr ⟨?_, alive⟩
    exact (h.balanced q.runtime).outcome_of_loading loading
  · -- The attempt has the failure for its outcome, and the others keep theirs.
    intro r c n
    by_cases own : r = q.runtime ∧ n = q.attempt
    · rw [if_pos own]
      refine outcome_eq_some.mpr (.inl ?_)
      show ((p.follow (reporting number e nested)).runtime r).outcomes.get? n = some failure
      rw [runtime, if_pos own.1, own.2]
      exact (Assoc.get?_set ..).trans (if_pos rfl)
    · rw [if_neg own]
      refine outcome_congr (kept r) ?_
      rw [runtime]
      by_cases same : r = q.runtime
      · rw [if_pos same]
        exact (Assoc.get?_set ..).trans (if_neg fun attempt => own ⟨same, attempt.symm⟩)
      · rw [if_neg same]
  · -- No table of modules changes.
    intro r
    unfold store
    rw [runtime]
    split
    · rename_i same
      rw [same]
      rfl
    · rfl
  · intro r
    rw [runtime]
    split <;> rfl

/-! ## Late and repeated reports -/

/-- Every request stands for an attempt that has been started. -/
theorem started_of_injected (injected : .injected number q ∈ p.log) :
    (q.chunk, q.attempt) ∈ p.started q.runtime :=
  List.mem_filterMap.mpr ⟨_, List.mem_reverse.mpr injected, by simp [Event.started?]⟩

/-- An attempt does not come under way again. -/
theorem Reachable.underWay_of_make (h : p.Reachable) (started : (q.chunk, q.attempt) ∈ p.started q.runtime)
    {m : Move} (underWay : (p.make m).UnderWay q) : p.UnderWay q := by
  have inRange := h.inRange_of_started started
  obtain ⟨alive, loading⟩ := underWay
  refine ⟨?_, ?_⟩
  · -- A runtime that is gone does not come back.
    by_contra gone
    rw [gone_make inRange (by simpa using gone) m] at alive
    cases alive
  · rcases (h.turn m).ledger q.runtime with ⟨rt, -, newest, -⟩ | step
    · exact absurd inRange (newest ▸ Nat.lt_irrefl _)
    · rw [ledger_core, ledger_core] at step
      have balanced := h.balanced q.runtime
      rw [ledger_core] at balanced
      exact balanced.loading_step step started loading

theorem Reachable.started_follow (h : p.Reachable) {w : Trial} (started : w ∈ p.started r)
    (ms : List Move) : w ∈ (p.follow ms).started r := by
  induction ms generalizing p with
  | nil => exact started
  | cons m ms ih => exact ih (.make m h) (h.started_make started m)

theorem Reachable.underWay_of_follow (h : p.Reachable)
    (started : (q.chunk, q.attempt) ∈ p.started q.runtime) {ms : List Move}
    (underWay : (p.follow ms).UnderWay q) : p.UnderWay q := by
  induction ms generalizing p with
  | nil => exact underWay
  | cons m ms ih => exact h.underWay_of_make started (ih (.make m h) (h.started_make started m) underWay)

/-- Requests keep their numbers. -/
theorem request_follow (found : p.requests[number]? = some q) (ms : List Move) :
    (p.follow ms).requests[number]? = some q := by
  induction ms generalizing p with
  | nil => exact found
  | cons m ms ih => exact ih ((orders_make p m).found found)

/-- Whatever a report found, the attempt of its request is not under way any more. -/
theorem Reachable.not_underWay_of_report (h : p.Reachable) (found : p.requests[number]? = some q)
    (e : ResourceEvent) (nested : Bool) :
    ¬ (p.follow (reporting number e nested)).UnderWay q := by
  by_cases underWay : p.UnderWay q
  · rintro ⟨-, loading⟩
    rw [(h.rejects found underWay e nested).state, if_pos ⟨rfl, rfl⟩] at loading
    cases loading
  · rw [follow_reporting found, complete_beside underWay]
    rintro ⟨alive, loading⟩
    rw [alive_answerWith] at alive
    exact underWay ⟨alive, loading⟩

/-- **A report ends at most the one attempt that its request was made for.** Whatever the host reports,
whenever it does: if the attempt is under way, its chunk can be requested again, who waits for the attempt
gets a failure that names the chunk and the address of the request, and nothing else changes. If it is not,
because it has ended or its runtime is gone, nothing changes at all. So of all reports on a request only the
first one can have an effect. -/
theorem Reachable.reported (h : p.Reachable) (injected : .injected number q ∈ p.log)
    (e : ResourceEvent) (nested : Bool) :
    (p.UnderWay q → ∃ error,
      (e = .timeout ∧ error = .timeout q.chunk q.address ∨
        e = .error ∧ error = .delivery q.chunk .transport q.address ∨
        e = .load ∧ error = .delivery q.chunk .missing q.address) ∧
      p.Rejects q error nested (p.follow (reporting number e nested))) ∧
    (¬ p.UnderWay q →
      p.follow (reporting number e nested) = p.answerWith nested (.chunk q.chunk)) ∧
    ∀ ms e' nested', p.follow (reporting number e nested ++ ms ++ reporting number e' nested') =
      (p.follow (reporting number e nested ++ ms)).answerWith nested' (.chunk q.chunk) := by
  have found := (h.injected_iff number q).mp injected
  refine ⟨?_, ?_, ?_⟩
  · intro underWay
    refine ⟨e.failure q.chunk q.address, ?_, h.rejects found underWay e nested⟩
    cases e <;> simp [ResourceEvent.failure]
  · intro beside
    rw [follow_reporting found, complete_beside beside]
  · intro ms e' nested'
    -- After the first report the attempt has ended, and later reports find the request all the same.
    have ended : ¬ (p.follow (reporting number e nested ++ ms)).UnderWay q := by
      intro underWay
      rw [follow_append] at underWay
      have reached := h.follow (reporting number e nested)
      have started := h.started_follow (started_of_injected injected) (reporting number e nested)
      exact h.not_underWay_of_report found e nested (reached.underWay_of_follow started underWay)
    rw [follow_append, follow_reporting (request_follow found _), complete_beside ended]

/-- A chunk is asked for again after the time limit of its first resource. -/
def askedAgain : Page :=
  (fresh [] []).giveAll
    [.create "main" (.ok .standard) none, .ensure "main" (.number 7) none,
      .complete (.number 0) .timeout, .ensure "main" (.number 7) none]

/-- The first resource reports late, which changes nothing. The second one is missing. -/
theorem reported_late :
    askedAgain.follow (reporting 0 .load false) = askedAgain.answerWith false (.chunk (.number 7)) ∧
    (askedAgain.follow (reporting 1 .error false)).outcome (.attempt 0 (.number 7) 2) =
      some (.failed (.delivery (.number 7) .transport "/7.js")) := by
  have reachable : askedAgain.Reachable := (Reachable.fresh _ _).giveAll _
  have first : .injected 0 (askedAgain.request 0 (.number 7) 1) ∈ askedAgain.log :=
    (reachable.injected_iff ..).mpr rfl
  have second : .injected 1 (askedAgain.request 0 (.number 7) 2) ∈ askedAgain.log :=
    (reachable.injected_iff ..).mpr rfl
  have ended : ¬ askedAgain.UnderWay (askedAgain.request 0 (.number 7) 1) := by decide +kernel
  have underWay : askedAgain.UnderWay (askedAgain.request 0 (.number 7) 2) := by decide +kernel
  refine ⟨(Reachable.reported reachable first .load false).2.1 ended, ?_⟩
  obtain ⟨error, told, rejects⟩ := (Reachable.reported reachable second .error false).1 underWay
  have missing : error = .delivery (.number 7) .transport "/7.js" := by
    rcases told with ⟨other, -⟩ | ⟨-, missing⟩ | ⟨other, -⟩
    · cases other
    · exact missing
    · cases other
  rw [← missing]
  exact (rejects.outcome ..).trans (if_pos ⟨rfl, rfl⟩)

end Page

end ChunkLoading
