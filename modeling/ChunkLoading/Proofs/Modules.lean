import ChunkLoading.Proofs.Settlement
import ChunkLoading.Proofs.Supply

/-!
# Module tables and the outcome of loads

The table of a runtime gives a module the first factory that is delivered for it, for good. A merge
compares a delivery with the table at once and ends its attempts later; `Prepared` says what is still
true of the delivery then, whatever happened in between. So an attempt ends well only if every
factory of its delivery is in the table (`Reachable.modules`).
-/

namespace ChunkLoading

/-- The modules of a delivery whose factories are not those of a store. -/
def Delivery.clashing (d : Delivery) (s : Store) : List ModuleId :=
  (d.modules.filter fun x => !(s.factory? x.1 = some x.2)).map (·.1)

namespace Page

variable {p : Page} {m : Move} {r : RuntimeId} {d : Delivery} {waiting : List Trial}
  {clashes : List ModuleId}

/-- What holds of a merged delivery until its attempts end. -/
structure Prepared (k : Core) (r : RuntimeId) (d : Delivery) (waiting : List Trial)
    (clashes : List ModuleId) : Prop where
  merged : .merged r d ∈ k.log
  announced : ∀ w ∈ waiting, w.1 ∈ d.chunks
  loaded : ∀ c ∈ d.chunks, (k.store r).state c = .loaded
  carried : ∀ x ∈ d.modules, ((k.store r).factory? x.1).isSome
  clashes : waiting ≠ [] → clashes = d.clashing (k.store r)

/-- A store that knows the modules of a delivery goes on clashing with it in the same ones. -/
theorem clashing_step {s t : Store} (unfailed : s.NoneFailed) (step : s.Step t)
    (carried : ∀ x ∈ d.modules, (s.factory? x.1).isSome) : d.clashing t = d.clashing s := by
  unfold Delivery.clashing
  congr 1
  apply List.filter_congr
  intro x member
  obtain ⟨f, held⟩ := Option.isSome_iff_exists.mp (carried x member)
  rw [held, step.factory? unfailed held]

theorem Prepared.step {k k' : Core} (h : Prepared k r d waiting clashes)
    (unfailed : (k.store r).NoneFailed) (log : ∀ e ∈ k.log, e ∈ k'.log)
    (step : (k.store r).Step (k'.store r)) : Prepared k' r d waiting clashes where
  merged := log _ h.merged
  announced := h.announced
  loaded := fun c member => step.loaded unfailed (h.loaded c member)
  carried := by
    intro x member
    obtain ⟨f, held⟩ := Option.isSome_iff_exists.mp (h.carried x member)
    exact Option.isSome_of_eq_some (step.factory? unfailed held)
  clashes := by
    intro some
    rw [clashing_step unfailed step h.carried]
    exact h.clashes some

/-- A merge prepares the end of its attempts. -/
theorem prepared_merge {k : Core} (unfailed : (k.store r).NoneFailed)
    (merged : .merged r d ∈ k.log) :
    Prepared (k.setStore r ((k.store r).merge d).store) r d ((k.store r).merge d).waiting
      ((k.store r).merge d).clashes := by
  have spec := Store.merge_spec unfailed d
  have store : (k.setStore r ((k.store r).merge d).store).store r = ((k.store r).merge d).store :=
    Function.update_self ..
  constructor
  · exact merged
  · exact fun w member => ((spec.ended w).mp member).1
  · -- The delivered chunks are loaded.
    intro c member
    rw [store, spec.state, if_pos member]
  · intro x member
    rw [store]
    exact spec.carried x member
  · intro some
    -- A chunk that was under way was not loaded, so that the clashes count.
    obtain ⟨w, member⟩ := List.exists_mem_of_ne_nil _ some
    obtain ⟨announced, loading⟩ := (spec.ended w).mp member
    have fresh : ¬ d.chunks.all (k.store r).isLoaded := by
      intro all
      have loaded := Store.isLoaded_iff.mp (List.all_eq_true.mp all w.1 announced)
      rw [loading] at loaded
      cases loaded
    rw [store, spec.clashes, if_neg fresh]
    rfl

/-- A move forgets no events. -/
theorem Turn.log (turn : Turn p m) : ∀ e ∈ p.core.log, e ∈ (p.make m).core.log := by
  intro e member
  cases turn with
  | resolved r' d waiting clashes k inRange pending core =>
    rw [pending] at member
    rw [core, Core.log_resolve]
    exact List.mem_append_right _ member
  | beside core => exact core ▸ member
  | _ =>
    simp_all [Core.setStore, Core.note, Core.call, Core.settleAttempt, Core.runReady,
      Core.setWorklist, Core.create]

/-- Attempts that are to be ended were so before, or were just captured by a merge. -/
theorem Turn.prepared (turn : Turn p m) (unfailed : ∀ r, (p.core.store r).NoneFailed)
    (member : .resolve r d waiting clashes ∈ (p.make m).core.agenda) :
    .resolve r d waiting clashes ∈ p.core.agenda ∨
      Prepared (p.make m).core r d waiting clashes := by
  rcases turn.agenda with ⟨r', d', core⟩ | ⟨r', es, ts, agenda, left⟩
  · rw [core] at member ⊢
    rcases List.mem_cons.mp member with this | member
    · obtain ⟨rfl, rfl, rfl, rfl⟩ := Task.resolve.inj this
      have prepared := prepared_merge (k := p.core.note [.merged r d]) (unfailed r)
        (List.mem_cons_self)
      refine .inr { prepared with merged := ?_ }
      simp [Core.call, Core.note]
    · rcases List.mem_cons.mp member with other | old
      · cases other
      · exact .inl old
  · rw [agenda] at member
    rcases List.mem_append.mp member with new | old
    · -- Entries that are run end no attempts.
      obtain ⟨e, -, other⟩ := List.mem_map.mp new
      cases other
    · rcases left with rfl | ⟨t, agenda⟩
      · exact .inl old
      · rw [agenda]
        exact .inl (List.mem_cons_of_mem t old)

/-- **Until its attempts end, a delivery that was merged stays as it was found.** -/
theorem Reachable.prepared (h : p.Reachable)
    (member : .resolve r d waiting clashes ∈ p.core.agenda) :
    Prepared p.core r d waiting clashes := by
  induction h with
  | fresh onInject onHint => cases member
  | make m h ih =>
    rename_i p
    have turn := h.turn m
    rcases turn.prepared h.sound.unfailed member with old | prepared
    · -- The task itself keeps the runtime there, so that its store makes a step.
      have alive : p.alive r := alive_of_core old (by simp [Task.uses])
      exact (ih old).step (h.sound.unfailed r) turn.log (turn.store (h.sound.inRange r alive))
    · exact prepared

/-- Why an attempt ended well: a delivery of its chunk was merged whose factories are all in the
table. -/
def Backed (k : Core) (r : RuntimeId) (c : ChunkId) : Prop :=
  ∃ d, .merged r d ∈ k.log ∧ c ∈ d.chunks ∧ ∀ x ∈ d.modules, (k.store r).factory? x.1 = some x.2

theorem Backed.step {k k' : Core} {c : ChunkId} (h : Backed k r c)
    (unfailed : (k.store r).NoneFailed) (log : ∀ e ∈ k.log, e ∈ k'.log)
    (step : (k.store r).Step (k'.store r)) : Backed k' r c := by
  obtain ⟨d, merged, announced, held⟩ := h
  exact ⟨d, log _ merged, announced, fun x member => step.factory? unfailed (held x member)⟩

/-- An attempt that ends well ends at the end of a merge without clashes. -/
theorem Turn.ok_source (turn : Turn p m) {c : ChunkId} {n : Attempt}
    (ended : .resolved r c n .ok ∈ (p.make m).core.log) :
    .resolved r c n .ok ∈ p.core.log ∨
      ∃ d waiting, (c, n) ∈ waiting ∧ .resolve r d waiting [] ∈ p.core.agenda := by
  cases turn with
  | resolved r' d waiting clashes k inRange pending core =>
    rw [core, Core.log_resolve] at ended
    rcases List.mem_append.mp ended with new | old
    · obtain ⟨w, member, same⟩ := List.mem_map.mp (List.mem_reverse.mp new)
      obtain ⟨rfl, rfl, rfl, result⟩ := Event.resolved.inj same
      -- A merge that found clashes ends no attempt well.
      have none : clashes = [] := by
        by_contra some
        rw [mergeResult, if_neg some] at result
        cases result
      subst none
      refine .inr ⟨d, waiting, member, ?_⟩
      rw [pending]
      exact List.mem_cons_self
    · rw [pending]
      exact .inl old
  | rejected r' c' n' e inRange loading own alive core =>
    rw [core] at ended
    exact .inl (by simpa [Core.settleAttempt, Core.note, Core.setStore] using ended)
  | _ =>
    refine .inl ?_
    simp_all [Core.setStore, Core.note, Core.call, Core.runReady, Core.setWorklist, Core.create]

theorem clashing_eq_nil {s : Store} :
    d.clashing s = [] ↔ ∀ x ∈ d.modules, s.factory? x.1 = some x.2 := by
  simp [Delivery.clashing, List.filter_eq_nil_iff]

/-- **An attempt that ended well was loaded by a delivery that the table agrees with.** -/
theorem Reachable.backed (h : p.Reachable) {c : ChunkId} {n : Attempt}
    (ended : .resolved r c n .ok ∈ p.core.log) : Backed p.core r c := by
  induction h with
  | fresh onInject onHint => cases ended
  | make m h ih =>
    rename_i p
    have turn := h.turn m
    have backed : r < p.core.count ∧ Backed p.core r c := by
      rcases turn.ok_source ended with old | ⟨d, waiting, member, pending⟩
      · exact ⟨h.inRange_of_resolved (List.mem_filter.mp old).1, ih old⟩
      · have alive : p.alive r := alive_of_core pending (by simp [Task.uses])
        have prepared := h.prepared pending
        have agree := clashing_eq_nil.mp (prepared.clashes (List.ne_nil_of_mem member)).symm
        exact ⟨h.sound.inRange r alive, d, prepared.merged, prepared.announced _ member, agree⟩
    exact backed.2.step (h.sound.unfailed r) turn.log (turn.store backed.1)

/-- A module that has a factory keeps it. -/
theorem Reachable.factory_follow (h : p.Reachable) {x : ModuleId} {f : FactoryId}
    (held : (p.store r).factory? x = some f) (ms : List Move) :
    ((p.follow ms).store r).factory? x = some f := by
  induction ms generalizing p with
  | nil => exact held
  | cons m ms ih =>
    refine ih (.make m h) ?_
    by_cases inRange : r < p.core.count
    · exact ((h.turn m).store inRange).factory? (h.sound.unfailed r) held
    · rw [store_outOfRange inRange] at held
      cases held

/-- Executing a module runs the factory that its runtime has for it. -/
theorem Reachable.make_execute (h : p.Reachable) {name : String} {x : ModuleId} {f : FactoryId}
    {nested : Bool} {ts : List Task} (held : (p.store r).factory? x = some f)
    (named : p.names.get? name = some r)
    (agenda : p.agenda = .perform (.execute name x) nested :: ts) :
    ∃ fac, p.factories[f]? = some fac ∧ ((p.make .task).make .task).log =
      .executed r (p.nameOf? r) f fac.module fac.key :: p.log := by
  have known := h.known held
  have named : p.rest.names.get? name = some r := named
  have held : (p.rest.store r).factory? x = some f := held
  have made : p.make .task = p.rest.perform nested (.execute name x) := make_task agenda
  simp only [perform, withRuntime, named, held] at made
  have next : (p.make .task).agenda = .execute r f :: .conclude .done nested (some r) :: ts := by
    rw [made]
    simp [call, Page.rest, agenda]
  have executed : (p.make .task).make .task = (p.make .task).rest.execute r f := make_task next
  have factory : (p.make .task).rest.factories[f]? = some p.factories[f] := by
    rw [made]
    exact List.getElem?_eq_getElem known
  refine ⟨p.factories[f], List.getElem?_eq_getElem known, ?_⟩
  rw [executed]
  unfold execute
  rw [factory, made]
  rfl

/-- How the attempts that a merge has captured end. -/
theorem Reachable.make_resolve (h : p.Reachable) {ts : List Task}
    (agenda : p.agenda = .resolve r d waiting clashes :: ts) {w : Trial} (member : w ∈ waiting) :
    p.outcome (.attempt r w.1 w.2) = none ∧
      (p.make .task).outcome (.attempt r w.1 w.2) =
        some (mergeResult d (d.clashing (p.store r))) := by
  have task : Task.resolve r d waiting clashes ∈ p.agenda := agenda ▸ List.mem_cons_self
  have alive : p.alive r := alive_of_task task (by simp [Task.uses])
  have prepared := h.prepared (List.mem_filter.mpr ⟨task, rfl⟩)
  have ledger := h.balanced r
  constructor
  · -- The attempt is captured, hence open.
    refine outcome_eq_none.mpr ⟨?_, alive⟩
    apply ledger.outcome_of_captured
    rw [ledger_core]
    exact List.mem_flatMap.mpr ⟨_, task, by simpa [Task.captured] using member⟩
  · -- The clashes found by the merge are those with the table as it is now.
    have made : p.make .task = p.rest.resolve r d waiting clashes := make_task agenda
    have core := core_resolve (p := p.rest) (h.sound.inRange r alive) d waiting clashes
    refine outcome_eq_some.mpr (.inl ?_)
    show ((p.make .task).core.outcomes r).get? w.2 = _
    rw [made, core, Core.outcomes_resolve, if_pos ⟨rfl, List.mem_map_of_mem member⟩,
      prepared.clashes (List.ne_nil_of_mem member)]
    rfl

/-- **The table of modules and the outcome of loads.** In every run, a module that has a factory keeps
it. When a merge ends attempts, all modules of its delivery have factories, and all its chunks are
loaded; the attempts, which were open before, all end with one result: with a failure if the table
has another factory than the delivery for one of its modules, and well if not. So behind every
attempt that ended well there is a delivery of its chunk whose factories are those in the table, and
executing one of its modules runs the factory that was delivered. -/
theorem Reachable.modules (h : p.Reachable) (r : RuntimeId) :
    (∀ x f, (p.store r).factory? x = some f →
      ∀ ms, ((p.follow ms).store r).factory? x = some f) ∧
    (∀ d waiting clashes ts, p.agenda = .resolve r d waiting clashes :: ts →
      (∀ x ∈ d.modules, ((p.store r).factory? x.1).isSome) ∧
      (∀ c ∈ d.chunks, (p.store r).state c = .loaded) ∧
      ∃ result, (∀ w ∈ waiting, p.outcome (.attempt r w.1 w.2) = none ∧
          (p.make .task).outcome (.attempt r w.1 w.2) = some result) ∧
        ((∃ x ∈ d.modules, (p.store r).factory? x.1 ≠ some x.2) ∧
            result = .failed (.violation (.collision d.chunks (d.clashing (p.store r)))) ∨
          (∀ x ∈ d.modules, (p.store r).factory? x.1 = some x.2) ∧ result = .ok)) ∧
    ∀ c n, (c, n) ∈ p.started r → p.outcome (.attempt r c n) = some .ok →
      ∃ d, .merged r d ∈ p.log ∧ c ∈ d.chunks ∧ ∀ x ∈ d.modules,
        (p.store r).factory? x.1 = some x.2 ∧
        ∀ name nested ts, p.agenda = .perform (.execute name x.1) nested :: ts →
          p.names.get? name = some r →
          ∃ fac, p.factories[x.2]? = some fac ∧ ((p.make .task).make .task).log =
            .executed r (p.nameOf? r) x.2 fac.module fac.key :: p.log := by
  refine ⟨fun x f held ms => h.factory_follow held ms, ?_, ?_⟩
  · intro d waiting clashes ts agenda
    have task : Task.resolve r d waiting clashes ∈ p.agenda := agenda ▸ List.mem_cons_self
    have prepared := h.prepared (List.mem_filter.mpr ⟨task, rfl⟩)
    refine ⟨prepared.carried, prepared.loaded, mergeResult d (d.clashing (p.store r)),
      fun w member => h.make_resolve agenda member, ?_⟩
    by_cases agree : d.clashing (p.store r) = []
    · -- The table has the factories of the delivery.
      refine .inr ⟨clashing_eq_nil.mp agree, ?_⟩
      rw [mergeResult, if_pos agree]
    · -- One module of the delivery has another factory.
      refine .inl ⟨?_, ?_⟩
      · by_contra none
        apply agree
        rw [clashing_eq_nil]
        intro x member
        by_contra other
        exact none ⟨x, member, other⟩
      · rw [mergeResult, if_neg agree]
  · intro c n started ok
    have ended : .resolved r c n .ok ∈ p.log := by
      rcases outcome_eq_some.mp ok with ended | ⟨-, -, other⟩
      · have ledger := h.balanced r
        rw [ledger_core] at ledger ended
        exact mem_settlements.mp ((ledger.settled (c, n) .ok).mpr ⟨started, ended⟩)
      · cases other
    obtain ⟨d, merged, announced, held⟩ := h.backed (List.mem_filter.mpr ⟨ended, rfl⟩)
    refine ⟨d, (List.mem_filter.mp merged).1, announced, fun x member => ⟨held x member, ?_⟩⟩
    intro name nested ts agenda named
    exact h.make_execute (held x member) named agenda

/-- Two deliveries bring one module with different factories, and the second one is about to end the
attempt that waited for it. -/
def clashed : Page :=
  ((fresh [] []).giveAll
    [.create "main" (.ok .standard) none, .install "main" "chunks",
      .push "chunks" ⟨[.number 8], [⟨.number 5, none, []⟩], [], []⟩,
      .ensure "main" (.number 7) none]).follow
    [.call (.push "chunks" ⟨[.number 7], [⟨.number 5, none, []⟩], [], []⟩) false, .task, .task]

theorem modules_clashed : (clashed.store 0).factory? (.number 5) = some 0 ∧
    (clashed.make .task).outcome (.attempt 0 (.number 7) 1) =
      some (.failed (.violation (.collision [.number 7] [.number 5]))) := by
  have reachable : clashed.Reachable := Reachable.follow ((Reachable.fresh _ _).giveAll _) _
  have held : (clashed.store 0).factory? (.number 5) = some 0 := rfl
  obtain ⟨-, ends, -⟩ := Reachable.modules reachable 0
  obtain ⟨-, -, result, ended, ⟨-, failed⟩ | ⟨agree, -⟩⟩ :=
    ends ⟨[.number 7], [(.number 5, 1)], [], []⟩ [(.number 7, 1)] [.number 5] _ rfl
  · refine ⟨held, ?_⟩
    rw [(ended (.number 7, 1) List.mem_cons_self).2, failed]
    rfl
  · have other := agree (.number 5, 1) List.mem_cons_self
    rw [held] at other
    cases other

end Page

end ChunkLoading
