import ChunkLoading.Page.LoadError
import ChunkLoading.Proofs.Store
import Mathlib.Data.List.Nodup
import Mathlib.Logic.Function.Basic

/-!
# The ledger of a runtime

What is known of the load attempts of one runtime: those that were started, those that a merge has
captured and not ended yet, and how those that ended did so. `Ledger.Step` lists what can happen to
a ledger, and `Ledger.Balanced` is the invariant that every step keeps: an attempt is open exactly
as long as its chunk is under way by it or a merge has captured it.
-/

namespace ChunkLoading

/-- A load attempt: its chunk and its number. -/
abbrev Trial := ChunkId × Attempt

@[ext] structure Ledger where
  store : Store
  /-- The attempts that were started, in order. -/
  started : List Trial
  /-- The attempts that merges have captured and not ended yet. -/
  captured : List Trial
  outcome : Attempt → Option LoadResult
  /-- The attempts that ended, in order, with their results. -/
  settled : List (Trial × LoadResult)

namespace Ledger

/-- Ends attempts, all with one result. -/
def finish (l : Ledger) (ws : List Trial) (result : LoadResult) : Ledger :=
  { l with
    outcome := fun n => if n ∈ ws.map (·.2) then some result else l.outcome n
    settled := l.settled ++ ws.map (·, result) }

theorem finish_nil (l : Ledger) (result : LoadResult) : l.finish [] result = l := by
  simp [finish]

/-- Ending attempts one after the other is ending them together. -/
theorem finish_finish (l : Ledger) (w : Trial) (ws : List Trial) (result : LoadResult) :
    (l.finish [w] result).finish ws result = l.finish (w :: ws) result := by
  apply Ledger.ext
  · rfl
  · rfl
  · rfl
  · funext n
    by_cases later : n ∈ ws.map (·.2)
    · simp [finish, later]
    · by_cases now : n = w.2 <;> simp [finish, later, now]
  · simp [finish]

/-- What can happen to the ledger of a runtime. -/
inductive Step (l : Ledger) : Ledger → Prop where
  | same : Step l l
  | hinted (c : ChunkId) (idle : l.store.state c = .notRequested) :
    Step l { l with store := l.store.assign c .hintOnly }
  | started (c : ChunkId) (idle : (l.store.state c).isIdle) :
    Step l { l with
      store := l.store.start c
      started := l.started ++ [(c, l.store.attempts + 1)] }
  | rejected (c : ChunkId) (n : Attempt) (e : LoadError) (loading : l.store.state c = .loading n)
      (own : ∀ c', e ≠ .abandoned c') :
    Step l ({ l with store := l.store.reset c }.finish [(c, n)] (.failed e))
  | merged (d : Delivery) :
    Step l { l with
      store := (l.store.merge d).store
      captured := (l.store.merge d).waiting ++ l.captured }
  | resolved (waiting rest : List Trial) (result : LoadResult)
      (captured : l.captured = waiting ++ rest) (own : ∀ c, result ≠ .failed (.abandoned c)) :
    Step l ({ l with captured := rest }.finish waiting result)

/-- Every attempt is accounted for. -/
structure Balanced (l : Ledger) : Prop where
  unfailed : l.store.NoneFailed
  /-- Attempts are numbered from one in the order in which they start. -/
  numbers : l.started.map (·.2) = List.range' 1 l.store.attempts
  loading : ∀ c n, l.store.state c = .loading n → (c, n) ∈ l.started
  captured : ∀ w ∈ l.captured, w ∈ l.started ∧ l.store.state w.1 = .loaded
  /-- No attempt is captured twice. -/
  apart : l.captured.Nodup
  known : ∀ n, l.store.attempts < n → l.outcome n = none
  /-- An attempt is open as long as its chunk is under way by it or a merge has captured it. -/
  unsettled : ∀ w ∈ l.started,
    l.outcome w.2 = none ↔ l.store.state w.1 = .loading w.2 ∨ w ∈ l.captured
  settled : ∀ w result, (w, result) ∈ l.settled ↔ w ∈ l.started ∧ l.outcome w.2 = some result
  /-- No attempt ends twice. -/
  once : (l.settled.map (·.1)).Nodup
  ok : ∀ w ∈ l.started, l.outcome w.2 = some .ok → l.store.state w.1 = .loaded
  own : ∀ n c, l.outcome n ≠ some (.failed (.abandoned c))

variable {l l' : Ledger} {w w' : Trial}

namespace Balanced

theorem numbers_nodup (h : l.Balanced) : (l.started.map (·.2)).Nodup := by
  rw [h.numbers]
  exact List.nodup_range'

/-- An attempt is known by its number. -/
theorem unique (h : l.Balanced) (member : w ∈ l.started) (member' : w' ∈ l.started)
    (same : w.2 = w'.2) : w = w' :=
  List.inj_on_of_nodup_map h.numbers_nodup member member' same

theorem number_le (h : l.Balanced) (member : w ∈ l.started) : w.2 ≤ l.store.attempts := by
  have listed : w.2 ∈ List.range' 1 l.store.attempts := h.numbers ▸ List.mem_map_of_mem member
  rw [List.mem_range'_1, Nat.add_comm] at listed
  exact Nat.le_of_lt_succ listed.2

/-- An attempt that is captured has not ended. -/
theorem outcome_of_captured (h : l.Balanced) (member : w ∈ l.captured) : l.outcome w.2 = none :=
  (h.unsettled w (h.captured w member).1).mpr (.inr member)

theorem outcome_of_loading (h : l.Balanced) {c : ChunkId} {n : Attempt}
    (loading : l.store.state c = .loading n) : l.outcome n = none :=
  (h.unsettled (c, n) (h.loading c n loading)).mpr (.inl loading)

/-- A hint is no news of attempts. -/
theorem hinted (h : l.Balanced) {c : ChunkId} (idle : l.store.state c = .notRequested) :
    { l with store := l.store.assign c .hintOnly }.Balanced := by
  -- The chunk was not under way before, and is not now.
  have loading (c' : ChunkId) (n : Attempt) :
      (l.store.assign c .hintOnly).state c' = .loading n ↔ l.store.state c' = .loading n := by
    rw [Store.state_assign]
    by_cases same : c = c'
    · subst same
      simp [idle]
    · simp [same]
  have loaded (c' : ChunkId) (loaded : l.store.state c' = .loaded) :
      (l.store.assign c .hintOnly).state c' = .loaded :=
    (Store.Step.hinted c idle).loaded h.unfailed loaded
  refine { h with
    unfailed := (Store.Step.hinted c idle).unfailed h.unfailed
    loading := fun c' n under => h.loading c' n ((loading c' n).mp under)
    captured := fun w member => ⟨(h.captured w member).1, loaded _ (h.captured w member).2⟩
    unsettled := ?_
    ok := fun w member ok => loaded _ (h.ok w member ok) }
  intro w member
  rw [loading]
  exact h.unsettled w member

/-- An attempt that starts has the next number, and is open. -/
theorem started (h : l.Balanced) {c : ChunkId} (idle : (l.store.state c).isIdle) :
    { l with
      store := l.store.start c
      started := l.started ++ [(c, l.store.attempts + 1)] }.Balanced := by
  have step : l.store.Step (l.store.start c) := .started c idle
  have before (n : Attempt) : l.store.state c ≠ .loading n := by
    intro loading
    rw [loading] at idle
    cases idle
  refine {
    unfailed := step.unfailed h.unfailed
    numbers := ?_
    loading := ?_
    captured := ?_
    apart := h.apart
    known := fun n new => h.known n (Nat.lt_of_succ_lt new)
    unsettled := ?_
    settled := ?_
    once := h.once
    ok := ?_
    own := h.own }
  · -- The new number comes after the others.
    show (l.started ++ [(c, l.store.attempts + 1)]).map (·.2) = List.range' 1 (l.store.attempts + 1)
    rw [List.map_append, h.numbers, List.range'_concat]
    simp [Nat.add_comm]
  · -- The chunk is under way by the new attempt.
    intro c' n loading
    rw [Store.state_start] at loading
    split at loading
    · rename_i same
      cases loading
      exact List.mem_append_right _ (by simp [same])
    · exact List.mem_append_left _ (h.loading c' n loading)
  · -- What is captured is older, and stays loaded.
    intro w member
    have old := h.captured w member
    exact ⟨List.mem_append_left _ old.1, step.loaded h.unfailed old.2⟩
  · intro w member
    rcases List.mem_append.mp member with old | new
    · -- The number of an older attempt is not the one that its chunk is under way by now.
      rw [h.unsettled w old, Store.state_start]
      by_cases same : c = w.1
      · have other : l.store.attempts + 1 ≠ w.2 := Nat.ne_of_gt (Nat.lt_succ_of_le (h.number_le old))
        simp [same, other, same ▸ before w.2]
      · simp [same]
    · obtain rfl := List.mem_singleton.mp new
      simp [h.known]
  · -- The new attempt has no outcome yet.
    intro w result
    rw [h.settled]
    constructor
    · rintro ⟨member, outcome⟩
      exact ⟨List.mem_append_left _ member, outcome⟩
    · rintro ⟨member, outcome⟩
      refine ⟨?_, outcome⟩
      rcases List.mem_append.mp member with old | new
      · exact old
      · obtain rfl := List.mem_singleton.mp new
        rw [h.known _ (Nat.lt_succ_self _)] at outcome
        cases outcome
  · intro w member ok
    rcases List.mem_append.mp member with old | new
    · exact step.loaded h.unfailed (h.ok w old ok)
    · obtain rfl := List.mem_singleton.mp new
      rw [h.known _ (Nat.lt_succ_self _)] at ok
      cases ok

/-- A runtime that was just built has no attempts. -/
theorem ofBuilt {store : Store} {outcome : Attempt → Option LoadResult}
    (state : ∀ c, store.state c = .notRequested ∨ store.state c = .loaded)
    (attempts : store.attempts = 0) (outcomes : ∀ n, outcome n = none) :
    Balanced ⟨store, [], [], outcome, []⟩ where
  unfailed := by
    intro c
    rcases state c with state | state <;> simp [state]
  numbers := by simp [attempts]
  loading := by
    intro c n under
    rcases state c with state | state <;> simp [state] at under
  captured := by simp
  apart := List.nodup_nil
  known := fun n _ => outcomes n
  unsettled := by simp
  settled := by simp
  once := List.nodup_nil
  ok := by simp
  own := by simp [outcomes]

/-- Without attempts there is nothing on record. -/
theorem empty_of_attempts (h : l.Balanced) (attempts : l.store.attempts = 0) :
    l.started = [] ∧ l.captured = [] ∧ l.settled = [] := by
  have numbers := h.numbers
  rw [attempts] at numbers
  have started : l.started = [] := List.map_eq_nil_iff.mp numbers
  refine ⟨started, ?_, ?_⟩
  · rw [List.eq_nil_iff_forall_not_mem]
    intro w member
    simpa [started] using (h.captured w member).1
  · rw [List.eq_nil_iff_forall_not_mem]
    rintro ⟨w, result⟩ member
    simpa [started] using ((h.settled w result).mp member).1

/-! Attempts that end are open ones, each of them once. -/

section Finish

variable {ws : List Trial} {result : LoadResult}

theorem outcome_finish (h : l.Balanced) (started : ∀ w ∈ ws, w ∈ l.started)
    (member : w ∈ l.started) :
    (l.finish ws result).outcome w.2 = if w ∈ ws then some result else l.outcome w.2 := by
  have same : w.2 ∈ ws.map (·.2) ↔ w ∈ ws := by
    constructor
    · intro number
      obtain ⟨w', ending, number⟩ := List.mem_map.mp number
      exact h.unique (started w' ending) member number ▸ ending
    · intro ending
      exact List.mem_map_of_mem ending
  show (if w.2 ∈ ws.map (·.2) then _ else _) = _
  simp only [same]

theorem known_finish (h : l.Balanced) (started : ∀ w ∈ ws, w ∈ l.started) (n : Attempt)
    (new : l.store.attempts < n) : (l.finish ws result).outcome n = none := by
  have other : n ∉ ws.map (·.2) := by
    intro number
    obtain ⟨w, ending, rfl⟩ := List.mem_map.mp number
    exact absurd new (Nat.not_lt.mpr (h.number_le (started w ending)))
  show (if n ∈ ws.map (·.2) then _ else _) = _
  rw [if_neg other]
  exact h.known n new

theorem settled_finish (h : l.Balanced) (started : ∀ w ∈ ws, w ∈ l.started)
    (fresh : ∀ w ∈ ws, l.outcome w.2 = none) (w : Trial) (r : LoadResult) :
    (w, r) ∈ (l.finish ws result).settled ↔
      w ∈ l.started ∧ (l.finish ws result).outcome w.2 = some r := by
  have listed : (w, r) ∈ ws.map (·, result) ↔ w ∈ ws ∧ result = r := by
    rw [List.mem_map]
    constructor
    · rintro ⟨w', ending, same⟩
      obtain ⟨rfl, rfl⟩ := Prod.mk.inj same
      exact ⟨ending, rfl⟩
    · rintro ⟨ending, rfl⟩
      exact ⟨w, ending, rfl⟩
  show (w, r) ∈ l.settled ++ ws.map (·, result) ↔ _
  rw [List.mem_append, h.settled, listed]
  by_cases member : w ∈ l.started
  · rw [h.outcome_finish started member]
    by_cases ending : w ∈ ws
    · simp [member, ending, fresh w ending]
    · simp [member, ending]
  · have other : w ∉ ws := fun ending => member (started w ending)
    simp [member, other]

theorem once_finish (h : l.Balanced) (nodup : ws.Nodup) (fresh : ∀ w ∈ ws, l.outcome w.2 = none) :
    ((l.finish ws result).settled.map (·.1)).Nodup := by
  show ((l.settled ++ ws.map (·, result)).map (·.1)).Nodup
  have ending : (ws.map (·, result)).map (·.1) = ws := by
    simp [Function.comp_def]
  rw [List.map_append, ending, List.nodup_append]
  refine ⟨h.once, nodup, ?_⟩
  rintro w old _ ending rfl
  -- What has ended already is not open.
  obtain ⟨⟨w, r⟩, before, rfl⟩ := List.mem_map.mp old
  have outcome := ((h.settled w r).mp before).2
  rw [fresh w ending] at outcome
  cases outcome

theorem own_finish (h : l.Balanced) (own : ∀ c, result ≠ .failed (.abandoned c)) (n : Attempt)
    (c : ChunkId) : (l.finish ws result).outcome n ≠ some (.failed (.abandoned c)) := by
  show (if n ∈ ws.map (·.2) then _ else _) ≠ _
  split
  · exact fun same => own c (Option.some.inj same)
  · exact h.own n c

end Finish

/-- An attempt that is rejected ends, and its chunk is idle again. -/
theorem rejected (h : l.Balanced) {c : ChunkId} {n : Attempt} {e : LoadError}
    (loading : l.store.state c = .loading n) (own : ∀ c', e ≠ .abandoned c') :
    ({ l with store := l.store.reset c }.finish [(c, n)] (.failed e)).Balanced := by
  have step : l.store.Step (l.store.reset c) := .rejected c n loading
  have started : ∀ w ∈ [(c, n)], w ∈ l.started := by
    intro w ending
    obtain rfl := List.mem_singleton.mp ending
    exact h.loading c n loading
  have fresh : ∀ w ∈ [(c, n)], l.outcome w.2 = none := by
    intro w ending
    obtain rfl := List.mem_singleton.mp ending
    exact h.outcome_of_loading loading
  refine {
    unfailed := step.unfailed h.unfailed
    numbers := h.numbers
    loading := ?_
    captured := fun w member =>
      ⟨(h.captured w member).1, step.loaded h.unfailed (h.captured w member).2⟩
    apart := h.apart
    known := h.known_finish started
    unsettled := ?_
    settled := h.settled_finish started fresh
    once := h.once_finish (List.nodup_singleton _) fresh
    ok := ?_
    own := h.own_finish fun c' same => own c' (LoadResult.failed.inj same) }
  · -- No other chunk is touched.
    intro c' n' under
    have under : (l.store.reset c).state c' = .loading n' := under
    rw [Store.state_reset] at under
    split at under
    · cases under
    · exact h.loading c' n' under
  · intro w member
    show (l.finish [(c, n)] (.failed e)).outcome w.2 = none ↔
      (l.store.reset c).state w.1 = .loading w.2 ∨ w ∈ l.captured
    rw [h.outcome_finish started member, Store.state_reset]
    by_cases ending : w = (c, n)
    · -- It is not captured, because its chunk was not loaded.
      have free : w ∉ l.captured := by
        intro captured
        have loaded := (h.captured w captured).2
        rw [ending, loading] at loaded
        cases loaded
      simp [ending ▸ free, ending]
    · -- A chunk is under way by one attempt at a time.
      have other : c = w.1 → l.store.state w.1 ≠ .loading w.2 := by
        rintro rfl under
        rw [loading] at under
        exact ending (Prod.ext rfl (ChunkState.loading.inj under).symm)
      rw [if_neg (by simpa using ending), h.unsettled w member]
      by_cases same : c = w.1
      · simp [same, other same]
      · simp [same]
  · -- The attempt that ends now does not end well.
    intro w member ok
    have ok : (l.finish [(c, n)] (.failed e)).outcome w.2 = some .ok := ok
    rw [h.outcome_finish started member] at ok
    split at ok
    · cases ok
    · exact step.loaded h.unfailed (h.ok w member ok)

/-- A merge captures the attempts by which its chunks were under way. -/
theorem merged (h : l.Balanced) (d : Delivery) :
    { l with
      store := (l.store.merge d).store
      captured := (l.store.merge d).waiting ++ l.captured }.Balanced := by
  have spec := Store.merge_spec h.unfailed d
  have step : l.store.Step (l.store.merge d).store := .merged d
  refine {
    unfailed := step.unfailed h.unfailed
    numbers := ?_
    loading := ?_
    captured := ?_
    apart := ?_
    known := fun n new => h.known n (spec.attempts ▸ new)
    unsettled := ?_
    settled := h.settled
    once := h.once
    ok := fun w member ok => step.loaded h.unfailed (h.ok w member ok)
    own := h.own }
  · show l.started.map (·.2) = List.range' 1 (l.store.merge d).store.attempts
    rw [spec.attempts]
    exact h.numbers
  · intro c n under
    rw [spec.state] at under
    split at under
    · cases under
    · exact h.loading c n under
  · intro w member
    rcases List.mem_append.mp member with new | old
    · -- What is captured now was under way, and its chunk is loaded.
      obtain ⟨announced, under⟩ := (spec.ended w).mp new
      refine ⟨h.loading w.1 w.2 under, ?_⟩
      rw [spec.state, if_pos announced]
    · exact ⟨(h.captured w old).1, step.loaded h.unfailed (h.captured w old).2⟩
  · rw [List.nodup_append]
    refine ⟨List.Nodup.of_map _ spec.once, h.apart, ?_⟩
    -- The chunks of older captures were loaded before.
    rintro w new _ old rfl
    have loaded := (h.captured w old).2
    rw [((spec.ended w).mp new).2] at loaded
    cases loaded
  · -- An attempt that is open either stays under way, or is captured.
    intro w member
    rw [h.unsettled w member, spec.state, List.mem_append, spec.ended]
    by_cases announced : w.1 ∈ d.chunks
    · simp [announced]
    · simp [announced]

/-- The attempts that a merge has captured end together. -/
theorem resolved (h : l.Balanced) {waiting rest : List Trial} {result : LoadResult}
    (captured : l.captured = waiting ++ rest) (own : ∀ c, result ≠ .failed (.abandoned c)) :
    ({ l with captured := rest }.finish waiting result).Balanced := by
  have before (w : Trial) (ending : w ∈ waiting) : w ∈ l.captured := by
    rw [captured]
    exact List.mem_append_left _ ending
  have started (w : Trial) (ending : w ∈ waiting) : w ∈ l.started :=
    (h.captured w (before w ending)).1
  have fresh (w : Trial) (ending : w ∈ waiting) : l.outcome w.2 = none :=
    h.outcome_of_captured (before w ending)
  have apart : (waiting ++ rest).Nodup := captured ▸ h.apart
  refine {
    unfailed := h.unfailed
    numbers := h.numbers
    loading := h.loading
    captured := fun w member => h.captured w (captured ▸ List.mem_append_right _ member)
    apart := (List.nodup_append.mp apart).2.1
    known := h.known_finish started
    unsettled := ?_
    settled := h.settled_finish started fresh
    once := h.once_finish (List.nodup_append.mp apart).1 fresh
    ok := ?_
    own := h.own_finish own }
  · intro w member
    show (l.finish waiting result).outcome w.2 = none ↔
      l.store.state w.1 = .loading w.2 ∨ w ∈ rest
    rw [h.outcome_finish started member]
    by_cases ending : w ∈ waiting
    · -- It is captured no more, and its chunk is loaded.
      have loaded := (h.captured w (before w ending)).2
      have gone : w ∉ rest := fun still => (List.nodup_append.mp apart).2.2 w ending w still rfl
      simp [ending, loaded, gone]
    · rw [if_neg ending, h.unsettled w member, captured, List.mem_append]
      simp [ending]
  · intro w member ok
    have ok : (l.finish waiting result).outcome w.2 = some .ok := ok
    rw [h.outcome_finish started member] at ok
    split at ok
    · rename_i ending
      exact (h.captured w (before w ending)).2
    · exact h.ok w member ok

/-- **Every step keeps the ledger balanced.** -/
theorem step (h : l.Balanced) (step : Step l l') : l'.Balanced := by
  cases step with
  | same => exact h
  | hinted c idle => exact h.hinted idle
  | started c idle => exact h.started idle
  | rejected c n e loading own => exact h.rejected loading own
  | merged d => exact h.merged d
  | resolved waiting rest result captured own => exact h.resolved captured own

/-- An attempt that ended stays as it ended. -/
theorem outcome_step (h : l.Balanced) (step : Step l l') {n : Attempt} {result : LoadResult}
    (ended : l.outcome n = some result) : l'.outcome n = some result := by
  have kept (ws : List Trial) (r : LoadResult) (fresh : ∀ w ∈ ws, l.outcome w.2 = none) :
      (l.finish ws r).outcome n = some result := by
    have other : n ∉ ws.map (·.2) := by
      intro number
      obtain ⟨w, ending, rfl⟩ := List.mem_map.mp number
      rw [fresh w ending] at ended
      cases ended
    show (if n ∈ ws.map (·.2) then _ else _) = _
    rw [if_neg other]
    exact ended
  cases step with
  | same | hinted | started | merged => exact ended
  | rejected c n' e loading own =>
    refine kept [(c, n')] (.failed e) fun w ending => ?_
    obtain rfl := List.mem_singleton.mp ending
    exact h.outcome_of_loading loading
  | resolved waiting rest r captured own =>
    refine kept waiting r fun w ending => h.outcome_of_captured ?_
    rw [captured]
    exact List.mem_append_left _ ending

/-- A chunk does not come under way by an attempt of old. -/
theorem loading_step (h : l.Balanced) (step : Step l l') {c : ChunkId} {n : Attempt}
    (member : (c, n) ∈ l.started) (loading : l'.store.state c = .loading n) :
    l.store.state c = .loading n := by
  cases step with
  | same | resolved => exact loading
  | hinted c' idle =>
    have loading : (l.store.assign c' .hintOnly).state c = .loading n := loading
    rw [Store.state_assign] at loading
    split at loading
    · cases loading
    · exact loading
  | started c' idle =>
    have loading : (l.store.start c').state c = .loading n := loading
    rw [Store.state_start] at loading
    split at loading
    · -- The attempt that starts has a number that no attempt had before.
      obtain rfl := ChunkState.loading.inj loading
      exact absurd (h.number_le member) (Nat.not_succ_le_self _)
    · exact loading
  | rejected c' n' e under own =>
    have loading : (l.store.reset c').state c = .loading n := loading
    rw [Store.state_reset] at loading
    split at loading
    · cases loading
    · exact loading
  | merged d =>
    have loading : (l.store.merge d).store.state c = .loading n := loading
    rw [(Store.merge_spec h.unfailed d).state] at loading
    split at loading
    · cases loading
    · exact loading

/-- An attempt that was started stays on record. -/
theorem started_step (step : Step l l') (member : w ∈ l.started) : w ∈ l'.started := by
  cases step with
  | started c idle => exact List.mem_append_left _ member
  | _ => exact member

end Balanced

end Ledger

end ChunkLoading
