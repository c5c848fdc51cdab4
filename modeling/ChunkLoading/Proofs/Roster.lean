import ChunkLoading.Page.Worklist

/-!
# The roster of a runtime

Where the entries of one runtime are: announced by a delivery that is merged, waiting in the worklist,
underway, or entered. `Roster.Step` lists what can happen to a roster. `Roster.Fair` is the invariant
that every step keeps: no entry is lost or run twice, only entries that are ready are underway, and
an entry that is ready and waits is going to be looked at.
-/

namespace ChunkLoading

@[ext] structure Roster where
  loaded : ChunkId → Bool
  waiting : Worklist
  /-- The entries that were taken from the worklist and not run yet. -/
  underway : List DeferredEntry
  /-- The entries of merged deliveries that are not registered yet. -/
  announced : List DeferredEntry
  /-- Whether entries are still to be registered, after which the worklist is looked through. -/
  due : Bool
  /-- The entries that were registered, in order. -/
  registered : List DeferredEntry
  /-- The entries that were run, in order. -/
  entered : List DeferredEntry

namespace Roster

/-- Registers entries, and takes those that can run from the worklist. -/
def scan (x : Roster) (es : List DeferredEntry) : Roster :=
  { x with
    waiting := (x.waiting ++ es).waiting x.loaded
    underway := (x.waiting ++ es).ready x.loaded ++ x.underway
    registered := x.registered ++ es }

/-- What can happen to the roster of a runtime, with the entries that are handed to it. -/
inductive Step (x : Roster) : List DeferredEntry → Roster → Prop where
  | same : Step x [] x
  | merged (loaded : ChunkId → Bool) (es : List DeferredEntry)
      (grows : ∀ c, x.loaded c → loaded c) :
    Step x es { x with loaded := loaded, announced := es ++ x.announced, due := true }
  | deferred (es rest : List DeferredEntry) (due : Bool) (announced : x.announced = es ++ rest) :
    Step x [] { x.scan es with announced := rest, due := due }
  | scanned (es : List DeferredEntry) : Step x es (x.scan es)
  | entered (e : DeferredEntry) (rest : List DeferredEntry) (underway : x.underway = e :: rest) :
    Step x [] { x with underway := rest, entered := x.entered ++ [e] }

/-- No entry is lost, none runs early, and none is overlooked. -/
structure Fair (x : Roster) (offered : List DeferredEntry) : Prop where
  conserved : ∀ e, offered.count e =
    x.entered.count e + x.waiting.count e + x.underway.count e + x.announced.count e
  ready : ∀ e ∈ x.underway, e.isReady x.loaded
  awake : ∀ e ∈ x.waiting, e.isReady x.loaded → x.due

variable {x y : Roster} {offered es : List DeferredEntry} {e : DeferredEntry}

/-- An entry that can run still can when more chunks are loaded. -/
theorem isReady_of_grows {loaded loaded' : ChunkId → Bool} (grows : ∀ c, loaded c → loaded' c)
    (ready : e.isReady loaded) : e.isReady loaded' := by
  unfold DeferredEntry.isReady at ready ⊢
  rw [List.all_eq_true] at ready ⊢
  intro c member
  exact grows c (ready c member)

/-- An entry is ready if all its chunks are loaded. -/
theorem mem_ready {loaded : ChunkId → Bool} {w : Worklist} :
    e ∈ w.ready loaded ↔ e ∈ w ∧ e.isReady loaded := List.mem_filter

/-- The other entries wait. -/
theorem mem_waiting {loaded : ChunkId → Bool} {w : Worklist} :
    e ∈ w.waiting loaded ↔ e ∈ w ∧ ¬ e.isReady loaded := by
  simp [Worklist.waiting]

/-- Every entry of a worklist either can run or still waits. -/
theorem count_ready_add_count_waiting (loaded : ChunkId → Bool) (w : Worklist)
    (e : DeferredEntry) : (w.ready loaded).count e + (w.waiting loaded).count e = w.count e := by
  have split := List.countP_eq_countP_filter_add w (· == e) (·.isReady loaded)
  simpa [List.count, Worklist.ready, Worklist.waiting] using split.symm

namespace Fair

/-- Loading chunks is fair if the entries that can run now are to be looked for. -/
theorem merged (h : x.Fair offered) {loaded : ChunkId → Bool} (grows : ∀ c, x.loaded c → loaded c) :
    { x with loaded := loaded, announced := es ++ x.announced, due := true : Roster }.Fair
      (offered ++ es) where
  conserved := by
    intro e
    have before := h.conserved e
    simp only [List.count_append]
    omega
  ready := fun e member => isReady_of_grows grows (h.ready e member)
  awake := fun _ _ _ => rfl

/-- A scan takes entries that can run. -/
theorem ready_scan (h : x.Fair offered) (es : List DeferredEntry) :
    ∀ e ∈ (x.scan es).underway, e.isReady x.loaded := by
  intro e member
  rcases List.mem_append.mp member with taken | before
  · exact (mem_ready.mp taken).2
  · exact h.ready e before

/-- After a scan no entry that waits can run. -/
theorem not_ready_of_scan (x : Roster) (es : List DeferredEntry) :
    ∀ e ∈ (x.scan es).waiting, ¬ e.isReady x.loaded :=
  fun _ member => (mem_waiting.mp member).2

/-- A scan is fair: it takes all that can run, and leaves those that cannot. -/
theorem scanned (h : x.Fair offered) (es : List DeferredEntry) :
    (x.scan es).Fair (offered ++ es) where
  conserved := by
    intro e
    have before := h.conserved e
    have split := count_ready_add_count_waiting x.loaded (x.waiting ++ es) e
    simp only [scan, List.count_append] at split ⊢
    omega
  ready := h.ready_scan es
  awake := fun e member ready => absurd ready (not_ready_of_scan x es e member)

/-- So is the scan of a delivery whose entries were announced. -/
theorem deferred (h : x.Fair offered) {rest : List DeferredEntry}
    (announced : x.announced = es ++ rest) (due : Bool) :
    { x.scan es with announced := rest, due := due : Roster }.Fair offered where
  conserved := by
    intro e
    have before := h.conserved e
    have split := count_ready_add_count_waiting x.loaded (x.waiting ++ es) e
    rw [announced] at before
    simp only [scan, List.count_append] at before split ⊢
    omega
  ready := h.ready_scan es
  awake := fun e member ready => absurd ready (not_ready_of_scan x es e member)

/-- To run an entry that was taken is fair. -/
theorem entered (h : x.Fair offered) {rest : List DeferredEntry} (underway : x.underway = e :: rest) :
    { x with underway := rest, entered := x.entered ++ [e] : Roster }.Fair offered where
  conserved := by
    intro e'
    have before := h.conserved e'
    rw [underway] at before
    simp only [List.count_cons, List.count_append, List.count_nil] at before ⊢
    omega
  ready := fun e member => h.ready e (underway ▸ List.mem_cons_of_mem _ member)
  awake := h.awake

/-- **Every step keeps the roster fair.** -/
theorem step (h : x.Fair offered) (step : Step x es y) : y.Fair (offered ++ es) := by
  cases step with
  | same => simpa using h
  | merged loaded es grows => exact h.merged grows
  | deferred es rest due announced => simpa using h.deferred announced due
  | scanned es => exact h.scanned es
  | entered e rest underway => simpa using h.entered underway

end Fair

/-! ## The order of entries -/

/-- Entries that are underway one after the other. -/
def Queued (x : Roster) (es : List DeferredEntry) : Prop :=
  ∃ before after, x.underway = before ++ es ++ after

/-- Of the entries that are underway one after the other, some are run next, in order, and the others
stay so. -/
def Follows (x : Roster) (es : List DeferredEntry) (y : Roster) : Prop :=
  ∃ i new, y.entered = x.entered ++ new ∧ (es.take i).Sublist new ∧ y.Queued (es.drop i)

/-- After a step, entries that were taken before are still to be run in their order, or have been. -/
theorem Step.follows (step : Step x es y) {taken : List DeferredEntry} (queued : x.Queued taken) :
    x.Follows taken y := by
  obtain ⟨before, after, underway⟩ := queued
  cases step with
  | same => exact ⟨0, [], by simp, by simp, before, after, underway⟩
  | merged => exact ⟨0, [], by simp, by simp, before, after, underway⟩
  | deferred es rest due announced =>
    refine ⟨0, [], by simp [scan], by simp, (x.waiting ++ es).ready x.loaded ++ before, after, ?_⟩
    simp [scan, underway]
  | scanned es =>
    refine ⟨0, [], by simp [scan], by simp, (x.waiting ++ es).ready x.loaded ++ before, after, ?_⟩
    simp [scan, underway]
  | entered e rest head =>
    rw [head] at underway
    cases before with
    | cons e' before =>
      -- An entry in front of them is run.
      obtain ⟨rfl, rest⟩ := List.cons.inj underway
      exact ⟨0, [e], rfl, by simp, before, after, rest⟩
    | nil =>
      cases taken with
      | nil => exact ⟨0, [e], rfl, by simp, [], rest, rfl⟩
      | cons e' taken =>
        -- The first of them is run.
        obtain ⟨rfl, rest⟩ := List.cons.inj underway
        exact ⟨1, [e], rfl, by simp, [], after, rest⟩

/-- The entries that a step takes from the worklist can run, and are underway in the order in which
they were registered. -/
theorem Step.takes {given : List DeferredEntry} (step : Step x given y) :
    ∃ es taken, y.registered = x.registered ++ es ∧
      (taken ++ y.waiting).Perm (x.waiting ++ es) ∧ taken.Sublist (x.waiting ++ es) ∧
      y.waiting.Sublist (x.waiting ++ es) ∧ (∀ e ∈ taken, e.isReady y.loaded) ∧ y.Queued taken := by
  have scanned (es : List DeferredEntry) :
      ((x.waiting ++ es).ready x.loaded ++ (x.waiting ++ es).waiting x.loaded).Perm
        (x.waiting ++ es) := List.filter_append_perm ..
  have still : (([] : List DeferredEntry) ++ x.waiting).Perm (x.waiting ++ []) := by simp
  cases step with
  | same => exact ⟨[], [], by simp, still, by simp, by simp, by simp, [], _, rfl⟩
  | merged => exact ⟨[], [], by simp, still, by simp, by simp, by simp, [], _, rfl⟩
  | deferred es rest due announced =>
    exact ⟨es, _, rfl, scanned es, List.filter_sublist, List.filter_sublist,
      fun e member => (mem_ready.mp member).2, [], x.underway, rfl⟩
  | scanned es =>
    exact ⟨given, _, rfl, scanned given, List.filter_sublist, List.filter_sublist,
      fun e member => (mem_ready.mp member).2, [], x.underway, rfl⟩
  | entered e rest underway => exact ⟨[], [], by simp, still, by simp, by simp, by simp, [], _, rfl⟩

/-- So they are after several steps. -/
theorem Follows.trans {z : Roster} {taken : List DeferredEntry} (first : x.Follows taken y)
    (second : ∀ left, y.Queued left → y.Follows left z) : x.Follows taken z := by
  obtain ⟨i, new, entered, run, queued⟩ := first
  obtain ⟨j, new', entered', run', queued'⟩ := second _ queued
  refine ⟨i + j, new ++ new', ?_, ?_, ?_⟩
  · rw [entered', entered, List.append_assoc]
  · rw [List.take_add]
    exact run.append run'
  · rw [← List.drop_drop]
    exact queued'

end Roster

end ChunkLoading
