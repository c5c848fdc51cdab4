import ChunkLoading.Page.Store

/-!
# The operations of a store

One equation for each operation, through what a store is known by: `state`, `factory?`, the number
of attempts and the number of refused steps. A chunk that is not in its `failed` state is never
refused a step, so the equations of the operations have that as their only assumption.
-/

namespace ChunkLoading

/-- Whether a chunk in a state is fetched when it is asked for. -/
def ChunkState.isIdle : ChunkState → Bool
  | .notRequested | .hintOnly => true
  | _ => false

namespace Store

variable {s : Store} {c c' : ChunkId} {n : Attempt}

/-- No chunk is found in its failed state. -/
def NoneFailed (s : Store) : Prop := ∀ c, s.state c ≠ .failed

/-! ## Single chunks -/

/-- A chunk has the state that it is assigned, and the others keep theirs. -/
@[simp] theorem state_assign (s : Store) (c : ChunkId) (next : ChunkState) (c' : ChunkId) :
    (s.assign c next).state c' = if c = c' then next else s.state c' := by
  unfold assign state
  by_cases forgotten : next = .notRequested
  · by_cases same : c = c' <;> simp [forgotten, same]
  · by_cases same : c = c' <;> simp [forgotten, same]

@[simp] theorem state_empty (c : ChunkId) : empty.state c = .notRequested := rfl

/-- Puts a chunk under way by a new attempt. -/
def start (s : Store) (c : ChunkId) : Store :=
  { s with attempts := s.attempts + 1 }.assign c (.loading (s.attempts + 1))

/-- Makes a chunk fail, so that it can be requested again. -/
def reset (s : Store) (c : ChunkId) : Store := (s.assign c .failed).assign c .notRequested

/-- A chunk that is started is under way by a new attempt. -/
@[simp] theorem state_start (s : Store) (c c' : ChunkId) :
    (s.start c).state c' = if c = c' then .loading (s.attempts + 1) else s.state c' :=
  state_assign ..

/-- A chunk whose attempt has failed may be asked for again. -/
@[simp] theorem state_reset (s : Store) (c c' : ChunkId) :
    (s.reset c).state c' = if c = c' then .notRequested else s.state c' := by
  simp only [reset, state_assign]
  split <;> rfl

/-- The states of chunks and the factories of modules have nothing to do with each other. -/
@[simp] theorem factory?_assign (s : Store) (c : ChunkId) (next : ChunkState) (m : ModuleId) :
    (s.assign c next).factory? m = s.factory? m := rfl

@[simp] theorem factory?_start (s : Store) (c : ChunkId) (m : ModuleId) :
    (s.start c).factory? m = s.factory? m := rfl

@[simp] theorem factory?_reset (s : Store) (c : ChunkId) (m : ModuleId) :
    (s.reset c).factory? m = s.factory? m := rfl

theorem isLoaded_iff : s.isLoaded c ↔ s.state c = .loaded := by
  simp [isLoaded]

/-- A hint is taken only while nobody asked for the chunk. -/
theorem markHinted_eq (s : Store) (c : ChunkId) : s.markHinted c =
    if s.state c = .notRequested then (true, s.assign c .hintOnly) else (false, s) := by
  unfold markHinted become
  split
  · rename_i idle
    simp [idle, ChunkState.canBecome]
  · rfl

/-- An attempt fails only if its chunk is still under way by it; a late failure is ignored. -/
theorem fail_eq (s : Store) (c : ChunkId) (n : Attempt) : s.fail c n =
    if s.state c = .loading n then (true, s.reset c) else (false, s) := by
  unfold fail become reset
  split
  · rename_i loading
    simp [loading, ChunkState.canBecome]
  · rfl

/-- A chunk that is asked for is there, is under way, or is fetched by a new attempt. -/
theorem beginLoad_eq (unfailed : s.state c ≠ .failed) : s.beginLoad c =
    match s.state c with
    | .loaded => (.ready, s)
    | .loading n => (.attached n, s)
    | _ => (.started (s.attempts + 1), s.start c) := by
  have same : { s with attempts := s.attempts + 1 }.state c = s.state c := rfl
  simp only [beginLoad, become, same]
  cases state : s.state c with
  | failed => exact absurd state unfailed
  | notRequested => rfl
  | hintOnly => rfl
  | loading n => rfl
  | loaded => rfl

/-- A chunk is loaded whatever its state was, and the attempt that it was under way by is given. -/
theorem markLoaded_eq (unfailed : s.state c ≠ .failed) : s.markLoaded c =
    match s.state c with
    | .loaded => (none, s)
    | .loading n => (some n, s.assign c .loaded)
    | _ => (none, s.assign c .loaded) := by
  unfold markLoaded become isLoaded
  cases state : s.state c with
  | failed => exact absurd state unfailed
  | notRequested => rfl
  | hintOnly => rfl
  | loading n => rfl
  | loaded => rfl

/-- Afterwards it is loaded, and the other chunks keep their states. -/
theorem state_markLoaded (unfailed : s.state c ≠ .failed) (c' : ChunkId) :
    (s.markLoaded c).2.state c' = if c = c' then .loaded else s.state c' := by
  rw [markLoaded_eq unfailed]
  split
  · rename_i loaded
    split
    · rename_i same
      rw [← same, loaded]
    · rfl
  · exact state_assign ..
  · exact state_assign ..

@[simp] theorem attempts_markLoaded (unfailed : s.state c ≠ .failed) :
    (s.markLoaded c).2.attempts = s.attempts := by
  rw [markLoaded_eq unfailed]
  split <;> rfl

@[simp] theorem refusals_markLoaded (unfailed : s.state c ≠ .failed) :
    (s.markLoaded c).2.refusals = s.refusals := by
  rw [markLoaded_eq unfailed]
  split <;> rfl

@[simp] theorem factories_markLoaded (unfailed : s.state c ≠ .failed) :
    (s.markLoaded c).2.factories = s.factories := by
  rw [markLoaded_eq unfailed]
  split <;> rfl

/-- A chunk that is marked gives the attempt that it was loaded by, if there was one. -/
theorem attempt_markLoaded (unfailed : s.state c ≠ .failed) (n : Attempt) :
    (s.markLoaded c).1 = some n ↔ s.state c = .loading n := by
  rw [markLoaded_eq unfailed]
  cases s.state c <;> simp

/-- No chunk gets into the failed state by being loaded. -/
theorem NoneFailed.markLoaded (h : s.NoneFailed) (c : ChunkId) : (s.markLoaded c).2.NoneFailed := by
  intro c'
  rw [state_markLoaded (h c)]
  split
  · simp
  · exact h c'

/-! ## The chunks of a delivery -/

/-- The chunks of a delivery are marked one after the other. -/
theorem markAll_cons (s : Store) (c : ChunkId) (cs : List ChunkId) : s.markAll (c :: cs) =
    ((s.markLoaded c).1.toList.map (c, ·) ++ ((s.markLoaded c).2.markAll cs).1,
      ((s.markLoaded c).2.markAll cs).2) := by
  simp only [markAll]
  cases (s.markLoaded c).1 <;> rfl

/-- What marking the chunks of a delivery comes to: all are loaded, and nothing else changes. -/
structure MarkedAll (s : Store) (cs : List ChunkId) (waiting : List (ChunkId × Attempt))
    (t : Store) : Prop where
  state : ∀ c, t.state c = if c ∈ cs then .loaded else s.state c
  attempts : t.attempts = s.attempts
  refusals : t.refusals = s.refusals
  factories : t.factories = s.factories
  /-- The attempts that end are those that chunks of the delivery waited for. -/
  ended : ∀ w, w ∈ waiting ↔ w.1 ∈ cs ∧ s.state w.1 = .loading w.2
  /-- Each chunk ends its attempt once, however often the delivery names it. -/
  once : (waiting.map (·.1)).Nodup

/-- All chunks of a delivery are loaded afterwards, and the attempts that end are those by which they were under
way, each once. -/
theorem markAll_spec (h : s.NoneFailed) (cs : List ChunkId) :
    MarkedAll s cs (s.markAll cs).1 (s.markAll cs).2 := by
  induction cs generalizing s with
  | nil => constructor <;> simp [markAll]
  | cons c cs ih =>
    have rest := ih (h.markLoaded c)
    have state := state_markLoaded (h c)
    -- The chunk at the front has left its attempt by the time that the rest is marked.
    have later : ∀ w, w ∈ ((s.markLoaded c).2.markAll cs).1 ↔
        c ≠ w.1 ∧ w.1 ∈ cs ∧ s.state w.1 = .loading w.2 := by
      intro w
      rw [rest.ended w, state]
      by_cases same : c = w.1 <;> simp [same]
    have front : ∀ w, w ∈ (s.markLoaded c).1.toList.map (c, ·) ↔
        c = w.1 ∧ s.state w.1 = .loading w.2 := by
      rintro ⟨c', n⟩
      simp only [List.mem_map, Option.mem_toList, attempt_markLoaded (h c),
        Prod.mk.injEq]
      constructor
      · rintro ⟨n', loading, rfl, rfl⟩
        exact ⟨rfl, loading⟩
      · rintro ⟨rfl, loading⟩
        exact ⟨n, loading, rfl, rfl⟩
    rw [markAll_cons]
    constructor
    · -- The chunk at the front is loaded, whether the rest names it or not.
      intro c'
      rw [rest.state, state]
      by_cases same : c = c'
      · simp [same]
      · simp [same, Ne.symm same]
    · rw [rest.attempts, attempts_markLoaded (h c)]
    · rw [rest.refusals, refusals_markLoaded (h c)]
    · rw [rest.factories, factories_markLoaded (h c)]
    · intro w
      rw [List.mem_append, front, later, List.mem_cons]
      by_cases same : c = w.1
      · simp [same]
      · simp [same, Ne.symm same]
    · rw [List.map_append, List.nodup_append]
      refine ⟨?_, rest.once, ?_⟩
      · cases (s.markLoaded c).1 <;> simp
      · -- The front ends an attempt of its own chunk, the rest those of others.
        intro c₁ member₁ c₂ member₂
        obtain ⟨w₁, first, rfl⟩ := List.mem_map.mp member₁
        obtain ⟨w₂, second, rfl⟩ := List.mem_map.mp member₂
        have same := ((front w₁).mp first).1
        have other := ((later w₂).mp second).1
        exact fun h => other (same.trans h)

/-! ## The factories of a delivery -/

/-- A module keeps the factory that it has; without one it gets the new one. -/
theorem factory?_register (s : Store) (m : ModuleId) (f : FactoryId) (m' : ModuleId) :
    (s.register m f).2.factory? m' =
      if m = m' then some ((s.factory? m).getD f) else s.factory? m' := by
  unfold register
  split
  · rename_i absent
    by_cases same : m = m' <;> simp_all [factory?]
  · rename_i g present
    by_cases same : m = m'
    · subst same
      simp [present]
    · simp [same]

/-- A registration collides when the factory is not the one that its module has from then on. -/
theorem register_collides (s : Store) (m : ModuleId) (f : FactoryId) :
    (s.register m f).1 = .collision ↔ (s.register m f).2.factory? m ≠ some f := by
  rw [factory?_register]
  unfold register
  split
  · rename_i absent
    simp [absent]
  · rename_i g present
    by_cases same : g = f <;> simp [present, same]

theorem states_register (s : Store) (m : ModuleId) (f : FactoryId) :
    (s.register m f).2 = { s with factories := (s.register m f).2.factories } := by
  unfold register
  split <;> rfl

/-- The factories of a delivery are registered one after the other. -/
theorem registerAll_cons (s : Store) (m : ModuleId) (f : FactoryId)
    (fs : List (ModuleId × FactoryId)) : s.registerAll ((m, f) :: fs) =
      (if (s.register m f).1 = .collision then m :: ((s.register m f).2.registerAll fs).1
        else ((s.register m f).2.registerAll fs).1, ((s.register m f).2.registerAll fs).2) := by
  simp only [registerAll]
  split <;> rfl

/-- What registering the factories of a delivery comes to: the first factory of a module stays, and
those that do not get their module clash. -/
structure RegisteredAll (s : Store) (fs : List (ModuleId × FactoryId)) (clashes : List ModuleId)
    (t : Store) : Prop where
  states : t = { s with factories := t.factories }
  stays : ∀ m f, s.factory? m = some f → t.factory? m = some f
  carried : ∀ x ∈ fs, (t.factory? x.1).isSome
  source : ∀ m f, t.factory? m = some f → s.factory? m = some f ∨ (m, f) ∈ fs
  clash : clashes = (fs.filter fun x => !(t.factory? x.1 = some x.2)).map (·.1)

/-- Afterwards all modules of a delivery have a factory, and those clash that were left with another one. -/
theorem registerAll_spec (s : Store) (fs : List (ModuleId × FactoryId)) :
    RegisteredAll s fs (s.registerAll fs).1 (s.registerAll fs).2 := by
  induction fs generalizing s with
  | nil => constructor <;> simp [registerAll]
  | cons x fs ih =>
    obtain ⟨m, f⟩ := x
    have rest := ih (s.register m f).2
    have first := factory?_register s m f
    -- The module at the front keeps the factory that it has when the rest is registered.
    have kept : ((s.register m f).2.registerAll fs).2.factory? m =
        (s.register m f).2.factory? m := by
      have held : (s.register m f).2.factory? m = some ((s.factory? m).getD f) := by
        rw [first, if_pos rfl]
      rw [held]
      exact rest.stays _ _ held
    rw [registerAll_cons]
    constructor
    · rw [rest.states, states_register]
    · -- What a module has before the front is registered, it has afterwards.
      intro m' g held
      refine rest.stays _ _ ?_
      rw [first]
      split
      · rename_i same
        subst same
        simp [held]
      · exact held
    · intro x member
      rcases List.mem_cons.mp member with rfl | member
      · rw [kept, first]
        simp
      · exact rest.carried x member
    · intro m' g held
      rcases rest.source m' g held with before | member
      · -- It comes from the front, or was there before.
        rw [first] at before
        split at before
        · rename_i same
          subst same
          cases present : s.factory? m with
          | none =>
            rw [present] at before
            obtain rfl : f = g := by simpa using before
            exact .inr List.mem_cons_self
          | some g' =>
            rw [present] at before
            exact .inl before
        · exact .inl before
      · exact .inr (List.mem_cons_of_mem _ member)
    · -- The front clashes if the factory that its module is left with is another one.
      simp only [register_collides, ← kept, List.filter_cons]
      by_cases agree : ((s.register m f).2.registerAll fs).2.factory? m = some f
      · simpa [agree] using rest.clash
      · simpa [agree] using rest.clash

/-! ## Merging -/

/-- What merging a delivery into a store comes to. -/
structure MergedInto (s : Store) (d : Delivery) (m : Merged) : Prop where
  state : ∀ c, m.store.state c = if c ∈ d.chunks then .loaded else s.state c
  attempts : m.store.attempts = s.attempts
  refusals : m.store.refusals = s.refusals
  loaded : m.loaded = (d.chunks.filter (!s.isLoaded ·)).eraseDups
  ended : ∀ w, w ∈ m.waiting ↔ w.1 ∈ d.chunks ∧ s.state w.1 = .loading w.2
  once : (m.waiting.map (·.1)).Nodup
  stays : ∀ x f, s.factory? x = some f → m.store.factory? x = some f
  carried : ∀ x ∈ d.modules, (m.store.factory? x.1).isSome
  source : ∀ x f, m.store.factory? x = some f → s.factory? x = some f ∨ (x, f) ∈ d.modules
  clashes : m.clashes = if d.chunks.all s.isLoaded then [] else
    (d.modules.filter fun x => !(m.store.factory? x.1 = some x.2)).map (·.1)

/-- Merging a delivery is marking its chunks and registering its factories, and clashes count only if the delivery
loads a chunk. -/
theorem merge_spec (h : s.NoneFailed) (d : Delivery) : MergedInto s d (s.merge d) := by
  have marked := markAll_spec h d.chunks
  have registered := registerAll_spec (s.markAll d.chunks).2 d.modules
  have same : ∀ m, (s.markAll d.chunks).2.factory? m = s.factory? m := by
    intro m
    simp only [factory?, marked.factories]
  have states : (s.merge d).store =
      { (s.markAll d.chunks).2 with factories := (s.merge d).store.factories } := registered.states
  constructor
  · intro c
    rw [states]
    exact marked.state c
  · rw [states]
    exact marked.attempts
  · rw [states]
    exact marked.refusals
  · rfl
  · exact marked.ended
  · exact marked.once
  · intro m f held
    exact registered.stays m f ((same m).trans held)
  · exact registered.carried
  · intro m f held
    rw [← same]
    exact registered.source m f held
  · show (if d.chunks.all s.isLoaded then [] else _) = _
    rw [registered.clash]
    rfl

/-! ## Steps -/

/-- What can happen to the store of a runtime that is there. -/
inductive Step (s : Store) : Store → Prop where
  | same : Step s s
  | hinted (c : ChunkId) (idle : s.state c = .notRequested) : Step s (s.assign c .hintOnly)
  | started (c : ChunkId) (idle : (s.state c).isIdle) : Step s (s.start c)
  | rejected (c : ChunkId) (n : Attempt) (loading : s.state c = .loading n) : Step s (s.reset c)
  | merged (d : Delivery) : Step s (s.merge d).store

variable {t : Store}

/-- No step leads to the failed state. -/
theorem Step.unfailed (step : Step s t) (h : s.NoneFailed) : t.NoneFailed := by
  intro c'
  cases step with
  | same => exact h c'
  | hinted c idle =>
    rw [state_assign]
    split
    · simp
    · exact h c'
  | started c idle =>
    rw [state_start]
    split
    · simp
    · exact h c'
  | rejected c n loading =>
    rw [state_reset]
    split
    · simp
    · exact h c'
  | merged d =>
    rw [(merge_spec h d).state]
    split
    · simp
    · exact h c'

/-- No step of a store is refused. -/
theorem Step.refusals (step : Step s t) (h : s.NoneFailed) : t.refusals = s.refusals := by
  cases step with
  | merged d => exact (merge_spec h d).refusals
  | _ => rfl

/-- A loaded chunk stays loaded. -/
theorem Step.loaded (step : Step s t) (h : s.NoneFailed) (loaded : s.state c = .loaded) :
    t.state c = .loaded := by
  cases step with
  | same => exact loaded
  | hinted c' idle =>
    rw [state_assign, if_neg, loaded]
    rintro rfl
    rw [loaded] at idle
    cases idle
  | started c' idle =>
    rw [state_start, if_neg, loaded]
    rintro rfl
    rw [loaded] at idle
    cases idle
  | rejected c' n loading =>
    rw [state_reset, if_neg, loaded]
    rintro rfl
    rw [loaded] at loading
    cases loading
  | merged d =>
    rw [(merge_spec h d).state]
    split
    · rfl
    · exact loaded

/-- A module that has a factory keeps it. -/
theorem Step.factory? (step : Step s t) (h : s.NoneFailed) {m : ModuleId} {f : FactoryId}
    (held : s.factory? m = some f) : t.factory? m = some f := by
  cases step with
  | merged d => exact (merge_spec h d).stays m f held
  | _ => exact held

end Store

end ChunkLoading
