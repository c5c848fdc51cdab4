import ChunkLoading.Proofs.Lists
import ChunkLoading.Proofs.Soundness
import Mathlib.Computability.Language

/-!
# The life cycle of a chunk

What happens to a chunk in a runtime is written down as a word of signs, one for each hint, resource
request, rejection and load. `Reachable.lifeCycle` says that on every page this word is a beginning
of a word of the language `(hint? inject reject)* hint? inject? load`, and which beginnings go with
which state of the chunk.
-/

open Computability

namespace ChunkLoading

/-- What happens to a chunk. -/
inductive Sign where
  /-- The host is told that the chunk may be needed. -/
  | hint
  /-- The host is asked for a resource. -/
  | inject
  /-- An attempt to load the chunk is rejected. -/
  | reject
  /-- The chunk becomes loaded. -/
  | load
  deriving DecidableEq

namespace Sign

/-- At most one sign of a kind. -/
def maybe (x : Sign) : Language Sign := 1 + {[x]}

/-- Attempts that were rejected, perhaps with hints before them. -/
def rounds : Language Sign := (maybe .hint * {[.inject]} * {[.reject]})∗

/-- The words of a chunk that has not been loaded yet. -/
def unloaded : Language Sign := rounds * maybe .hint * maybe .inject

/-- The words of the whole life of a chunk. -/
def lifeCycle : Language Sign := unloaded * {[.load]}

theorem self_mem_maybe (x : Sign) : [x] ∈ maybe x := .inr rfl

/-- A word can do without what may come next. -/
theorem mem_mul_maybe {l : Language Sign} {w : List Sign} (h : w ∈ l) (x : Sign) :
    w ∈ l * maybe x :=
  ⟨w, h, [], .inl rfl, List.append_nil w⟩

/-- A word of rounds may end with a load. -/
theorem append_mem_lifeCycle {w : List Sign} (h : w ∈ unloaded) : w ++ [.load] ∈ lifeCycle :=
  Language.append_mem_mul h rfl

theorem nil_mem_rounds : [] ∈ rounds := Language.nil_mem_kstar _

/-- In rejected attempts there is one rejection to each resource request. -/
theorem count_of_mem_rounds {w : List Sign} (h : w ∈ rounds) : w.count .inject = w.count .reject := by
  obtain ⟨words, rfl, all⟩ := h
  induction words with
  | nil => rfl
  | cons word words ih =>
    obtain ⟨-, ⟨hint, hinted, -, rfl, rfl⟩, -, rfl, rfl⟩ := all word List.mem_cons_self
    have rest := ih fun y member => all y (List.mem_cons_of_mem _ member)
    rcases hinted with rfl | rfl
    · simp [rest]
    · simp [rest]

end Sign

namespace ChunkState

open Sign

/-- The words that lead to a state. A chunk that shipped with its runtime is loaded by no word. -/
def language : ChunkState → Language Sign
  | .notRequested => rounds
  | .hintOnly => rounds * {[.hint]}
  | .loading _ => rounds * maybe .hint * {[.inject]}
  | .loaded => lifeCycle + 1
  | .failed => 0

/-- What one move can do to the state of a chunk, with the signs of it. -/
inductive Advance : ChunkState → List Sign → ChunkState → Prop
  | stay (s : ChunkState) : Advance s [] s
  | hint : Advance .notRequested [.hint] .hintOnly
  | inject {s : ChunkState} (n : Attempt) (idle : s.isIdle) : Advance s [.inject] (.loading n)
  | reject (n : Attempt) : Advance (.loading n) [.reject] .notRequested
  | load {s : ChunkState} (absent : s ≠ .loaded) (unfailed : s ≠ .failed) : Advance s [.load] .loaded

variable {s t : ChunkState} {w new : List Sign}

/-- A word that leads to a chunk that is not loaded lacks nothing but the load. -/
theorem mem_unloaded (absent : s ≠ .loaded) (h : w ∈ s.language) : w ∈ unloaded := by
  cases s with
  | notRequested => exact mem_mul_maybe (mem_mul_maybe h .hint) .inject
  | hintOnly =>
    obtain ⟨w, round, -, rfl, rfl⟩ := h
    exact mem_mul_maybe (Language.append_mem_mul round (self_mem_maybe .hint)) .inject
  | loading n =>
    obtain ⟨w, hinted, -, rfl, rfl⟩ := h
    exact Language.append_mem_mul hinted (self_mem_maybe .inject)
  | loaded => exact absurd rfl absent
  | failed => exact absurd h (Language.notMem_zero w)

/-- A move leads from the words of a state to those of the next one. -/
theorem Advance.mem_language (advance : Advance s new t) (h : w ∈ s.language) :
    w ++ new ∈ t.language := by
  cases advance with
  | stay => simpa using h
  | hint => exact Language.append_mem_mul h rfl
  | inject n idle =>
    refine Language.append_mem_mul ?_ rfl
    cases s with
    | notRequested => exact mem_mul_maybe h .hint
    | hintOnly =>
      obtain ⟨w, round, -, rfl, rfl⟩ := h
      exact Language.append_mem_mul round (self_mem_maybe .hint)
    | loading | loaded | failed => cases idle
  | reject n =>
    -- The attempt that is rejected makes one more round.
    obtain ⟨-, ⟨w, round, hint, hinted, rfl⟩, -, rfl, rfl⟩ := h
    have last : hint ++ [.inject] ++ [.reject] ∈ maybe .hint * {[.inject]} * {[.reject]} :=
      Language.append_mem_mul (Language.append_mem_mul hinted rfl) rfl
    have closed : rounds * (maybe .hint * {[.inject]} * {[.reject]}) ≤ rounds := kstar_mul_le_kstar
    have more : w ++ (hint ++ [.inject] ++ [.reject]) ∈ rounds :=
      Set.mem_of_mem_of_subset (Language.append_mem_mul round last) closed
    show w ++ hint ++ [.inject] ++ [.reject] ∈ rounds
    simpa using more
  | load absent unfailed => exact .inl (append_mem_lifeCycle (mem_unloaded absent h))

/-- A word that leads to a state is the beginning of a whole life. -/
theorem begins_lifeCycle (h : w ∈ s.language) : ∃ v ∈ lifeCycle, w <+: v := by
  have followed (v : List Sign) (h : v ∈ unloaded) : ∃ v' ∈ lifeCycle, v <+: v' :=
    ⟨v ++ [.load], append_mem_lifeCycle h, List.prefix_append ..⟩
  by_cases loaded : s = .loaded
  · subst loaded
    rcases h with whole | rfl
    · exact ⟨w, whole, List.prefix_rfl⟩
    · -- The chunk shipped with its runtime.
      exact followed [] (mem_unloaded (s := .notRequested) (by simp) nil_mem_rounds)
  · exact followed w (mem_unloaded loaded h)

/-- At most one resource request has not been rejected. -/
theorem count_le_of_mem_language (h : w ∈ s.language) : w.count .inject ≤ w.count .reject + 1 := by
  have unloaded (v : List Sign) (h : v ∈ unloaded) : v.count .inject ≤ v.count .reject + 1 := by
    obtain ⟨-, ⟨v, round, hint, hinted, rfl⟩, inject, injected, rfl⟩ := h
    have count := count_of_mem_rounds round
    rcases hinted with rfl | rfl <;> rcases injected with rfl | rfl <;> simp [count]
  by_cases loaded : s = .loaded
  · subst loaded
    rcases h with ⟨w, whole, -, rfl, rfl⟩ | rfl
    · simpa using unloaded w whole
    · simp
  · exact unloaded w (mem_unloaded loaded h)

/-- While a chunk is under way it is neither hinted nor requested, and a loaded one is left alone. -/
theorem Advance.guarded (advance : Advance s new t) :
    ((∃ n, s = .loading n) → .hint ∉ new ∧ .inject ∉ new) ∧ (s = .loaded → new = []) := by
  cases advance with
  | stay => simp
  | hint => simp
  | inject n idle => cases s <;> simp_all [isIdle]
  | reject n => simp
  | load absent unfailed => simp [absent]

end ChunkState

/-- The sign that an event gives of a chunk in a runtime. -/
def Event.sign? (r : RuntimeId) (c : ChunkId) : Event → Option Sign
  | .hinted r' c' .. => if r' = r ∧ c' = c then some .hint else none
  | .injected _ q => if q.runtime = r ∧ q.chunk = c then some .inject else none
  | .rejected r' c' _ => if r' = r ∧ c' = c then some .reject else none
  | .loaded r' c' => if r' = r ∧ c' = c then some .load else none
  | _ => none

/-- The signs of a chunk in a list of events, the newest event first. -/
def signsOf (r : RuntimeId) (c : ChunkId) (log : List Event) : List Sign :=
  log.reverse.filterMap (Event.sign? r c)

@[simp] theorem signsOf_append (r : RuntimeId) (c : ChunkId) (new old : List Event) :
    signsOf r c (new ++ old) = signsOf r c old ++ signsOf r c new := by
  simp [signsOf]

/-- The chunks that a delivery completes are loaded once each. -/
theorem signsOf_loaded {cs : List ChunkId} (once : cs.Nodup) (r r' : RuntimeId) (c : ChunkId) :
    (cs.map (Event.loaded r' ·)).filterMap (Event.sign? r c) =
      if r' = r ∧ c ∈ cs then [.load] else [] := by
  induction cs with
  | nil => simp
  | cons c' cs ih =>
    obtain ⟨new, once⟩ := List.nodup_cons.mp once
    rw [List.map_cons, List.filterMap_cons, ih once]
    by_cases runtime : r' = r
    · by_cases same : c' = c
      · subst same
        simp [Event.sign?, runtime, new]
      · simp [Event.sign?, runtime, same, Ne.symm same]
    · simp [Event.sign?, runtime]

namespace Page

variable {p : Page} {r : RuntimeId} {c : ChunkId} {m : Move}

/-- What has happened to a chunk in a runtime, in order. -/
def signs (p : Page) (r : RuntimeId) (c : ChunkId) : List Sign := signsOf r c p.log

theorem signs_core (p : Page) (r : RuntimeId) (c : ChunkId) :
    signsOf r c p.core.log = p.signs r c :=
  filterMap_core (fun e beside => by cases e <;> first | rfl | cases beside) p.log

/-- A change of one store, with the events that go with it, advances each chunk. -/
theorem advance_of_change {k k' : Core} {r' : RuntimeId} {s : Store} (es : List Event)
    (new : ChunkId → List Sign) (inRange : r' < k.count)
    (store : k'.store = Function.update k.store r' s) (log : k'.log = es.reverse ++ k.log)
    (signs : ∀ r c, es.filterMap (Event.sign? r c) = if r' = r then new c else [])
    (advance : ∀ c, ChunkState.Advance ((k.store r').state c) (new c) (s.state c))
    (r : RuntimeId) (c : ChunkId) :
    ∃ new, (new ≠ [] → r < k.count) ∧
      ChunkState.Advance ((k.store r).state c) new ((k'.store r).state c) ∧
      signsOf r c k'.log = signsOf r c k.log ++ new := by
  refine ⟨if r' = r then new c else [], ?_, ?_, ?_⟩
  · split
    · rename_i same
      exact fun _ => same ▸ inRange
    · exact fun h => absurd rfl h
  · rw [store]
    by_cases same : r' = r
    · subst same
      simpa using advance c
    · simpa [same, Ne.symm same] using ChunkState.Advance.stay _
  · rw [log, signsOf_append, ← signs, signsOf, signsOf, List.reverse_reverse]

/-- What a move does to a chunk: it advances the state along with the word, unless it builds the
runtime of the chunk. -/
theorem Turn.advance (turn : Turn p m) (unfailed : ∀ r, (p.core.store r).NoneFailed) (r : RuntimeId)
    (c : ChunkId) :
    (∃ rt, Built rt ∧ r = p.core.count ∧ (p.make m).core = p.core.create rt) ∨
      ∃ new, (new ≠ [] → r < p.core.count) ∧
        ChunkState.Advance ((p.core.store r).state c) new (((p.make m).core.store r).state c) ∧
        (p.make m).signs r c = p.signs r c ++ new := by
  rw [← signs_core, ← signs_core]
  cases turn with
  | created b x rt built core =>
    by_cases newest : r = p.core.count
    · exact .inl ⟨rt, built_of_build built, newest, core⟩
    · refine .inr ⟨[], by simp, ?_, by simp [core, Core.create]⟩
      simpa [core, Core.create, newest] using ChunkState.Advance.stay _
  | hinted r' c' kind address nonce crossOrigin inRange idle core =>
    -- A chunk that nobody asked for is hinted.
    refine .inr (advance_of_change _ (fun c => if c' = c then [.hint] else []) inRange
      (by rw [core]; rfl) (by rw [core]; rfl) ?_ ?_ r c)
    · intro r c
      by_cases same : r' = r <;> by_cases same : c' = c <;> simp [Event.sign?, *]
    · intro c
      rw [Store.state_assign]
      split
      · rename_i same
        rw [← same, idle]
        exact .hint
      · exact .stay _
  | started r' c' number q inRange idle request core =>
    obtain ⟨rfl, rfl, -⟩ := request
    -- An idle chunk is requested.
    refine .inr (advance_of_change _ (fun c => if q.chunk = c then [.inject] else []) inRange
      (by rw [core]; rfl) (by rw [core]; rfl) ?_ ?_ r c)
    · intro r c
      by_cases same : q.runtime = r <;> by_cases same : q.chunk = c <;> simp [Event.sign?, *]
    · intro c
      rw [Store.state_start]
      split
      · rename_i same
        rw [← same]
        exact .inject _ idle
      · exact .stay _
  | rejected r' c' n e inRange loading own alive core =>
    -- The resource of a chunk under way is rejected.
    refine .inr (advance_of_change [.rejected r' c' n, .resolved r' c' n (.failed e)]
      (fun c => if c' = c then [.reject] else []) inRange
      (by rw [core]; rfl) (by rw [core]; rfl) ?_ ?_ r c)
    · intro r c
      by_cases same : r' = r <;> by_cases same : c' = c <;> simp [Event.sign?, *]
    · intro c
      rw [Store.state_reset]
      split
      · rename_i same
        rw [← same, loading]
        exact .reject n
      · exact .stay _
  | merged r' d inRange core =>
    -- A delivery loads those of its chunks that are not loaded yet, each of them once.
    have spec := Store.merge_spec (unfailed r') d
    have fresh (c : ChunkId) : c ∈ ((p.core.store r').merge d).loaded ↔
        c ∈ d.chunks ∧ (p.core.store r').state c ≠ .loaded := by
      rw [spec.loaded, List.mem_eraseDups, List.mem_filter]
      simp [Store.isLoaded]
    have once : ((p.core.store r').merge d).loaded.Nodup := by
      rw [spec.loaded]
      exact nodup_eraseDups _
    refine .inr (advance_of_change _
      (fun c => if c ∈ ((p.core.store r').merge d).loaded then [.load] else []) inRange
      (by rw [core]; rfl) (by rw [core]; rfl) ?_ ?_ r c)
    · intro r c
      rw [List.filterMap_cons, signsOf_loaded once]
      by_cases same : r' = r <;> simp [Event.sign?, same]
    · intro c
      show ChunkState.Advance ((p.core.store r').state c) _ (((p.core.store r').merge d).store.state c)
      rw [spec.state]
      by_cases announced : c ∈ d.chunks
      · by_cases loaded : (p.core.store r').state c = .loaded
        · simpa [fresh, announced, loaded] using ChunkState.Advance.stay _
        · simpa [fresh, announced, loaded] using ChunkState.Advance.load loaded (unfailed r' c)
      · simpa [fresh, announced] using ChunkState.Advance.stay _
  | resolved r' d waiting clashes k inRange pending core =>
    -- Attempts that end by a delivery are no news of their chunks.
    have silent (ws : List (ChunkId × Attempt)) (result : LoadResult) :
        signsOf r c (ws.map fun w => .resolved r' w.1 w.2 result).reverse = [] := by
      simp [signsOf, Event.sign?]
    refine .inr ⟨[], by simp, ?_, ?_⟩
    · simpa [pending, core, Core.call] using ChunkState.Advance.stay _
    · rw [core, pending, Core.log_resolve, signsOf_append, silent]
      rfl
  | _ =>
    -- Nothing else is news of a chunk.
    refine .inr ⟨[], by simp, ?_, ?_⟩
    · simpa [*, Core.call, Core.note, Core.runReady, Core.setWorklist] using
        ChunkState.Advance.stay _
    · simp [*, Core.call, Core.note, Core.runReady, Core.setWorklist, signsOf, Event.sign?]

/-- The word of a chunk leads to its state, and a runtime that is yet to be built has no words. -/
structure Worded (p : Page) : Prop where
  word : ∀ r c, p.signs r c ∈ ((p.store r).state c).language
  new : ∀ r c, p.core.count ≤ r → p.signs r c = []

theorem Worded.make (sound : p.Sound) (worded : p.Worded) (m : Move) : (p.make m).Worded := by
  have turn := turn sound m
  constructor
  · intro r c
    show _ ∈ (((p.make m).core.store r).state c).language
    rcases turn.advance sound.unfailed r c with ⟨rt, built, rfl, core⟩ | ⟨new, -, advance, signs⟩
    · -- A chunk of the new runtime is loaded if it ships with it, and no word speaks of it.
      have none : (p.make m).signs p.core.count c = [] := by
        rw [← signs_core, core]
        exact (signs_core p _ c).trans (worded.new _ c (Nat.le_refl _))
      have state : ((p.make m).core.store p.core.count).state c = rt.store.state c := by
        simp [core, Core.create]
      rw [none, state]
      rcases built.state c with idle | loaded
      · rw [idle]
        exact Sign.nil_mem_rounds
      · rw [loaded]
        exact .inr rfl
    · rw [signs]
      exact advance.mem_language (worded.word r c)
  · intro r c beyond
    have before : p.core.count ≤ r := Nat.le_trans turn.count beyond
    rcases turn.advance sound.unfailed r c with ⟨rt, -, rfl, core⟩ | ⟨new, inRange, -, signs⟩
    · rw [core] at beyond
      exact absurd beyond (Nat.not_succ_le_self _)
    · -- Only a runtime that is there gives signs.
      rw [signs, worded.new r c before, List.nil_append]
      by_contra something
      exact absurd (inRange something) (Nat.not_lt.mpr before)

/-- On every page of every run each word leads to its state. -/
theorem Reachable.worded (h : p.Reachable) : p.Worded := by
  induction h with
  | fresh onInject onHint => exact ⟨fun _ _ => Sign.nil_mem_rounds, fun _ _ _ => rfl⟩
  | make m h ih => exact ih.make h.sound m

/-- No step of a chunk was ever refused. -/
theorem Reachable.refusals (h : p.Reachable) (r : RuntimeId) : (p.store r).refusals = 0 := by
  induction h with
  | fresh onInject onHint => rfl
  | make m h ih =>
    rename_i p
    rcases (h.turn m).store_or_built r with step | ⟨rt, built, store⟩
    · exact (step.refusals (h.sound.unfailed r)).trans ih
    · rw [store]
      exact built.refusals

/-- A request that reaches the script handler. -/
theorem make_script {only : Option (List ChunkId)} {handlers : List Handler}
    {got : List Awaited} {caller : Caller} {ts : List Task}
    (agenda : p.agenda = .gather r c (.script only :: handlers) got caller :: ts)
    (serves : Handler.serves only c) (unfailed : (p.store r).state c ≠ .failed) :
    if ((p.store r).state c).isIdle then
      ∃ q, q.runtime = r ∧ q.chunk = c ∧ q.attempt = (p.store r).attempts + 1 ∧
        (p.make .task).requests = p.requests ++ [q] ∧
        (p.make .task).log = .injected p.requests.length q :: p.log
    else (p.make .task).requests = p.requests ∧ (p.make .task).log = p.log := by
  have made : p.make .task = p.rest.gatherFrom r c (.script only) handlers got caller :=
    make_task agenda
  have same : p.rest.store r = p.store r := rfl
  rw [made, gatherFrom_script (same ▸ unfailed) serves, same]
  cases state : (p.store r).state c with
  | failed => exact absurd state unfailed
  | notRequested => exact ⟨_, rfl, rfl, rfl, rfl, rfl⟩
  | hintOnly => exact ⟨_, rfl, rfl, rfl, rfl, rfl⟩
  | loading n => exact ⟨rfl, rfl⟩
  | loaded => exact ⟨rfl, rfl⟩

/-- A chunk that is loaded is left alone by every run. -/
theorem Reachable.signs_follow (h : p.Reachable) (loaded : (p.store r).state c = .loaded)
    (ms : List Move) : (p.follow ms).signs r c = p.signs r c := by
  induction ms generalizing p with
  | nil => rfl
  | cons m ms ih =>
    rw [follow_cons]
    rcases (h.turn m).advance h.sound.unfailed r c with ⟨rt, -, rfl, -⟩ | ⟨new, -, advance, signs⟩
    · exact absurd (inRange_of_loaded loaded) (Nat.lt_irrefl _)
    · have still : ((p.make m).store r).state c = .loaded := h.loaded_follow loaded [m]
      rw [ih (.make m h) still, signs, advance.guarded.2 loaded, List.append_nil]

/-- **The life cycle of chunks.** On every page of every run, whatever calls in and when, the signs
of a chunk begin a word of the life cycle, and they lead to the state that the chunk is in. So at
most one attempt of a chunk is under way; a chunk under way is neither hinted nor requested; nothing
happens to a loaded one; no chunk is found failed, and no step was ever refused. A request that
reaches the script handler asks the host for one resource if the chunk is idle, and for none if it
is under way or loaded. -/
theorem Reachable.lifeCycle (h : p.Reachable) (r : RuntimeId) (c : ChunkId) :
    (∃ w ∈ Sign.lifeCycle, p.signs r c <+: w) ∧
    p.signs r c ∈ ((p.store r).state c).language ∧
    (p.signs r c).count .inject ≤ (p.signs r c).count .reject + 1 ∧
    (∀ m, ∃ new, (p.make m).signs r c = p.signs r c ++ new ∧
      ((∃ n, (p.store r).state c = .loading n) → .hint ∉ new ∧ .inject ∉ new)) ∧
    ((p.store r).state c = .loaded → ∀ ms, (p.follow ms).signs r c = p.signs r c) ∧
    (p.store r).state c ≠ .failed ∧
    (p.store r).refusals = 0 ∧
    ∀ only handlers got caller ts,
      p.agenda = .gather r c (.script only :: handlers) got caller :: ts →
      Handler.serves only c →
      if ((p.store r).state c).isIdle then
        ∃ q, q.runtime = r ∧ q.chunk = c ∧ q.attempt = (p.store r).attempts + 1 ∧
          (p.make .task).requests = p.requests ++ [q] ∧
          (p.make .task).log = .injected p.requests.length q :: p.log
      else (p.make .task).requests = p.requests ∧ (p.make .task).log = p.log := by
  have word := h.worded.word r c
  have unfailed := h.sound.unfailed r c
  refine ⟨ChunkState.begins_lifeCycle word, word, ChunkState.count_le_of_mem_language word,
    ?_, fun loaded ms => h.signs_follow loaded ms, unfailed, h.refusals r, ?_⟩
  · intro m
    rcases (h.turn m).advance h.sound.unfailed r c with ⟨rt, -, rfl, core⟩ | ⟨new, -, advance, signs⟩
    · -- A runtime that is built gives no signs.
      refine ⟨[], ?_, fun _ => by simp⟩
      rw [← signs_core, ← signs_core, core, List.append_nil]
      rfl
    · exact ⟨new, signs, advance.guarded.1⟩
  · intro only handlers got caller ts agenda serves
    exact make_script agenda serves unfailed

/-- A chunk whose first attempt fails, that is then hinted, fetched again and delivered. The host
hints it at every request, which changes nothing while it is under way. -/
def retried : Page :=
  (fresh [(.number 7, [.hint "main" (.number 7) .preload])] []).giveAll
    [.create "main" (.ok .standard) none, .install "main" "chunks",
      .ensure "main" (.number 7) none, .complete (.newest (.number 7)) .error,
      .hint "main" (.number 7) .preload, .ensure "main" (.number 7) none,
      .push "chunks" ⟨[.number 7], [], [], []⟩]

theorem lifeCycle_retried : retried.signs 0 (.number 7) = [.inject, .reject, .hint, .inject, .load] ∧
    ∃ w ∈ Sign.lifeCycle, retried.signs 0 (.number 7) <+: w :=
  ⟨rfl, (Reachable.lifeCycle ((Reachable.fresh _ _).giveAll _) 0 (.number 7)).1⟩

end Page

end ChunkLoading
