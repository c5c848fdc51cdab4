import ChunkLoading.Proofs.Absorption
import ChunkLoading.Proofs.Turn
import Mathlib.Data.List.Nodup

/-!
# Calls that return

A call returns when all that it has put on the agenda is done (`Returns`). A merge during which
nobody calls back returns, and then the runtime has absorbed the delivery: `merge_returns` follows
the tasks of a merge one after the other. So does a push, for all consumers of its queue
(`push_returns`).
-/

namespace ChunkLoading

/-- What an extension does with a delivery. -/
inductive Observer where
  | tap (script : Script)
  /-- It passes the delivery on. -/
  | relay (previous : Option ExtensionId)

def Extension.observer : Extension → Observer
  | .tap _ _ script => .tap script
  | .bootstrap b => .relay b.previous

/-- An extension is quiet if nobody calls back who gets a delivery from it. -/
inductive Quiet (observers : ExtensionId → Option Observer) : ExtensionId → Prop where
  | absent {x : ExtensionId} (none : observers x = none) : Quiet observers x
  | tap {x : ExtensionId} (tap : observers x = some (.tap [])) : Quiet observers x
  | relay {x : ExtensionId} {previous : Option ExtensionId}
      (relay : observers x = some (.relay previous))
      (quiet : ∀ y, previous = some y → Quiet observers y) : Quiet observers x

namespace Page

variable {p q s : Page} {r : RuntimeId} {rt : Runtime} {es : List Event} {base : List Task}
  {d : Delivery}

/-! ## Returning -/

/-- Tasks are done in front of an agenda until only that is left. -/
inductive Returns (base : List Task) : Page → Page → Prop where
  | done {p : Page} (agenda : p.agenda = base) : Returns base p p
  | task {p q : Page} {t : Task} {ts : List Task} (agenda : p.agenda = t :: (ts ++ base))
      (rest : Returns base (p.make .task) q) : Returns base p q

namespace Returns

theorem agenda_eq (returns : Returns base p q) : q.agenda = base := by
  induction returns with
  | done agenda => exact agenda
  | task agenda rest ih => exact ih

/-- Tasks in front of others return first. -/
theorem trans {ts : List Task} (first : Returns (ts ++ base) p q) (second : Returns base q s) :
    Returns base p s := by
  induction first with
  | done agenda => exact second
  | @task p q t us agenda rest ih =>
    -- What is in front of `ts ++ base` is in front of `base` as well.
    have agenda : p.agenda = t :: ((us ++ ts) ++ base) := by rw [agenda, List.append_assoc]
    exact .task agenda (ih second)

/-- Returning is a number of moves. -/
theorem follow (returns : Returns base p q) : ∃ n, p.follow (List.replicate n .task) = q := by
  induction returns with
  | done agenda => exact ⟨0, rfl⟩
  | task agenda rest ih =>
    obtain ⟨n, same⟩ := ih
    exact ⟨n + 1, same⟩

/-- A task is done, and then those in front of what was left before. -/
theorem act {t : Task} (ts : List Task) (agenda : p.agenda = t :: (ts ++ base))
    (rest : Returns base (p.rest.act t) q) : Returns base p q := by
  refine .task agenda ?_
  rw [make_task agenda]
  exact rest

/-- The last of the tasks has left no others. -/
theorem last {t : Task} (agenda : p.agenda = t :: base) (left : (p.rest.act t).agenda = base) :
    Returns base p (p.rest.act t) :=
  .act [] agenda (.done left)

end Returns

/-! ## One runtime changes -/

def observer? (p : Page) (x : ExtensionId) : Option Observer := p.extensions[x]?.map (·.observer)

/-- Between two pages a runtime became another one, with events; observers were only told. -/
structure Became (p : Page) (r : RuntimeId) (rt : Runtime) (es : List Event) (q : Page) : Prop where
  runtimes : q.runtimes = p.runtimes.set r rt
  events : q.core.log = es.reverse ++ p.core.log
  observers : q.observer? = p.observer?
  frame : q = { p with
    runtimes := q.runtimes, extensions := q.extensions, log := q.log, agenda := q.agenda }

namespace Became

theorem refl (p : Page) (r : RuntimeId) : p.Became r (p.runtime r) [] p where
  runtimes := by
    by_cases inside : r < p.runtimes.length
    · simp [runtime, List.getD_eq_getElem?_getD, inside]
    · rw [List.set_eq_of_length_le (Nat.le_of_not_lt inside)]
  events := rfl
  observers := rfl
  frame := rfl

theorem runtime_eq (became : p.Became r rt es q) (inRange : r < p.runtimes.length) :
    q.runtime r = rt := by
  simp [runtime, became.runtimes, List.getD_eq_getElem?_getD, inRange]

theorem runtime_of_ne (became : p.Became r rt es q) {r' : RuntimeId} (other : r' ≠ r) :
    q.runtime r' = p.runtime r' := by
  simp [runtime, became.runtimes, List.getD_eq_getElem?_getD, Ne.symm other]

theorem factories (became : p.Became r rt es q) : q.factories = p.factories := by
  rw [became.frame]

theorem onHint (became : p.Became r rt es q) : q.onHint = p.onHint := by
  rw [became.frame]

theorem rest (became : p.Became r rt es q) : p.Became r rt es q.rest where
  runtimes := became.runtimes
  events := became.events
  observers := became.observers
  frame := by
    rw [became.frame]
    rfl

theorem call (became : p.Became r rt es q) (ts : List Task) : p.Became r rt es (q.call ts) where
  runtimes := became.runtimes
  events := became.events
  observers := became.observers
  frame := by
    rw [became.frame]
    rfl

/-- Events of the core are kept on record. -/
theorem note (became : p.Became r rt es q) (news : List Event) :
    p.Became r rt (es ++ news.filter Event.isCore) (q.note news) where
  runtimes := became.runtimes
  events := by
    rw [core_note, List.reverse_append, List.append_assoc, ← became.events]
    rfl
  observers := became.observers
  frame := by
    rw [became.frame]
    rfl

/-- An event beside the core. -/
theorem note_beside (became : p.Became r rt es q) {news : List Event}
    (beside : news.filter Event.isCore = []) : p.Became r rt es (q.note news) := by
  have noted := became.note news
  rwa [beside, List.append_nil] at noted

/-- The runtime itself may change. -/
theorem modify (became : p.Became r rt es q) (f : Runtime → Runtime) :
    p.Became r (f rt) es (q.modifyRuntime r f) where
  runtimes := by
    show q.runtimes.modify r f = _
    rw [became.runtimes]
    apply List.ext_getElem?
    intro r'
    rw [List.getElem?_modify, List.getElem?_set, List.getElem?_set]
    by_cases same : r = r' <;> simp [same]
  events := became.events
  observers := became.observers
  frame := by
    rw [became.frame]
    rfl

/-- A bootstrap may note chunks: nobody else looks at what it knows. -/
theorem setBootstrap (became : p.Became r rt es q) {x : ExtensionId} {b b' : Bootstrap}
    (found : q.extensions[x]? = some (.bootstrap b)) (previous : b'.previous = b.previous) :
    p.Became r rt es (q.setBootstrap x b') where
  runtimes := became.runtimes
  events := became.events
  observers := by
    funext y
    rw [← became.observers]
    unfold observer? Page.setBootstrap
    rw [List.getElem?_set]
    by_cases same : x = y
    · subst same
      obtain ⟨inside, held⟩ := List.getElem?_eq_some_iff.mp found
      simp [inside, held, Extension.observer, previous]
    · simp [same]
  frame := by
    rw [became.frame]
    rfl

/-- The attempts that waited for a delivery end. -/
theorem resolve (became : p.Became r rt es q) (d : Delivery) (waiting : List (ChunkId × Attempt))
    (clashes : List ModuleId) :
    p.Became r { rt with
        outcomes := waiting.foldl (fun o w => o.set w.2 (mergeResult d clashes)) rt.outcomes }
      (es ++ waiting.map fun w => .resolved r w.1 w.2 (mergeResult d clashes))
      (q.resolve r d waiting clashes) := by
  unfold Page.resolve
  induction waiting generalizing q rt es with
  | nil => simpa using became
  | cons w waiting ih =>
    have first := (became.modify fun rt =>
      { rt with outcomes := rt.outcomes.set w.2 (mergeResult d clashes) }).note
        [.resolved r w.1 w.2 (mergeResult d clashes)]
    have rest := ih first
    rw [List.append_assoc] at rest
    exact rest

/-- Entries are registered, and those that can run are taken. -/
theorem defer (became : p.Became r rt es q) (inRange : r < p.runtimes.length)
    (entries : List DeferredEntry) :
    p.Became r { rt with
        worklist := rt.worklist.map fun w => Worklist.waiting rt.store.isLoaded (w ++ entries) }
      (es ++ if rt.worklist.isSome then [.registered r entries] else [])
      (q.defer r entries) ∧
    (q.defer r entries).agenda = (match rt.worklist with
      | none => []
      | some w => Worklist.ready rt.store.isLoaded (w ++ entries)).map (.enter r ·) ++ q.agenda := by
  have same := became.runtime_eq inRange
  cases worklist : rt.worklist with
  | none =>
    have added : q.addEntries r entries = q := by
      unfold addEntries
      rw [same, worklist]
    have ready : q.readyEntries r = [] := by
      simp [readyEntries, same, worklist, Worklist.ready]
    unfold Page.defer runReady
    rw [added, ready]
    constructor
    · -- Even then the scan writes a worklist: none.
      have taken := (became.modify fun rt =>
        { rt with worklist := rt.worklist.map (·.waiting rt.store.isLoaded) }).call []
      simpa [worklist] using taken
    · rfl
  | some w =>
    have added : p.Became r { rt with worklist := some (w ++ entries) }
        (es ++ [.registered r entries]) (q.addEntries r entries) := by
      unfold addEntries
      rw [same, worklist]
      exact (became.modify fun rt => { rt with worklist := some (w ++ entries) }).note
        [.registered r entries]
    have ready : (q.addEntries r entries).readyEntries r =
        Worklist.ready rt.store.isLoaded (w ++ entries) := by
      unfold readyEntries store
      rw [added.runtime_eq inRange]
      rfl
    have agenda : (q.addEntries r entries).agenda = q.agenda := by
      unfold addEntries
      rw [same, worklist]
      rfl
    unfold Page.defer runReady
    rw [ready]
    constructor
    · exact (added.modify fun rt =>
        { rt with worklist := rt.worklist.map (·.waiting rt.store.isLoaded) }).call _
    · show _ ++ (q.addEntries r entries).agenda = _
      rw [agenda]

end Became

/-! ## The tasks of a merge -/

theorem agenda_resolve (p : Page) (r : RuntimeId) (d : Delivery)
    (waiting : List (ChunkId × Attempt)) (clashes : List ModuleId) :
    (p.resolve r d waiting clashes).agenda = p.agenda := by
  unfold resolve
  induction waiting generalizing p with
  | nil => rfl
  | cons w waiting ih => exact ih _

/-- A quiet extension gets a delivery. -/
theorem observe_returns {x : ExtensionId} (quiet : Quiet p.observer? x)
    (became : p.Became r rt es q) (agenda : q.agenda = .observe x d :: base) :
    ∃ s, Returns base q s ∧ p.Became r rt es s := by
  have same {q : Page} (became : p.Became r rt es q) (y : ExtensionId) :
      (q.rest.extensions[y]?).map (·.observer) = p.observer? y := congrFun became.observers y
  induction quiet generalizing q with
  | @absent x none =>
    -- Without an extension there is nobody to tell.
    have found : q.rest.extensions[x]? = Option.none := by simpa [none] using same became x
    have told : q.rest.act (.observe x d) = q.rest := by simp [act, observe, found]
    have returns := Returns.last agenda (by rw [told, agenda_rest agenda])
    rw [told] at returns
    exact ⟨q.rest, returns, became.rest⟩
  | @tap x tap =>
    obtain ⟨found, held, observer⟩ := Option.map_eq_some_iff.mp ((same became x).trans tap)
    cases found with
    | bootstrap b => cases observer
    | tap name describes script =>
      obtain rfl : script = [] := by simpa [Extension.observer] using observer
      refine ⟨_, .last agenda ?_, ?_⟩
      · simp only [act, observe, held]
        exact agenda_rest agenda
      · simp only [act, observe, held]
        refine (became.rest.note_beside ?_).call []
        cases describes <;> rfl
  | @relay x previous relay quiet ih =>
    obtain ⟨found, held, observer⟩ := Option.map_eq_some_iff.mp ((same became x).trans relay)
    cases found with
    | tap name describes script => cases observer
    | bootstrap b =>
      -- It notes the chunks, and the delivery goes on to the extension that was there before it.
      obtain rfl : b.previous = previous := by simpa [Extension.observer] using observer
      have told : p.Became r rt es (q.rest.act (.observe x d)) := by
        simp only [act, observe, held]
        have noted : (b.noteLoaded d.chunks).previous = b.previous := rfl
        exact (became.rest.setBootstrap held noted).call _
      have passed : (q.rest.act (.observe x d)).agenda =
          b.previous.toList.map (.observe · d) ++ base := by
        simp only [act, observe, held]
        rw [← agenda_rest agenda]
        rfl
      cases next : b.previous with
      | none =>
        rw [next] at passed
        exact ⟨_, .last agenda passed, told⟩
      | some y =>
        rw [next] at passed
        obtain ⟨s, returns, became'⟩ := ih y next told passed
        exact ⟨s, .act [] agenda returns, became'⟩

/-- A delivery that is shown returns, whether there is an extension or not. -/
theorem observers_return {x? : Option ExtensionId} (quiet : ∀ x, x? = some x → Quiet p.observer? x)
    (became : p.Became r rt es q) (agenda : q.agenda = x?.toList.map (.observe · d) ++ base) :
    ∃ s, Returns base q s ∧ p.Became r rt es s := by
  cases x? with
  | none => exact ⟨q, .done agenda, became⟩
  | some x => exact observe_returns (quiet x rfl) became agenda

/-- Chunks are hinted to a host that does not call back. -/
theorem hints_return {cs : List ChunkId} {kind : HintKind} (inRange : r < p.runtimes.length)
    (became : p.Became r rt es q) (agenda : q.agenda = cs.map (.hint r · kind) ++ base)
    (host : ∀ c ∈ (rt.store.hintAll cs).1, hostScript p.onHint c = []) :
    ∃ s, Returns base q s ∧ p.Became r { rt with store := (rt.store.hintAll cs).2 }
      (es ++ (rt.store.hintAll cs).1.map (rt.options.hint r · kind)) s := by
  induction cs generalizing q rt es with
  | nil => exact ⟨q, .done agenda, by simpa [Store.hintAll] using became⟩
  | cons c cs ih =>
    have agenda : q.agenda = .hint r c kind :: (cs.map (.hint r · kind) ++ base) := agenda
    have known : q.rest.onHint = p.onHint := became.rest.onHint
    have same : q.rest.runtime r = rt := became.rest.runtime_eq inRange
    have store : q.rest.store r = rt.store := congrArg Runtime.store same
    have stored (s : Store) : p.Became r { rt with store := s } es (q.rest.setStore r s) :=
      became.rest.modify ({ · with store := s })
    rw [Store.hintAll_cons] at host ⊢
    -- The first chunk accepts the hint, or nothing happens to it.
    cases marked : rt.store.markHinted c with
    | mk accepted t =>
      rw [marked] at host
      have rest : ∀ c ∈ (t.hintAll cs).1, hostScript p.onHint c = [] := by
        intro c' member
        refine host c' ?_
        cases accepted with
        | true => exact List.mem_cons_of_mem _ member
        | false => exact member
      obtain ⟨hinted, left⟩ : p.Became r { rt with store := t }
          (es ++ if accepted then [rt.options.hint r c kind] else [])
          (q.rest.act (.hint r c kind)) ∧
          (q.rest.act (.hint r c kind)).agenda = cs.map (.hint r · kind) ++ base := by
        simp only [act, hint, store, same, marked]
        cases accepted with
        | true =>
          rw [known, host c List.mem_cons_self]
          exact ⟨((stored t).note [rt.options.hint r c kind]).call [], agenda_rest agenda⟩
        | false => exact ⟨by simpa using stored t, agenda_rest agenda⟩
      obtain ⟨s, returns, became'⟩ := ih hinted left rest
      refine ⟨s, .act _ agenda returns, ?_⟩
      rw [List.append_assoc] at became'
      cases accepted with
      | true => exact became'
      | false => exact became'

/-- A factory runs that calls nothing. -/
theorem execute_returns {f : FactoryId}
    (silent : ∀ fac, p.factories[f]? = some fac → fac.script = []) (became : p.Became r rt es q)
    (agenda : q.agenda = .execute r f :: base) :
    ∃ s, Returns base q s ∧ p.Became r rt es s := by
  have known : q.rest.factories = p.factories := became.rest.factories
  cases held : p.factories[f]? with
  | none =>
    have executed : q.rest.act (.execute r f) = q.rest := by
      simp only [act, execute, known, held]
    have returns := Returns.last agenda (by rw [executed, agenda_rest agenda])
    rw [executed] at returns
    exact ⟨q.rest, returns, became.rest⟩
  | some fac =>
    refine ⟨_, .last agenda ?_, ?_⟩
    · simp only [act, execute, known, held, silent fac held]
      exact agenda_rest agenda
    · simp only [act, execute, known, held, silent fac held]
      exact (became.rest.note_beside rfl).call []

/-- Entries run whose modules call nothing. -/
theorem entries_return {entries : List DeferredEntry}
    (silent : ∀ e ∈ entries, ∀ f, rt.store.factory? e.entry = some f →
      ∀ fac, p.factories[f]? = some fac → fac.script = [])
    (inRange : r < p.runtimes.length) (became : p.Became r rt es q)
    (agenda : q.agenda = entries.map (.enter r ·) ++ base) :
    ∃ s, Returns base q s ∧ p.Became r rt (es ++ entries.map (.entered r ·)) s := by
  induction entries generalizing q es with
  | nil => exact ⟨q, .done agenda, by simpa using became⟩
  | cons e entries ih =>
    have agenda : q.agenda = .enter r e :: (entries.map (.enter r ·) ++ base) := agenda
    have left := agenda_rest agenda
    have noted : p.Became r rt (es ++ [.entered r e]) (q.rest.note [.entered r e]) :=
      became.rest.note [.entered r e]
    have store : (q.rest.note [.entered r e]).store r = rt.store :=
      congrArg Runtime.store (noted.runtime_eq inRange)
    obtain ⟨s, returns, became'⟩ : ∃ s, Returns (entries.map (.enter r ·) ++ base) q s ∧
        p.Became r rt (es ++ [.entered r e]) s := by
      -- An entry without a module is only reported.
      cases held : rt.store.factory? e.entry with
      | none =>
        have entered : q.rest.act (.enter r e) = (q.rest.note [.entered r e]).report r
            (.violation (.noFactory e.entry)) := by
          simp only [act, enter, store, held]
        refine ⟨_, .last agenda ?_, ?_⟩
        · rw [entered]
          exact left
        · rw [entered]
          exact noted.note_beside rfl
      | some f =>
        have entered : q.rest.act (.enter r e) =
            (q.rest.note [.entered r e]).call [.execute r f] := by
          simp only [act, enter, store, held]
        have called := noted.call [.execute r f]
        rw [← entered] at called
        obtain ⟨s, returns, became'⟩ := execute_returns (silent e List.mem_cons_self f held) called
          (by rw [entered]; exact congrArg (Task.execute r f :: ·) left)
        exact ⟨s, .act [] agenda returns, became'⟩
    obtain ⟨s', returns', became''⟩ := ih
      (fun e' member => silent e' (List.mem_cons_of_mem _ member)) became' returns.agenda_eq
    exact ⟨s', returns.trans returns', by simpa using became''⟩

/-! ## Merges and pushes -/

/-- Nobody calls back while a runtime merges a delivery: neither its extension, nor the host when a
chunk is hinted, nor the factories of the entries that run. -/
structure Undisturbed (p : Page) (r : RuntimeId) (d : Delivery) : Prop where
  extension : ∀ x, (p.runtime r).extension = some x → Quiet p.observer? x
  host : ∀ c ∈ ((p.runtime r).hinting d).1, hostScript p.onHint c = []
  factories : ∀ e ∈ (p.runtime r).runs d,
    ∀ f, ((p.runtime r).absorb d).store.factory? e.entry = some f →
      ∀ fac, p.factories[f]? = some fac → fac.script = []

/-- **An undisturbed merge returns, and then its runtime has absorbed the delivery.** -/
theorem merge_returns (undisturbed : p.Undisturbed r d) (inRange : r < p.runtimes.length)
    (agenda : p.agenda = .merge r d :: base) :
    ∃ q, Returns base p q ∧ p.Became r ((p.runtime r).absorb d) ((p.runtime r).news r d) q := by
  let rt := p.runtime r
  let m := rt.store.merge d
  let after : List Task := [.resolve r d m.waiting m.clashes, .defer r d.entries]
  let hints : List Task := (rt.prefetched d).map (.hint r · .prefetch)
  have hinted : (if rt.prefetch then d.prefetch.map (.hint r · .prefetch) else []) = hints := by
    simp only [hints, Runtime.prefetched]
    split <;> rfl
  -- States and factories are merged at once.
  obtain ⟨merged, left⟩ : p.Became r { rt with store := m.store }
      (.merged r d :: m.loaded.map (.loaded r ·)) (p.rest.act (.merge r d)) ∧
      (p.rest.act (.merge r d)).agenda =
        rt.extension.toList.map (.observe · d) ++ (hints ++ (after ++ base)) := by
    have stored : p.Became r { rt with store := m.store } [] (p.rest.setStore r m.store) :=
      (Became.refl p r).rest.modify ({ · with store := m.store })
    have core : (Event.merged r d :: m.loaded.map (.loaded r ·)).filter Event.isCore =
        .merged r d :: m.loaded.map (.loaded r ·) := by
      simp [List.filter_eq_self, Event.isCore]
    have noted := stored.note (.merged r d :: m.loaded.map (.loaded r ·))
    rw [core] at noted
    constructor
    · exact noted.call _
    · show (_ ++ (if rt.prefetch then d.prefetch.map (.hint r · .prefetch) else []) ++ after) ++
        p.rest.agenda = _
      rw [hinted, agenda_rest agenda, List.append_assoc, List.append_assoc]
      rfl
  -- Then come the extension and the host.
  obtain ⟨q₁, told, became₁⟩ := observers_return undisturbed.extension merged left
  obtain ⟨q₂, given, became₂⟩ := hints_return inRange became₁ told.agenda_eq undisturbed.host
  -- The attempts end, and the entries are registered.
  let q₃ := q₂.rest.resolve r d m.waiting m.clashes
  have ended : q₃.agenda = .defer r d.entries :: base :=
    (agenda_resolve ..).trans (agenda_rest given.agenda_eq)
  have became₃ := (became₂.rest.resolve d m.waiting m.clashes).rest.defer inRange d.entries
  have taken : (q₃.rest.defer r d.entries).agenda = (rt.runs d).map (.enter r ·) ++ base := by
    rw [← agenda_rest ended]
    exact became₃.2
  -- At last those run that can.
  obtain ⟨q₄, run, became₄⟩ := entries_return undisturbed.factories inRange became₃.1 taken
  have end_of_merge : Returns base q₂ q₄ :=
    .act [.defer r d.entries] given.agenda_eq (.act [] ended run)
  exact ⟨q₄, .act [] agenda ((told.trans given).trans end_of_merge), became₄⟩

/-- What else happens to one runtime disturbs no other. -/
theorem Undisturbed.of_became {r' : RuntimeId} (undisturbed : p.Undisturbed r' d)
    (became : p.Became r rt es q) (other : r' ≠ r) : q.Undisturbed r' d where
  extension := by
    rw [became.runtime_of_ne other, became.observers]
    exact undisturbed.extension
  host := by
    rw [became.runtime_of_ne other, became.onHint]
    exact undisturbed.host
  factories := by
    rw [became.runtime_of_ne other, became.factories]
    exact undisturbed.factories

theorem Undisturbed.push (undisturbed : p.Undisturbed r d) (queue : String) :
    (p.push queue d).Undisturbed r d :=
  ⟨undisturbed.extension, undisturbed.host, undisturbed.factories⟩

/-- Between two pages some runtimes have absorbed a delivery, in turn. -/
structure Absorbed (p : Page) (rs : List RuntimeId) (d : Delivery) (q : Page) : Prop where
  runtime : ∀ r, q.runtime r = if r ∈ rs then (p.runtime r).absorb d else p.runtime r
  events : q.core.log = (rs.flatMap fun r => (p.runtime r).news r d).reverse ++ p.core.log
  observers : q.observer? = p.observer?
  count : q.runtimes.length = p.runtimes.length
  frame : q = { p with
    runtimes := q.runtimes, extensions := q.extensions, log := q.log, agenda := q.agenda }

/-- Runtimes that merge a delivery one after the other are each as if it was alone. -/
theorem merges_return {rs : List RuntimeId} (once : rs.Nodup)
    (undisturbed : ∀ r ∈ rs, p.Undisturbed r d) (inRange : ∀ r ∈ rs, r < p.runtimes.length)
    (agenda : p.agenda = rs.map (.merge · d) ++ base) :
    ∃ q, Returns base p q ∧ p.Absorbed rs d q := by
  induction rs generalizing p with
  | nil => exact ⟨p, .done agenda, by simp, by simp, rfl, rfl, rfl⟩
  | cons r rs ih =>
    obtain ⟨absent, once⟩ := List.nodup_cons.mp once
    have other (r' : RuntimeId) (member : r' ∈ rs) : r' ≠ r := fun same => absent (same ▸ member)
    obtain ⟨q, first, became⟩ := merge_returns (undisturbed r List.mem_cons_self)
      (inRange r List.mem_cons_self) agenda
    have count : q.runtimes.length = p.runtimes.length := by simp [became.runtimes]
    -- The other runtimes are as they were.
    obtain ⟨s, second, absorbed⟩ := ih once
      (fun r' member =>
        (undisturbed r' (List.mem_cons_of_mem _ member)).of_became became (other r' member))
      (fun r' member => count ▸ inRange r' (List.mem_cons_of_mem _ member))
      first.agenda_eq
    refine ⟨s, first.trans second, ?_, ?_, ?_, ?_, ?_⟩
    · -- The newest runtime has absorbed the delivery first, and the others after it.
      intro r'
      rw [absorbed.runtime]
      by_cases same : r' = r
      · subst same
        rw [if_neg absent, if_pos List.mem_cons_self]
        exact became.runtime_eq (inRange r' List.mem_cons_self)
      · simp [became.runtime_of_ne same, same]
    · have later : (rs.flatMap fun r => (q.runtime r).news r d) =
          rs.flatMap fun r => (p.runtime r).news r d := by
        refine List.flatMap_congr fun r' member => ?_
        rw [became.runtime_of_ne (other r' member)]
      rw [absorbed.events, later, became.events]
      simp
    · rw [absorbed.observers, became.observers]
    · rw [absorbed.count, count]
    · rw [absorbed.frame, became.frame]

/-- **An undisturbed push returns, and then all consumers of the queue have absorbed the delivery,**
the newest one first. -/
theorem push_returns {queue : String} (once : (p.queue queue).consumers.Nodup)
    (undisturbed : ∀ r ∈ (p.queue queue).consumers, p.Undisturbed r d)
    (inRange : ∀ r ∈ (p.queue queue).consumers, r < p.runtimes.length) :
    ∃ q, Returns p.agenda (p.push queue d) q ∧
      (p.push queue d).Absorbed (p.queue queue).consumers.reverse d q := by
  refine merges_return (List.nodup_reverse.mpr once) ?_ ?_ rfl
  · exact fun r member => (undisturbed r (List.mem_reverse.mp member)).push queue
  · exact fun r member => inRange r (List.mem_reverse.mp member)

end Page

end ChunkLoading
