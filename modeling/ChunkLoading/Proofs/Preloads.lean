import ChunkLoading.Proofs.Agreement
import ChunkLoading.Proofs.Return

/-!
# Preloads in the model and in emitted code

A built runtime hints the preload children of every chunk of the build, whatever it is asked for; an
emitted one has only those of its own chunk and of the chunks that it may load later, and none at all if
there are none of these. `preloads_agree` says what each of them hints, and for which chunks they agree.
-/

namespace ChunkLoading

namespace Graph

variable {config : Config} {g : Graph} {asked c own : ChunkId}

theorem lookup_preloadsOf (cs : List ChunkId) (c : ChunkId) : (g.preloadsOf cs).lookup c =
    if c ∈ cs ∧ g.childChunks c .preload ≠ [] then some (g.childChunks c .preload) else none := by
  induction cs with
  | nil => simp [preloadsOf]
  | cons c' cs ih =>
    cases children : g.childChunks c' .preload with
    | nil =>
      have form : g.preloadsOf (c' :: cs) = g.preloadsOf cs := by simp [preloadsOf, children]
      rw [form, ih]
      by_cases same : c = c'
      · simp [same, children]
      · simp [same]
    | cons x xs =>
      have form : g.preloadsOf (c' :: cs) = (c', x :: xs) :: g.preloadsOf cs := by
        simp [preloadsOf, children]
      rw [form, List.lookup_cons]
      by_cases same : c = c'
      · simp [same, children]
      · rw [beq_eq_false_iff_ne.mpr same]
        simp [ih, same]

theorem preloadMap_keys : (g.preloadMap.map (·.1)).Nodup := by
  let children (c : ChunkId) : Option (List ChunkId) :=
    if g.childChunks c .preload = [] then none else some (g.childChunks c .preload)
  have form (cs : List ChunkId) : g.preloadsOf cs = cs.filterMap fun c => (children c).map (c, ·) := by
    refine congrArg (List.filterMap · cs) (funext fun c => ?_)
    cases held : g.childChunks c .preload <;> simp [children, held]
  have keys := filterMap_keys_sublist id children (g.chunks.map (·.id)).eraseDups
  rw [List.map_id] at keys
  rw [preloadMap, form]
  exact (nodup_eraseDups _).sublist keys

/-- The preload map of a build has the preload children of each of its chunks. -/
theorem lookup_preloadMap (known : c ∈ g.chunks.map (·.id)) :
    (g.preloadMap.lookup c).getD [] = g.childChunks c .preload := by
  rw [preloadMap, lookup_preloadsOf]
  by_cases none : g.childChunks c .preload = []
  · simp [none]
  · simp [none, List.mem_eraseDups, known]

theorem preloads_get? (known : c ∈ g.chunks.map (·.id)) :
    ((Assoc.ofList g.preloadMap).get? c).getD [] = g.childChunks c .preload := by
  rw [Assoc.get?_ofList preloadMap_keys, lookup_preloadMap known]

/-- Of any graph, the emitted preload table has the preload children of the chunk itself and of chunks that
may be loaded later, by their texts. -/
theorem emittedPreloads_entries : ((g.emittedPreloads c).map (·.1)).Nodup ∧
    (∀ key cs, (key, cs) ∈ g.emittedPreloads c →
      ∃ x ∈ c :: g.asyncChunks c, x.text = key ∧ cs = g.childChunks x .preload) ∧
    ∀ x ∈ c :: g.asyncChunks c, x ∈ g.chunks.map (·.id) → g.childChunks x .preload ≠ [] →
      x.text ∈ (g.emittedPreloads c).map (·.1) := by
  have found (x : ChunkId) : g.preloadMap.lookup x =
      if x ∈ (g.chunks.map (·.id)).eraseDups ∧ g.childChunks x .preload ≠ [] then
        some (g.childChunks x .preload) else none := lookup_preloadsOf _ x
  obtain ⟨once, keys⟩ := keys_sortedTable
    ((c :: g.asyncChunks c).filterMap fun id => (g.preloadMap.lookup id).map (id.text, ·))
  refine ⟨once, ?_, ?_⟩
  · -- An entry is for the chunk itself, or for one that may be loaded later.
    intro key cs member
    obtain ⟨x, listed, entry⟩ := List.mem_filterMap.mp (mem_of_mem_sortedTable member)
    obtain ⟨children, held, same⟩ := Option.map_eq_some_iff.mp entry
    obtain ⟨rfl, rfl⟩ := Prod.mk.inj same
    refine ⟨x, listed, rfl, ?_⟩
    rw [found] at held
    split at held
    · exact (Option.some.inj held).symm
    · cases held
  · -- Each of these with preload children has an entry.
    intro x listed known some
    refine (keys x.text).mpr (List.mem_map.mpr ⟨(x.text, g.childChunks x .preload), ?_, rfl⟩)
    refine List.mem_filterMap.mpr ⟨x, listed, ?_⟩
    rw [found, if_pos ⟨List.mem_eraseDups.mpr known, some⟩]
    rfl

/-- An emitted preload table has the preload children of the chunk itself, and of the chunks that may be
loaded later. -/
theorem lookup_emittedPreloads (valid : g.Valid) (inGraph : own ∈ g.chunks.map (·.id))
    (known : c ∈ g.chunks.map (·.id)) : ((g.emittedPreloads own).lookup c.text).getD [] =
      if c = own ∨ c ∈ g.asyncChunks own then g.childChunks c .preload else [] := by
  obtain ⟨-, source, image⟩ := emittedPreloads_entries (g := g) (c := own)
  cases found : (g.emittedPreloads own).lookup c.text with
  | some cs =>
    obtain ⟨x, listed, text, rfl⟩ := source c.text cs (mem_of_lookup found)
    -- In a graph that can be read, the text tells the chunk.
    have inside : x ∈ g.chunks.map (·.id) := by
      rcases List.mem_cons.mp listed with rfl | later
      · exact inGraph
      · exact valid.mem_of_asyncChunks later
    obtain rfl : x = c := valid.text_inj inside known text
    rw [if_pos (List.mem_cons.mp listed)]
    rfl
  | none =>
    split
    · rename_i listed
      -- A chunk that has children is in the table.
      by_contra some
      obtain ⟨entry, member, text⟩ :=
        List.mem_map.mp (image c (List.mem_cons.mpr listed) known (Ne.symm some))
      have held : ((g.emittedPreloads own).lookup c.text).isSome = true :=
        List.lookup_isSome_iff.mpr ⟨entry, member, by simp [text]⟩
      rw [found] at held
      cases held
    · rfl

/-! ## Emitted preloads -/

theorem preload_featuresOf : (g.featuresOf config c).preload = true ↔
    g.asyncChunks c ≠ [] ∧ g.emittedPreloads c ≠ [] := by
  cases later : g.asyncChunks c <;>
    simp [featuresOf, Features.of, requirementsOf, Requirements.isNoopLoading, later]

end Graph

/-- The preload table of a section. -/
def Section.preloads? : Section → Option (List (String × List ChunkId))
  | .hints _ table => table
  | _ => none

/-- The preload table of emitted code, if it preloads at all. -/
def preloadTable? (ss : List Section) : Option (List (String × List ChunkId)) :=
  ss.findSome? Section.preloads?

/-- The chunks that emitted code preloads with a chunk. -/
def preloadedWith (ss : List Section) (c : ChunkId) : List ChunkId :=
  ((preloadTable? ss).bind (·.lookup c.text)).getD []

@[simp] theorem Section.findSome?_when (feature : Bool) (s : Section) :
    (Section.when feature s).findSome? preloads? = if feature then s.preloads? else none := by
  cases feature <;> simp [Section.when]

namespace Graph

variable {config : Config} {g : Graph} {asked c own : ChunkId} {ss : List Section}

theorem preloadTable?_sections {f : Features} (made : g.sections config c f = .ok ss) :
    preloadTable? ss = if f.preload then some (g.emittedPreloads c) else none := by
  obtain ⟨names, update, -, rfl⟩ := sections_ok made
  have handler : Section.preloads? (if f.noopLoading then .noopHandler else .scriptHandler) = none := by
    split <;> rfl
  have hot : ((update.toList.map .hotUpdate).findSome? Section.preloads?) = none := by
    cases update <;> rfl
  simp only [preloadTable?, List.findSome?_append, Section.findSome?_when, handler, hot]
  cases f.preload <;> simp [Section.preloads?]

/-- **Emitted preloads.** Emitted code preloads with a chunk all its preload children, if there are
chunks that may be loaded later, and the chunk is the runtime's own or one of them; else none. -/
theorem preloadedWith_sections (valid : g.Valid) (inGraph : own ∈ g.chunks.map (·.id))
    (made : g.sections config own (g.featuresOf config own) = .ok ss)
    (known : c ∈ g.chunks.map (·.id)) : preloadedWith ss c =
      if g.asyncChunks own ≠ [] ∧ (c = own ∨ c ∈ g.asyncChunks own) then g.childChunks c .preload
      else [] := by
  have table := lookup_emittedPreloads (c := c) valid inGraph known
  rw [preloadedWith, preloadTable?_sections made]
  by_cases emitted : (g.featuresOf config own).preload = true
  · obtain ⟨later, -⟩ := preload_featuresOf.mp emitted
    rw [if_pos emitted, Option.bind_some, table]
    simp [later]
  · rw [if_neg emitted]
    by_cases later : g.asyncChunks own = []
    · simp [later]
    · -- An empty table is left out.
      have empty : g.emittedPreloads own = [] := by
        by_contra some
        exact emitted (preload_featuresOf.mpr ⟨later, some⟩)
      rw [empty] at table
      simp only [ne_eq, later, not_false_eq_true, true_and]
      exact table

end Graph

/-! ## Built runtimes -/

namespace Graph

/-- How a runtime that loads on demand brings in chunks. -/
def loader (g : Graph) (own : ChunkId) : Handler :=
  if g.asyncChunks own = [] then .noop else .script none

/-- The handler of preloads, if some chunk has preload children. -/
def preloader (g : Graph) : List Handler :=
  if (Assoc.ofList g.preloadMap).isEmpty then [] else [.preload (.ofList g.preloadMap)]

end Graph

/-- A runtime as it is built for a chunk that loads others on demand. -/
structure Runtime.BuiltFor (g : Graph) (own : ChunkId) (rt : Runtime) : Prop where
  onDemand : rt.onDemand = true
  handlers : rt.handlers = g.loader own :: g.preloader
  state : ∀ c, rt.store.state c = if c = own then .loaded else .notRequested
  attempts : rt.store.attempts = 0

theorem Store.markInitial_empty (own : ChunkId) : empty.markInitial own = empty.assign own .loaded := by
  simp [markInitial, become, isLoaded, ChunkState.canBecome]

theorem Blueprint.builtFor_of_build {config : Config} {g : Graph} {asked own : ChunkId} {b : Blueprint}
    {x : Option ExtensionId} {rt : Runtime} (planned : forChunk config g asked = .ok b)
    (built : b.build x = .ok rt) (found : g.resolve? asked.text = some own)
    (onDemand : (g.requirementsOf own).onDemandLoading = true) : rt.BuiltFor g own := by
  obtain ⟨own', options, bootstrap, found', -, -, rfl⟩ := forChunk_ok planned
  obtain rfl : own' = own := Option.some.inj (found'.symm.trans found)
  obtain ⟨-, handlers, demand, store⟩ := settings_of_build built
  have noop : (g.requirementsOf own').isNoopLoading = (g.asyncChunks own').isEmpty := by
    rw [Requirements.isNoopLoading, onDemand]
    simp [Graph.requirementsOf]
  have store : rt.store = Store.empty.assign own' .loaded := store.trans (Store.markInitial_empty own')
  refine ⟨demand.trans onDemand, ?_, ?_, ?_⟩
  · rw [handlers]
    simp only [allHandlers, builtIn, standard, onDemand, noop, Graph.loader, Graph.preloader]
    cases g.asyncChunks own' <;> simp
  · intro c
    rw [store, Store.state_assign, Store.state_empty]
    by_cases same : c = own'
    · simp [same]
    · simp [same, Ne.symm same]
  · rw [store]
    rfl

/-! ## Asking for a chunk -/

namespace Store

variable {s : Store}

/-- Of chunks that are hinted, those accept the hint that were not requested. -/
theorem hintAll_fst {cs : List ChunkId} (once : cs.Nodup) :
    (s.hintAll cs).1 = cs.filter (s.state · = .notRequested) := by
  induction cs generalizing s with
  | nil => rfl
  | cons c cs ih =>
    obtain ⟨absent, once⟩ := List.nodup_cons.mp once
    have others : cs.filter ((s.markHinted c).2.state · = .notRequested) =
        cs.filter (s.state · = .notRequested) := by
      refine List.filter_congr fun c' member => ?_
      have other : c' ≠ c := fun same => absent (same ▸ member)
      simp [state_markHinted, other]
    rw [hintAll_cons, ih once, others]
    by_cases idle : s.state c = .notRequested
    · simp [markHinted_eq, idle]
    · simp [markHinted_eq, idle]

end Store

/-- The resource that a runtime asks for when it is asked for a chunk just after it was built. -/
def Graph.firstLoad (g : Graph) (own c : ChunkId) (o : Options) (r : RuntimeId) (number : Nat) :
    List Event :=
  if g.asyncChunks own = [] ∨ c = own then [] else [.injected number (o.request r c 1)]

/-- The hints that it gives then. -/
def Graph.firstHints (g : Graph) (own c : ChunkId) (o : Options) (r : RuntimeId) : List Event :=
  ((g.childChunks c .preload).filter (· ≠ own)).map (o.hint r · .preload)

namespace Page

variable {p : Page} {g : Graph} {own c : ChunkId} {r : RuntimeId} {rt : Runtime} {base : List Task}

/-- The host does not call back when it gets a request for a chunk, or a hint. -/
structure Silent (p : Page) (c : ChunkId) : Prop where
  onInject : hostScript p.onInject c = []
  onHint : ∀ y, hostScript p.onHint y = []

theorem runtime_of_get (there : p.runtimes[r]? = some rt) : p.runtime r = rt := by
  rw [runtime, List.getD_eq_getElem?_getD, there, Option.getD_some]

/-- The loader of a runtime that was just built asks for the chunk, or does nothing. -/
theorem loader_opens (built : rt.BuiltFor g own) (there : p.runtimes[r]? = some rt)
    (silent : p.Silent c) (handlers : List Handler) (caller : Caller) :
    let q := p.gatherFrom r c (g.loader own) handlers [] caller
    ∃ got s, q.agenda = .gather r c handlers got caller :: p.agenda ∧
      q.runtimes[r]? = some { rt with store := s } ∧ (∀ y ≠ c, s.state y = rt.store.state y) ∧
      q.onHint = p.onHint ∧
      q.core.log = (g.firstLoad own c rt.options r p.requests.length).reverse ++ p.core.log := by
  have same := runtime_of_get there
  have store : p.store r = rt.store := congrArg Runtime.store same
  by_cases noop : g.asyncChunks own = []
  · have loader : g.loader own = .noop := if_pos noop
    rw [loader]
    refine ⟨[.ready .ok], rt.store, rfl, there, fun _ _ => rfl, rfl, ?_⟩
    rw [Graph.firstLoad, if_pos (.inl noop)]
    rfl
  · have loader : g.loader own = .script none := if_neg noop
    have state := built.state c
    rw [← store] at state
    have unfailed : (p.store r).state c ≠ .failed := by
      rw [state]
      split <;> simp
    rw [loader, gatherFrom_script unfailed rfl]
    -- Asked for the chunk that it was built for, the loader finds it loaded.
    by_cases initial : c = own
    · rw [state, if_pos initial]
      refine ⟨[.ready .ok], p.store r, rfl, ?_, fun _ _ => by rw [store], rfl, ?_⟩
      · simp [setStore, modifyRuntime, call, there]
      · rw [Graph.firstLoad, if_pos (.inr initial)]
        rfl
    · rw [state, if_neg initial]
      -- Any other chunk is requested from the host.
      refine ⟨[.attempt r c ((p.store r).attempts + 1)], (p.store r).start c, ?_, ?_, ?_, rfl, ?_⟩
      · simp [inject, silent.onInject, callScript, call, note, setStore, modifyRuntime, request]
      · simp [inject, callScript, call, note, setStore, modifyRuntime, there]
      · intro y other
        simp [store, Ne.symm other]
      · have asked : p.request r c ((p.store r).attempts + 1) = rt.options.request r c 1 := by
          rw [store, built.attempts, request, same]
          rfl
        rw [core_inject, asked, Graph.firstLoad, if_neg (by simp [noop, initial])]
        rfl

/-- When all handlers were asked, the call gets a future. -/
theorem gathered_returns {got : List Awaited} {label : Option String} {nested : Bool}
    (agenda : p.agenda = .gather r c [] got (.ensure label nested) :: base) :
    ∃ q, Returns base p q ∧ q.core.log = p.core.log := by
  let q := p.rest.act (.gather r c [] got (.ensure label nested))
  obtain ⟨a, agenda'⟩ : ∃ a, q.agenda = .conclude a nested (some r) :: base :=
    ⟨_, congrArg (Task.conclude _ nested (some r) :: ·) (agenda_rest agenda)⟩
  have answered : (q.rest.act (.conclude a nested (some r))).agenda = base := by
    refine Eq.trans ?_ (agenda_rest agenda')
    cases nested <;> rfl
  refine ⟨_, .act [] agenda (.last agenda' answered), ?_⟩
  cases nested <;> rfl

/-- The handler of preloads hints the children of the chunk, except for the runtime's own chunk. -/
theorem preloader_returns {got : List Awaited} {label : Option String} {nested : Bool}
    (there : p.runtimes[r]? = some rt) (known : c ∈ g.chunks.map (·.id))
    (states : ∀ y ≠ c, rt.store.state y = if y = own then .loaded else .notRequested)
    (host : ∀ y, hostScript p.onHint y = [])
    (agenda : p.agenda = .gather r c g.preloader got (.ensure label nested) :: base) :
    ∃ q, Returns base p q ∧
      q.core.log = (g.firstHints own c rt.options r).reverse ++ p.core.log := by
  have children := g.preloads_get? known
  by_cases empty : (Assoc.ofList g.preloadMap).isEmpty = true
  · -- Nothing is hinted by a build without preload children.
    have handler : g.preloader = [] := if_pos empty
    have none : g.childChunks c .preload = [] := by
      rw [← children, Assoc.get?, List.isEmpty_iff.mp empty]
      rfl
    rw [handler] at agenda
    simpa [Graph.firstHints, none] using gathered_returns agenda
  · have handler : g.preloader = [.preload (.ofList g.preloadMap)] := if_neg empty
    rw [handler] at agenda
    let cs := g.childChunks c .preload
    let last : Task := .gather r c [] got (.ensure label nested)
    let q := p.rest.act (.gather r c [.preload (.ofList g.preloadMap)] got (.ensure label nested))
    have after : q.agenda = cs.map (.hint r · .preload) ++ (last :: base) := by
      show (((Assoc.ofList g.preloadMap).get? c).getD []).map (.hint r · .preload) ++
        (last :: p.rest.agenda) = _
      rw [children, agenda_rest agenda]
    have same : q.runtime r = rt := runtime_of_get there
    have inRange : r < q.runtimes.length := (List.getElem?_eq_some_iff.mp there).1
    obtain ⟨s, hinted, became⟩ := hints_return inRange (.refl q r) after fun y _ => host y
    obtain ⟨s', ended, log⟩ := gathered_returns hinted.agenda_eq
    -- Those accept the hint that were not requested, which are all but the runtime's own chunk.
    have accepted : (rt.store.hintAll cs).1 = cs.filter (· ≠ own) := by
      have once : cs.Nodup := nodup_eraseDups _
      rw [Store.hintAll_fst once]
      refine List.filter_congr fun y member => ?_
      rw [states y (Graph.exists_of_mem_childChunks member).1]
      by_cases own : y = own <;> simp [own]
    have returns : Returns ([last] ++ base) q s := hinted
    refine ⟨s', .act [] agenda (returns.trans ended), ?_⟩
    rw [log, became.events, same, accepted]
    rfl

/-- **A call for a chunk** to a runtime that was just built, on a page whose host does not call back,
returns, and then the chunk was asked for, if there is something to load, and its preload children were
hinted. -/
theorem ensure_returns {name : String} {label : Option String} {nested : Bool}
    (built : rt.BuiltFor g own) (known : c ∈ g.chunks.map (·.id)) (named : p.names.get? name = some r)
    (there : p.runtimes[r]? = some rt) (silent : p.Silent c) :
    ∃ q, Returns p.agenda (p.make (.call (.ensure name c label) nested)) q ∧
      q.core.log = (g.firstLoad own c rt.options r p.requests.length ++
        g.firstHints own c rt.options r).reverse ++ p.core.log := by
  have same := runtime_of_get there
  let caller : Caller := .ensure label nested
  -- The runtime asks its handlers, the loader first.
  have asked : p.perform nested (.ensure name c label) =
      p.call [.gather r c (g.loader own :: g.preloader) [] caller] := by
    simp only [perform, withRuntime, named, ask, same, built.onDemand, if_true, built.handlers, caller]
  obtain ⟨got, s, agenda, there, kept, onHint, log⟩ :=
    loader_opens built there silent g.preloader caller
  have states : ∀ y ≠ c, s.state y = if y = own then .loaded else .notRequested := by
    intro y other
    rw [kept y other, built.state y]
  obtain ⟨q, returns, log'⟩ := preloader_returns there known states
    (fun y => by rw [onHint]; exact silent.onHint y) agenda
  refine ⟨q, ?_, ?_⟩
  · refine .act [] rfl ?_
    show Returns p.agenda (p.perform nested (.ensure name c label)) q
    rw [asked]
    exact .act [] rfl returns
  · rw [log', log, List.reverse_append, List.append_assoc]

/-- A runtime that is created from a blueprint stands on the page as it was built. -/
theorem create_returns {b : Blueprint} (builds : ∀ x, ∃ rt, b.build x = .ok rt) (name : String)
    (nested : Bool) : ∃ q x rt, b.build x = .ok rt ∧
      Returns p.agenda (p.make (.call (.create name (.ok b) none) nested)) q ∧
      q.names.get? name = some p.runtimes.length ∧ q.runtimes[p.runtimes.length]? = some rt ∧
      q.onInject = p.onInject ∧ q.onHint = p.onHint ∧ q.core.log = p.core.log := by
  obtain ⟨x, extensions, extended⟩ : ∃ x extensions,
      p.newExtension b none = .ok (x, { p with extensions := extensions }) := by
    -- The runtime may be built with a bootstrap for its extension.
    cases boot : b.bootstrap with
    | none => exact ⟨none, p.extensions, by simp [newExtension, boot]⟩
    | some boot' =>
      exact ⟨some p.extensions.length, p.extensions ++ [.bootstrap { boot' with previous := none }],
        by simp [newExtension, boot, addBootstrap]⟩
  obtain ⟨rt, built⟩ := builds x
  let added : Page := { p with
    extensions := extensions
    runtimes := p.runtimes ++ [rt]
    names := p.names.set name p.runtimes.length }
  have created : p.perform nested (.create name (.ok b) none) = added.answerWith nested .done := by
    simp [perform, addRuntime, extended, built, Except.mapError, bind, Except.bind, pure, Except.pure,
      added]
  -- The page has the runtime, and then the call is answered.
  let q := (added.answerWith nested .done).rest.act (.conclude .done nested none)
  refine ⟨q, x, rt, built, ?_, ?_⟩
  · refine .act [] rfl ?_
    show Returns p.agenda (p.perform nested (.create name (.ok b) none)) q
    rw [created]
    refine .last rfl ?_
    cases nested <;> rfl
  · have names : q.names = added.names := by cases nested <;> rfl
    have runtimes : q.runtimes = added.runtimes := by cases nested <;> rfl
    rw [names, runtimes]
    refine ⟨?_, ?_, ?_, ?_, ?_⟩
    · simp [added]
    · simp [added]
    · cases nested <;> rfl
    · cases nested <;> rfl
    · cases nested <;> rfl

end Page

/-! ## Agreement -/

namespace Graph

variable {config : Config} {g : Graph} {asked : ChunkId}

theorem merger_of_onDemand (onDemand : (g.requirementsOf asked).onDemandLoading = true) :
    (g.featuresOf config asked).merger = true := by
  simp [featuresOf, Features.of, Requirements.isEmpty, onDemand]

/-- The table of emitted preloads is a line of the code. -/
theorem line_of_preloadTable? {ss : List Section} {table : List (String × List ChunkId)}
    (preloads : preloadTable? ss = some table) :
    "  var chunkPreloads = " ++ Literal.idLists table ++ ";" ∈ sectionLines ss := by
  obtain ⟨s, member, held⟩ := List.exists_of_findSome?_eq_some preloads
  cases s with
  | hints prefetch t =>
    obtain rfl : t = some table := held
    exact line_mem_sectionLines member (by simp [Section.lines, hintLines])
  | _ => cases held

/-- **What is preloaded.** Take any valid graph, and a chunk that loads others on demand, for
which a runtime is both built and emitted. The emitted code has its table of preloads, if any, by a
literal that is read back. If nothing may be loaded later, there is no such table, and the built runtime
never asks for a resource, whatever happens on its page.

With a chunk of the build the emitted code preloads its preload children, provided that some chunk may be
loaded later, and the chunk is the runtime's own or one of these; else nothing. The built runtime has no
such proviso: asked for any chunk of the build, on a page whose host does not call back, it hints all
preload children of the chunk but its own chunk, in their order. So the two agree on a chunk exactly if
the proviso holds or there is nothing to hint. -/
theorem preloads_agree {b : Blueprint} {x : Option ExtensionId} {rt : Runtime} {r : GeneratedRuntime}
    {ss : List Section} (valid : g.Valid) (planned : Blueprint.forChunk config g asked = .ok b)
    (built : b.build x = .ok rt)
    (emitted : g.generate config asked = .ok r)
    (made : g.sections config r.chunk (g.featuresOf config r.chunk) = .ok ss)
    (onDemand : (g.requirementsOf r.chunk).onDemandLoading = true) :
    (∃ lines, r.code = unlines lines ∧ ∀ table, preloadTable? ss = some table →
      "  var chunkPreloads = " ++ Literal.idLists table ++ ";" ∈ lines ∧
      Literal.readIdLists? (Literal.idLists table) = some table) ∧
    (g.asyncChunks r.chunk = [] → preloadTable? ss = none ∧
      ∀ (p : Page) (i : RuntimeId), p.Reachable → p.runtimes[i]? = some rt → ∀ ms : List Move,
        ∀ number q, .injected number q ∈ (p.follow ms).log → q.runtime ≠ i) ∧
    ∀ c ∈ g.chunks.map (·.id),
      let hinted := (g.childChunks c .preload).filter (· ≠ r.chunk)
      let proviso := g.asyncChunks r.chunk ≠ [] ∧ (c = r.chunk ∨ c ∈ g.asyncChunks r.chunk)
      (preloadedWith ss c = if proviso then g.childChunks c .preload else []) ∧
      (∀ (p : Page) (i : RuntimeId) (name : String) (label : Option String) (nested : Bool),
        p.names.get? name = some i → p.runtimes[i]? = some rt → p.Silent c →
        ∃ q, Page.Returns p.agenda (p.make (.call (.ensure name c label) nested)) q ∧
          q.core.log = (g.firstLoad r.chunk c rt.options i p.requests.length ++
            hinted.map (rt.options.hint i · .preload)).reverse ++ p.core.log) ∧
      (hinted = (preloadedWith ss c).filter (· ≠ r.chunk) ↔ proviso ∨ hinted = []) := by
  have found := resolve_of_generate emitted
  have fresh := Blueprint.builtFor_of_build planned built found onDemand
  have inGraph := mem_of_resolve found
  have merger : (g.featuresOf config r.chunk).merger = true := merger_of_onDemand onDemand
  refine ⟨⟨g.headerLine r.chunk :: "(() => \x7b" :: sectionLines ss, ?_, ?_⟩, ?_, ?_⟩
  · rw [code_of_generate emitted made merger, runtimeText_eq]
  · intro table preloads
    exact ⟨.tail _ (.tail _ (line_of_preloadTable? preloads)), Literal.readIdLists?_idLists table⟩
  · intro none
    constructor
    · -- Without later chunks no preloads are emitted.
      have bare : ¬ (g.featuresOf config r.chunk).preload = true :=
        fun preload => (preload_featuresOf.mp preload).1 none
      rw [preloadTable?_sections made, if_neg bare]
    · intro p i reachable there ms number q asked own
      obtain ⟨inRange, -⟩ := List.getElem?_eq_some_iff.mp there
      obtain ⟨-, only, script⟩ := reachable.injected inRange ms asked own
      -- Among the handlers there is no script handler.
      rw [Page.runtime_of_get there, fresh.handlers, loader, if_pos none, preloader] at script
      split at script <;> simp at script
  · intro c known hinted proviso
    have preloaded : preloadedWith ss c = if proviso then g.childChunks c .preload else [] :=
      preloadedWith_sections valid inGraph made known
    refine ⟨preloaded, ?_, ?_⟩
    · intro p i name label nested named there silent
      exact Page.ensure_returns fresh known named there silent
    · rw [preloaded]
      -- Where the proviso holds, both have the same children; elsewhere nothing is emitted.
      by_cases holds : proviso
      · simp [holds, hinted]
      · simp [holds]

/-- A runtime that can be built and emitted stands on some page of a host that never calls back. -/
theorem exists_page {own : ChunkId} (plans : (Blueprint.forChunk config g own).isOk = true)
    (emits : (g.generate config own).isOk = true) (found : g.resolve? own.text = some own)
    (onDemand : (g.requirementsOf own).onDemandLoading = true) :
    ∃ b x rt r ss, ∃ p : Page, Blueprint.forChunk config g own = .ok b ∧ b.build x = .ok rt ∧
      g.generate config own = .ok r ∧ r.chunk = own ∧
      g.sections config own (g.featuresOf config own) = .ok ss ∧ p.Reachable ∧
      p.names.get? "r" = some 0 ∧ p.runtimes[0]? = some rt ∧ (∀ c, p.Silent c) ∧ p.core.log = [] := by
  obtain ⟨b, planned⟩ := isOk_iff.mp plans
  obtain ⟨r, emitted⟩ := isOk_iff.mp emits
  have builds (x : Option ExtensionId) : ∃ rt, b.build x = .ok rt := by
    obtain ⟨c, options, bootstrap, -, -, -, rfl⟩ := Blueprint.forChunk_ok planned
    exact Blueprint.build_ok rfl x
  obtain rfl : r.chunk = own := Option.some.inj ((resolve_of_generate emitted).symm.trans found)
  obtain ⟨ss, made, -⟩ := sections_of_generate emitted (merger_of_onDemand onDemand)
  obtain ⟨p, x, rt, built, returns, named, there, onInject, onHint, log⟩ :=
    Page.create_returns (p := .fresh [] []) builds "r" false
  have reachable : p.Reachable := by
    obtain ⟨n, followed⟩ := returns.follow
    rw [← followed]
    exact (Page.Reachable.make _ (.fresh [] [])).follow _
  have silent (c : ChunkId) : p.Silent c := ⟨by rw [onInject]; rfl, fun y => by rw [onHint]; rfl⟩
  exact ⟨b, x, rt, r, ss, p, planned, built, emitted, rfl, made, reachable, named, there, silent, log⟩

end Graph

/-- A build of two entries, of which only the second one loads later, and has a preload child. -/
def twoEntries : Graph where
  hash := some "0"
  chunks := [⟨.number 1, none, [], some "a"⟩, ⟨.number 2, none, [], some "b"⟩,
    ⟨.number 3, none, [], some "c"⟩]
  groups := [⟨"g", .entry, [.number 1], [], none, none, none⟩,
    ⟨"h", .entry, [.number 2], ["i"], none, none, none⟩,
    ⟨"i", .async, [.number 3], [], none, none, some 0⟩]
  blocks := [⟨.number 7, "i"⟩]

theorem twoEntries_valid : twoEntries.Valid := Graph.validate_ok.mp (by decide)

theorem twoEntries_children : twoEntries.childChunks (.number 2) .preload = [.number 3] := by
  decide +kernel

/-- The runtimes of its second chunk both preload chunk `3` with chunk `2`. -/
theorem preloads_agree_twoEntries : twoEntries.Valid ∧
    ∃ b x rt r ss, ∃ p q : Page, Blueprint.forChunk .standard twoEntries (.number 2) = .ok b ∧
      b.build x = .ok rt ∧ twoEntries.generate .standard (.number 2) = .ok r ∧
      twoEntries.sections .standard r.chunk (twoEntries.featuresOf .standard r.chunk) = .ok ss ∧
      (twoEntries.requirementsOf r.chunk).onDemandLoading = true ∧
      preloadedWith ss (.number 2) = [.number 3] ∧ p.runtimes[0]? = some rt ∧
      Page.Returns p.agenda (p.make (.call (.ensure "r" (.number 2) none) false)) q ∧
      q.core.log = [rt.options.hint 0 (.number 3) .preload] := by
  have onDemand : (twoEntries.requirementsOf (.number 2)).onDemandLoading = true := by decide
  have later : twoEntries.asyncChunks (.number 2) = [.number 3] := by decide
  have plans : (Blueprint.forChunk .standard twoEntries (.number 2)).isOk = true := by decide
  have emits : (twoEntries.generate .standard (.number 2)).isOk = true := by decide
  have found : twoEntries.resolve? (Id.number 2).text = some (.number 2) := by decide
  obtain ⟨b, x, rt, r, ss, p, planned, built, emitted, own, made, reachable, named, there, silent,
    log⟩ := Graph.exists_page plans emits found onDemand
  have known : Id.number 2 ∈ twoEntries.chunks.map (·.id) := by decide
  rw [← own] at made onDemand
  obtain ⟨-, -, each⟩ := Graph.preloads_agree twoEntries_valid planned built emitted made onDemand
  obtain ⟨preloaded, asked, -⟩ := each (.number 2) known
  obtain ⟨q, returns, hinted⟩ := asked p 0 "r" none false named there (silent _)
  refine ⟨twoEntries_valid, b, x, rt, r, ss, p, q, planned, built, emitted, made, onDemand, ?_, there,
    returns, ?_⟩
  · rw [preloaded, own, later, twoEntries_children]
    rfl
  · rw [hinted, log, own, Graph.firstLoad, if_pos (.inr rfl), twoEntries_children]
    rfl

/-- The runtime that is built for its first chunk hints chunk `3` when it is asked for chunk `2`, while
the emitted one preloads nothing. -/
theorem preloads_apart : twoEntries.Valid ∧
    ∃ b x rt r ss, ∃ p q : Page, Blueprint.forChunk .standard twoEntries (.number 1) = .ok b ∧
      b.build x = .ok rt ∧ twoEntries.generate .standard (.number 1) = .ok r ∧
      twoEntries.sections .standard r.chunk (twoEntries.featuresOf .standard r.chunk) = .ok ss ∧
      (twoEntries.requirementsOf r.chunk).onDemandLoading = true ∧
      rt.handlers.head? = some .noop ∧ preloadTable? ss = none ∧
      p.Reachable ∧ p.runtimes[0]? = some rt ∧ p.core.log = [] ∧
      Page.Returns p.agenda (p.make (.call (.ensure "r" (.number 2) none) false)) q ∧
      q.core.log = [rt.options.hint 0 (.number 3) .preload] := by
  have onDemand : (twoEntries.requirementsOf (.number 1)).onDemandLoading = true := by decide
  have none : twoEntries.asyncChunks (.number 1) = [] := by decide
  have plans : (Blueprint.forChunk .standard twoEntries (.number 1)).isOk = true := by decide
  have emits : (twoEntries.generate .standard (.number 1)).isOk = true := by decide +kernel
  have found : twoEntries.resolve? (Id.number 1).text = some (.number 1) := by decide
  obtain ⟨b, x, rt, r, ss, p, planned, built, emitted, own, made, reachable, named, there, silent,
    log⟩ := Graph.exists_page plans emits found onDemand
  have fresh := Blueprint.builtFor_of_build planned built found onDemand
  have known : Id.number 2 ∈ twoEntries.chunks.map (·.id) := by decide
  obtain ⟨q, returns, hinted⟩ : ∃ q,
      Page.Returns p.agenda (p.make (.call (.ensure "r" (.number 2) .none) false)) q ∧ _ :=
    Page.ensure_returns fresh known named there (silent _)
  -- The chunk has no later ones, so its emitted runtime has no table of preloads.
  have unemitted : ¬ (twoEntries.featuresOf .standard (.number 1)).preload = true :=
    fun preload => (Graph.preload_featuresOf.mp preload).1 none
  refine ⟨twoEntries_valid, b, x, rt, r, ss, p, q, planned, built, emitted, ?_, ?_, ?_, ?_, reachable,
    there, log, returns, ?_⟩
  · rw [own]
    exact made
  · rw [own]
    exact onDemand
  · rw [fresh.handlers, List.head?_cons, Graph.loader, if_pos none]
  · rw [Graph.preloadTable?_sections made, if_neg unemitted]
  · rw [hinted, log, Graph.firstLoad, if_pos (.inl none), Graph.firstHints, twoEntries_children]
    rfl

end ChunkLoading
