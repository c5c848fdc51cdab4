import ChunkLoading.Proofs.Absorption
import ChunkLoading.Proofs.Soundness
import ChunkLoading.Proofs.Views

/-!
# The demand for resources

What a page does with resources: the handlers that are still to be asked for a chunk, the requests and
hints that were made, and the settings of the runtimes, which say what to ask for. Few operations touch
any of that; each of the others has one equation that says so. `demand_step` lists all that a move can
do to the demand.
-/

namespace ChunkLoading

/-- The resource that an attempt asks for under given options. -/
def Options.request (o : Options) (r : RuntimeId) (c : ChunkId) (n : Attempt) : Request where
  runtime := r
  chunk := c
  attempt := n
  address := o.address c
  timeoutMillis := o.timeoutMillis
  nonce := o.nonce
  crossOrigin := o.crossOrigin
  resourceType := o.resourceType

/-- Whether an event tells of a resource. -/
def Event.isResource : Event → Bool
  | .injected .. | .hinted .. => true
  | _ => false

/-- The handlers that a task is to ask. -/
def Task.asks : Task → List (RuntimeId × List Handler)
  | .gather r _ handlers _ _ => [(r, handlers)]
  | _ => []

/-- What a runtime never changes. -/
structure Settings where
  options : Options
  handlers : List Handler

def Runtime.settings (rt : Runtime) : Settings := ⟨rt.options, rt.handlers⟩

@[ext] structure Demand where
  /-- The settings of the runtimes. -/
  settings : List Settings
  /-- The handlers that are still to be asked, and the runtimes that ask them. -/
  asking : List (RuntimeId × List Handler)
  /-- The events on resources, the newest first. -/
  resources : List Event

namespace Page

variable {p : Page} {r : RuntimeId}

def settings (p : Page) : List Settings := p.runtimes.map Runtime.settings

def demand (p : Page) : Demand where
  settings := p.settings
  asking := p.agenda.flatMap Task.asks
  resources := p.log.filter Event.isResource

/-! ## What leaves the demand alone -/

/-- Tasks that are called for ask what they ask before all else. -/
theorem demand_call (p : Page) (ts : List Task) : (p.call ts).demand =
    { p.demand with asking := ts.flatMap Task.asks ++ p.demand.asking } := by
  simp [demand, call, settings]

theorem demand_call_beside {ts : List Task} (beside : ∀ t ∈ ts, t.asks = []) :
    (p.call ts).demand = p.demand := by
  have asking : ts.flatMap Task.asks = [] := List.flatMap_eq_nil_iff.mpr beside
  simp [demand_call, asking]

/-- Tasks of one kind that asks nothing may be put on the agenda. -/
theorem demand_call_map {α : Type} {task : α → Task} (beside : ∀ a, (task a).asks = []) (as : List α) :
    (p.call (as.map task)).demand = p.demand := by
  refine demand_call_beside fun t member => ?_
  obtain ⟨a, -, rfl⟩ := List.mem_map.mp member
  exact beside a

/-- The resources that were asked for last come first. -/
theorem demand_note (p : Page) (es : List Event) : (p.note es).demand =
    { p.demand with resources := (es.filter Event.isResource).reverse ++ p.demand.resources } := by
  simp [demand, note, settings]

theorem demand_note_beside {es : List Event} (beside : ∀ e ∈ es, e.isResource = false) :
    (p.note es).demand = p.demand := by
  have none : es.filter Event.isResource = [] := List.filter_eq_nil_iff.mpr (by simpa using beside)
  simp [demand_note, none]

/-- Of a runtime, only the settings that requests are made with matter. -/
theorem demand_modifyRuntime {f : Runtime → Runtime} (kept : ∀ rt, (f rt).settings = rt.settings) :
    (p.modifyRuntime r f).demand = p.demand := by
  have settings : (p.modifyRuntime r f).settings = p.settings := by
    unfold Page.settings
    refine List.ext_getElem (by simp [modifyRuntime]) fun i _ _ => ?_
    simp only [modifyRuntime, List.getElem_map, List.getElem_modify]
    split
    · exact kept _
    · rfl
  unfold demand
  rw [settings]
  rfl

/-- The demand does not see what goes on in runtimes. -/
theorem view_demand : View demand where
  call inner := demand_call_beside fun t member => by
    have inner := inner t member
    cases t <;> first | rfl | cases inner
  note inner := demand_note_beside fun e member => by
    have inner := inner e member
    cases e <;> first | rfl | cases inner
  runtime kept := demand_modifyRuntime fun rt => by
    obtain ⟨options, handlers, -⟩ := kept rt
    unfold Runtime.settings
    rw [options, handlers]
  frame _ _ _ _ _ := rfl

/-- Factories ask for nothing. -/
theorem demand_addModules (p : Page) (ms : List (ModuleSpec Command)) :
    (p.addModules ms).2.demand = p.demand := by
  rw [addModules_frame]
  rfl

theorem demand_addDelivery (p : Page) (d : DeliverySpec Command) :
    (p.addDelivery d).2.demand = p.demand := demand_addModules p d.modules

theorem demand_addExtension {p' : Page} {spec : ExtensionSpec Command} {x : ExtensionId}
    (h : p.addExtension spec = .ok (x, p')) : p'.demand = p.demand := by
  rw [addExtension_frame h]
  rfl

/-- A merge asks for no resources; the hints that it calls for come later. -/
theorem demand_merge (p : Page) (r : RuntimeId) (d : Delivery) :
    (p.merge r d).demand = p.demand := by
  simp only [merge]
  rw [demand_call_beside, demand_note_beside, view_demand.setStore]
  · intro e member
    rcases List.mem_cons.mp member with rfl | member
    · rfl
    · obtain ⟨c, -, rfl⟩ := List.mem_map.mp member
      rfl
  · intro t member
    simp only [List.mem_append, List.mem_map, List.mem_cons, List.not_mem_nil, or_false] at member
    rcases member with (⟨x, -, rfl⟩ | hint) | rfl | rfl
    · rfl
    · split at hint
      · obtain ⟨c, -, rfl⟩ := List.mem_map.mp hint
        rfl
      · cases hint
    · rfl
    · rfl

/-- Nor does a delivery that is shown. -/
theorem demand_observe (p : Page) (x : ExtensionId) (d : Delivery) :
    (p.observe x d).demand = p.demand := by
  unfold observe
  split
  · rfl
  · rename_i describes script found
    refine (view_demand.callScript ..).trans (demand_note_beside ?_)
    cases describes <;> simp [Event.isResource]
  · exact demand_call_map (fun _ => rfl) _

/-- Nor does an installation. -/
theorem demand_install (p : Page) (r : RuntimeId) (queue : String) :
    (p.install r queue).demand = p.demand := by
  simp only [install]
  split
  · rfl
  · exact demand_call_map (fun _ => rfl) _

theorem demand_push (p : Page) (queue : String) (d : Delivery) :
    (p.push queue d).demand = p.demand := demand_call_map (fun _ => rfl) _

end Page

/-- Whether a command asks for a chunk, or builds a runtime that can. -/
def Command.asks : Command → Bool
  | .create .. | .ensure .. => true
  | _ => false

namespace Page

variable {p : Page} {r : RuntimeId}

/-- Most commands ask for nothing. -/
theorem demand_perform {command : Command} (beside : command.asks = false) (nested : Bool) :
    (p.perform nested command).demand = p.demand := by
  by_cases inner : command.isInner
  · exact view_demand.perform inner nested
  -- The commands that ask have been excluded, and no other one touches handlers, requests or settings.
  cases command with
  | create | ensure => cases beside
  | install name queue => exact view_demand.withRuntime fun r => (demand_install ..).trans rfl
  | push queue spec =>
    exact (demand_push ..).trans ((view_demand.answerWith ..).trans (demand_addDelivery ..))
  | setExtension name spec =>
    cases spec with
    | none => exact view_demand.withRuntime fun r => demand_modifyRuntime fun _ => rfl
    | some spec =>
      refine view_demand.withRuntime fun r => ?_
      split
      · rename_i added
        rw [view_demand.answerWith, demand_modifyRuntime]
        · exact demand_addExtension added
        · exact fun _ => rfl
      · exact view_demand.answerWith ..
  | createBootstrap hot plan previous =>
    obtain ⟨xs, bs, a, frame⟩ := createBootstrap_frame p nested hot plan previous
    rw [frame]
    rfl
  | observe hot spec =>
    simp only [perform]
    rw [view_demand.withBootstrap fun x b => by rfl]
    exact demand_addDelivery ..
  | applyManifest hot manifest =>
    refine view_demand.withBootstrap fun x b => ?_
    split <;> rfl
  | receive hot c modules =>
    simp only [perform]
    rw [view_demand.withBootstrap fun x b => by rfl]
    exact demand_addModules ..
  | finish hot next runOn =>
    refine view_demand.withBootstrap fun x b => (view_demand.finishUpdate ..).trans ?_
    cases b.finish? next <;> rfl
  | _ => exact absurd rfl inner

/-! ## What changes the demand -/

/-- Asking for a chunk calls for handlers of the runtime. -/
theorem demand_ask (p : Page) (r : RuntimeId) (c : ChunkId) (caller : Caller) :
    ∃ handlers, handlers ⊆ (p.runtime r).handlers ∧
      (p.ask r c caller).demand = { p.demand with asking := (r, handlers) :: p.demand.asking } := by
  simp only [ask]
  split
  · exact ⟨_, List.Subset.refl _, demand_call ..⟩
  · exact ⟨[], List.nil_subset _, demand_call ..⟩

/-- A hint asks for the address of its chunk, unless the chunk was asked for before. -/
theorem demand_hint (p : Page) (r : RuntimeId) (c : ChunkId) (kind : HintKind) :
    (p.hint r c kind).demand = p.demand ∨ (p.hint r c kind).demand = { p.demand with
      resources := (p.runtime r).options.hint r c kind :: p.demand.resources } := by
  unfold hint
  split
  · exact .inl (view_demand.setStore ..)
  · refine .inr ?_
    rw [view_demand.callScript, demand_note, view_demand.setStore]
    rfl

/-- A request is a resource that is asked for. -/
theorem demand_inject (p : Page) (q : Request) : (p.inject q).demand =
    { p.demand with resources := .injected p.requests.length q :: p.demand.resources } := by
  unfold inject
  rw [view_demand.callScript, demand_note]
  rfl

/-- A handler is asked, and then those after it; only a script handler asks the host for a resource. -/
theorem demand_gatherFrom (p : Page) (r : RuntimeId) (c : ChunkId) (h : Handler) (rest : List Handler)
    (got : List Awaited) (caller : Caller) :
    let next : Demand := { p.demand with asking := (r, rest) :: p.demand.asking }
    (p.gatherFrom r c h rest got caller).demand = next ∨
      ∃ only n, h = .script only ∧ (p.gatherFrom r c h rest got caller).demand = { next with
        resources := .injected p.requests.length ((p.runtime r).options.request r c n) ::
          p.demand.resources } := by
  intro next
  have asking (got : List Awaited) : (p.call [.gather r c rest got caller]).demand = next :=
    demand_call ..
  -- Only a script handler that starts an attempt makes a request.
  cases h with
  | script only =>
    simp only [gatherFrom]
    split
    · split
      · exact .inl ((view_demand.setStore ..).trans (asking _))
      · exact .inl ((view_demand.setStore ..).trans (asking _))
      · -- The attempt is new, so its script is injected.
        rename_i n s begun
        refine .inr ⟨only, n, rfl, ?_⟩
        rw [demand_inject, view_demand.setStore, asking]
        rfl
    · exact .inl (asking got)
  | noop => exact .inl (asking _)
  | preload children => exact .inl ((demand_call_map (fun _ => rfl) _).trans (asking got))
  | custom name only answer =>
    have asked (got : List Awaited) (serves : Bool) :
        ((p.call [.gather r c rest got caller]).note [.asked name c serves]).demand = next :=
      (demand_note_beside (by simp [Event.isResource])).trans (asking got)
    refine .inl ?_
    simp only [gatherFrom]
    split
    · split
      · exact asked ..
      · split
        · exact asked ..
        · exact asked (got ++ [.manual name c]) true
    · exact asked ..

/-- Handlers that were all asked hand over to their caller. -/
theorem demand_gathered (p : Page) (r : RuntimeId) (got : List Awaited) (caller : Caller) :
    (p.gathered r got caller).demand = p.demand := by
  cases caller <;> rfl

/-- A new runtime brings its settings. -/
theorem demand_addRuntime {q : Page} {name : String} {plan : Except Failure Blueprint}
    {extension : Option (ExtensionSpec Command)} (h : p.addRuntime name plan extension = .ok q) :
    ∃ s, q.demand = { p.demand with settings := p.demand.settings ++ [s] } := by
  obtain ⟨b, x, rt, -, frame⟩ := addRuntime_frame h
  refine ⟨rt.settings, ?_⟩
  rw [frame]
  simp [demand, settings]

end Page

/-! ## What a move can do -/

/-- What a move can do to the demand for resources. -/
inductive Demand.Step (k : Demand) : Demand → Prop
  /-- Nothing. -/
  | same : Step k k
  /-- A runtime is built. -/
  | created (s : Settings) : Step k { k with settings := k.settings ++ [s] }
  /-- A runtime begins to ask its handlers. -/
  | asked {r : RuntimeId} {s : Settings} {handlers : List Handler} (own : k.settings[r]? = some s)
      (handled : handlers ⊆ s.handlers) : Step k { k with asking := (r, handlers) :: k.asking }
  /-- All handlers were asked. -/
  | gathered {r : RuntimeId} {later : List (RuntimeId × List Handler)}
      (asking : k.asking = (r, []) :: later) : Step k { k with asking := later }
  /-- A handler is asked. -/
  | passed {r : RuntimeId} {h : Handler} {handlers : List Handler}
      {later : List (RuntimeId × List Handler)} (asking : k.asking = (r, h :: handlers) :: later) :
      Step k { k with asking := (r, handlers) :: later }
  /-- A script handler is asked, and asks the host for a resource. -/
  | injected {r : RuntimeId} {s : Settings} {only : Option (List ChunkId)} {handlers : List Handler}
      {later : List (RuntimeId × List Handler)} (own : k.settings[r]? = some s)
      (asking : k.asking = (r, .script only :: handlers) :: later) (number : Nat) (c : ChunkId)
      (n : Attempt) : Step k { k with
        asking := (r, handlers) :: later
        resources := .injected number (s.options.request r c n) :: k.resources }
  /-- A chunk is hinted to the host. -/
  | hinted {r : RuntimeId} {s : Settings} (own : k.settings[r]? = some s) (c : ChunkId)
      (kind : HintKind) : Step k { k with resources := s.options.hint r c kind :: k.resources }

namespace Page

variable {p : Page} {r : RuntimeId}

/-- The settings of a runtime are at its number. -/
theorem settings_get (inRange : r < p.runtimes.length) :
    p.demand.settings[r]? = some (p.runtime r).settings := by
  simp [demand, settings, runtime, List.getD, List.getElem?_eq_getElem inRange]

/-- Asking for a chunk is a step of the demand. -/
theorem step_ask (inRange : r < p.runtimes.length) (c : ChunkId) (caller : Caller) :
    p.demand.Step (p.ask r c caller).demand := by
  obtain ⟨handlers, handled, demand⟩ := demand_ask p r c caller
  rw [demand]
  exact .asked (settings_get inRange) handled

/-- A command builds a runtime, asks for a chunk, or leaves the demand alone. -/
theorem step_perform (inRange : p.InRange) (nested : Bool) (command : Command) :
    p.demand.Step (p.perform nested command).demand := by
  by_cases asks : command.asks
  · cases command with
    | create name plan extension =>
      simp only [perform]
      split
      · rename_i added
        obtain ⟨s, demand⟩ := demand_addRuntime added
        rw [view_demand.answerWith, demand]
        exact .created s
      · exact .same
    | ensure name c label =>
      simp only [perform, withRuntime]
      split
      · rename_i r named
        exact step_ask (inRange r (alive_of_name named)) c _
      · exact .same
    | _ => cases asks
  · rw [demand_perform (Bool.eq_false_iff.mpr asks)]
    exact .same

/-- The next handler is asked, if there is one. -/
theorem step_gather {q : Page} {c : ChunkId} {handlers : List Handler} {got : List Awaited}
    {caller : Caller} (kept : q.demand =
      { p.demand with asking := (Task.gather r c handlers got caller).asks ++ p.demand.asking })
    (inRange : r < p.runtimes.length) : q.demand.Step (p.gather r c handlers got caller).demand := by
  rw [kept]
  cases handlers with
  | nil =>
    show Demand.Step _ (p.gathered r got caller).demand
    rw [demand_gathered]
    exact .gathered rfl
  | cons h rest =>
    show Demand.Step _ (p.gatherFrom r c h rest got caller).demand
    rcases demand_gatherFrom p r c h rest got caller with demand | ⟨only, n, rfl, demand⟩
    · rw [demand]
      exact .passed rfl
    · rw [demand]
      let k : Demand := { p.demand with asking := (r, .script only :: rest) :: p.demand.asking }
      have own : k.settings[r]? = some (p.runtime r).settings := settings_get inRange
      have asking : k.asking = (r, .script only :: rest) :: p.demand.asking := rfl
      exact .injected own asking p.requests.length c n

/-- **Every move does to the demand one of the listed steps.** -/
theorem demand_step (sound : p.Sound) (m : Move) : p.demand.Step (p.make m).demand := by
  cases m with
  | call command nested => exact .same
  | poll next => exact .same
  | task =>
    cases agenda : p.agenda with
    | nil =>
      have still : p.make .task = p := by simp [make, step, agenda]
      rw [still]
      exact .same
    | cons t ts =>
      have kept : p.demand = { p.rest.demand with asking := t.asks ++ p.rest.demand.asking } := by
        simp [demand, rest, agenda, settings]
      have uses (r : RuntimeId) (h : t.uses r) : r < p.rest.runtimes.length :=
        sound.inRange r (alive_of_task (agenda ▸ List.mem_cons_self) h)
      rw [make_task agenda]
      -- Commands, handlers, hints and imports may ask for something; merges and showings do not, but no view is
      -- blind to them.
      cases t with
      | perform command nested =>
        rw [kept]
        exact step_perform sound.rest.inRange nested command
      | gather r c handlers got caller => exact step_gather kept (uses r (by simp [Task.uses]))
      | hint r c kind =>
        rw [kept]
        show p.rest.demand.Step (p.rest.hint r c kind).demand
        rcases demand_hint p.rest r c kind with demand | demand
        · rw [demand]
          exact .same
        · rw [demand]
          exact .hinted (settings_get (uses r (by simp [Task.uses]))) c kind
      | load f r rest loads module =>
        rw [kept]
        show p.rest.demand.Step (p.rest.load f r rest loads module).demand
        cases rest with
        | cons c rest => exact step_ask (uses r (by simp [Task.uses])) c _
        | nil =>
          rw [view_demand.load_nil]
          exact .same
      | merge r d =>
        rw [kept]
        show p.rest.demand.Step (p.rest.merge r d).demand
        rw [demand_merge]
        exact .same
      | observe x d =>
        rw [kept]
        show p.rest.demand.Step (p.rest.observe x d).demand
        rw [demand_observe]
        exact .same
      | _ =>
        rw [kept, view_demand.act rfl]
        exact .same

end Page

end ChunkLoading
