import ChunkLoading.Proofs.Demand

/-!
# The resources that runtimes ask for

A runtime keeps its options and handlers for good, and whatever resource it asks for or hints is the one
that its options name (`Reachable.injected`, `Reachable.hinted`). Only a script handler asks for
resources.
-/

namespace ChunkLoading

/-! ## Honest runtimes -/

/-- A resource is the one that the options of its runtime name. One that is asked for was asked for by a
script handler. -/
def Event.Honest (settings : List Settings) : Event → Prop
  | .injected _ q => ∃ s only, settings[q.runtime]? = some s ∧ .script only ∈ s.handlers ∧
      q = s.options.request q.runtime q.chunk q.attempt
  | .hinted r c kind address nonce crossOrigin => ∃ s, settings[r]? = some s ∧
      .hinted r c kind address nonce crossOrigin = s.options.hint r c kind
  | _ => True

/-- Runtimes ask their own handlers, and all resources are honest. -/
structure Demand.Honest (k : Demand) : Prop where
  asking : ∀ a ∈ k.asking, ∃ s, k.settings[a.1]? = some s ∧ a.2 ⊆ s.handlers
  resources : ∀ e ∈ k.resources, e.Honest k.settings

/-- Settings stay where they are when others are added. -/
theorem settings_append {settings : List Settings} {r : RuntimeId} {s : Settings}
    (own : settings[r]? = some s) (new : List Settings) : (settings ++ new)[r]? = some s :=
  (List.getElem?_append_left (List.getElem?_eq_some_iff.mp own).1).trans own

/-- Runtimes that are built later change nothing. -/
theorem Event.Honest.append {settings : List Settings} {e : Event} (honest : e.Honest settings)
    (new : List Settings) : e.Honest (settings ++ new) := by
  cases e with
  | injected n q =>
    obtain ⟨s, only, own, told⟩ := honest
    exact ⟨s, only, settings_append own new, told⟩
  | hinted r c kind address nonce crossOrigin =>
    obtain ⟨s, own, told⟩ := honest
    exact ⟨s, settings_append own new, told⟩
  | _ => trivial

namespace Demand

variable {k k' : Demand}

theorem Step.settings (step : k.Step k') : ∃ new, k'.settings = k.settings ++ new := by
  cases step with
  | created s => exact ⟨[s], rfl⟩
  | _ => exact ⟨[], (List.append_nil _).symm⟩

theorem Step.honest (step : k.Step k') (honest : k.Honest) : k'.Honest := by
  cases step with
  | same => exact honest
  | created s =>
    refine ⟨fun a member => ?_, fun e member => (honest.resources e member).append _⟩
    obtain ⟨s', own, handled⟩ := honest.asking a member
    exact ⟨s', settings_append own _, handled⟩
  | asked own handled =>
    exact ⟨List.forall_mem_cons.mpr ⟨⟨_, own, handled⟩, honest.asking⟩, honest.resources⟩
  | gathered asking =>
    -- The call that comes to its end was honest, and so are the later ones.
    have all := honest.asking
    rw [asking] at all
    exact ⟨(List.forall_mem_cons.mp all).2, honest.resources⟩
  | passed asking =>
    -- A handler that is passed over leaves the others, which are the runtime's own.
    have all := honest.asking
    rw [asking] at all
    obtain ⟨⟨s, own, handled⟩, later⟩ := List.forall_mem_cons.mp all
    exact ⟨List.forall_mem_cons.mpr ⟨⟨s, own, (List.cons_subset.mp handled).2⟩, later⟩,
      honest.resources⟩
  | @injected r s only handlers later own asking number c n =>
    -- The handler that asks for the resource is one of the runtime's own.
    have all := honest.asking
    rw [asking] at all
    obtain ⟨⟨s', own', handled⟩, later⟩ := List.forall_mem_cons.mp all
    obtain rfl : s = s' := Option.some.inj (own.symm.trans own')
    obtain ⟨script, others⟩ := List.cons_subset.mp handled
    exact ⟨List.forall_mem_cons.mpr ⟨⟨s, own, others⟩, later⟩,
      List.forall_mem_cons.mpr ⟨⟨s, only, own, script, rfl⟩, honest.resources⟩⟩
  | hinted own c kind =>
    exact ⟨honest.asking, List.forall_mem_cons.mpr ⟨⟨_, own, rfl⟩, honest.resources⟩⟩

end Demand

namespace Page

variable {p : Page} {r : RuntimeId}

/-- On every page of every run resources are asked for as settings say. -/
theorem Reachable.honest (h : p.Reachable) : p.demand.Honest := by
  induction h with
  | fresh onInject onHint => exact ⟨by simp [demand, Page.fresh], by simp [demand, Page.fresh]⟩
  | make m h ih => exact (demand_step h.sound m).honest ih

/-- Along a run runtimes keep their settings. -/
theorem Reachable.settings_follow (h : p.Reachable) (ms : List Move) :
    ∃ new, (p.follow ms).demand.settings = p.demand.settings ++ new := by
  induction ms generalizing p with
  | nil => exact ⟨[], (List.append_nil _).symm⟩
  | cons m ms ih =>
    obtain ⟨first, made⟩ := (demand_step h.sound m).settings
    obtain ⟨later, followed⟩ := ih (.make m h)
    exact ⟨first ++ later, by rw [follow_cons, followed, made, List.append_assoc]⟩

/-- **Resources.** Whatever happens after a runtime was there, a resource that it asked for is the one that
its options name, and was asked for by a script handler of its own. -/
theorem Reachable.injected (h : p.Reachable) (inRange : r < p.runtimes.length) (ms : List Move)
    {number : Nat} {q : Request} (asked : .injected number q ∈ (p.follow ms).log)
    (own : q.runtime = r) :
    q = (p.runtime r).options.request r q.chunk q.attempt ∧
      ∃ only, .script only ∈ (p.runtime r).handlers := by
  obtain ⟨new, settings⟩ := h.settings_follow ms
  obtain ⟨s, only, kept, script, told⟩ := (h.follow ms).honest.resources _
    (List.mem_filter.mpr ⟨asked, rfl⟩)
  rw [own, settings, settings_append (settings_get inRange)] at kept
  obtain rfl := Option.some.inj kept
  exact ⟨own ▸ told, only, script⟩

/-- A hint is made with the options of its runtime. -/
theorem Reachable.hinted (h : p.Reachable) (inRange : r < p.runtimes.length) (ms : List Move)
    {c : ChunkId} {kind : HintKind} {address : String} {nonce crossOrigin : Option String}
    (told : .hinted r c kind address nonce crossOrigin ∈ (p.follow ms).log) :
    Event.hinted r c kind address nonce crossOrigin = (p.runtime r).options.hint r c kind := by
  obtain ⟨new, settings⟩ := h.settings_follow ms
  obtain ⟨s, kept, told⟩ := (h.follow ms).honest.resources _ (List.mem_filter.mpr ⟨told, rfl⟩)
  rw [settings, settings_append (settings_get inRange)] at kept
  obtain rfl := Option.some.inj kept
  exact told

end Page

end ChunkLoading
