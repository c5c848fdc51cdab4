import ChunkLoading.Page.Run
import ChunkLoading.Proofs.Store
import ChunkLoading.Proofs.Tables

/-!
# Without hints

Hints come from explicit calls, from the prefetch lists of deliveries and from the children that preload
handlers know; without prefetch support a runtime ignores the lists. An `Erasure` tells which of these
are taken away, and `without` takes them away: from a delivery, a handler, a blueprint, and a command
with all the scripts that it brings. Stores and logs are alike if only hints tell them apart
(`Store.Alike`, `Log.Alike`).
-/

namespace ChunkLoading

/-- Which hints are taken away. -/
structure Erasure where
  /-- Explicit calls. -/
  calls : Bool
  /-- The prefetch lists of deliveries. -/
  lists : Bool
  /-- The children that preload handlers hint. -/
  children : Bool
  /-- The prefetch support of runtimes. -/
  support : Bool
  deriving DecidableEq

/-- Whether no hint is left. -/
def Erasure.everything (w : Erasure) : Bool := w.calls && (w.lists || w.support) && w.children

/-! ## Deliveries and runtimes -/

section

variable (w : Erasure)

def Delivery.without (d : Delivery) : Delivery :=
  { d with prefetch := if w.lists then [] else d.prefetch }

def Queue.without (q : Queue) : Queue := { q with delivered := q.delivered.map (Delivery.without w) }

/-- A table of children without those that are hinted; the chunks that have some stay. -/
def Erasure.preload (children : Assoc ChunkId (List ChunkId)) : Assoc ChunkId (List ChunkId) :=
  if w.children then children.mapValues fun _ => [] else children

def Handler.without : Handler → Handler
  | .preload children => .preload (w.preload children)
  | h => h

def Blueprint.without (b : Blueprint) : Blueprint :=
  { b with
    prefetch := b.prefetch && !w.support
    preload := w.preload b.preload
    handlers := b.handlers.map (Handler.without w) }

def Runtime.without (rt : Runtime) : Runtime :=
  { rt with
    handlers := rt.handlers.map (Handler.without w)
    prefetch := rt.prefetch && !w.support }

end

/-- Children that are erased leave an empty list behind, so that the handler stays. -/
@[simp] theorem Erasure.isEmpty_preload (w : Erasure) (children : Assoc ChunkId (List ChunkId)) :
    (w.preload children).isEmpty = children.isEmpty := by
  unfold preload
  split <;> simp

/-- A blueprint without hints makes the runtime without hints. -/
theorem Blueprint.build_without (w : Erasure) (b : Blueprint) (x : Option ExtensionId) :
    (b.without w).build x = (b.build x).map (Runtime.without w) := by
  have builtIn : (b.without w).builtIn = b.builtIn.map (Handler.without w) := by
    have preload : (b.without w).preload.isEmpty = b.preload.isEmpty := w.isEmpty_preload b.preload
    unfold Blueprint.builtIn
    rw [preload, List.map_append]
    congr 1
    · show (if b.scriptLoading then _ else if b.noopLoading then _ else _) = _
      split
      · rfl
      · split <;> rfl
    · split <;> rfl
  have handlers : (b.without w).allHandlers = b.allHandlers.map (Handler.without w) := by
    unfold Blueprint.allHandlers
    rw [builtIn, List.map_append]
    congr 1
    show (if b.onDemand then _ else _) = _
    split <;> rfl
  unfold build
  rw [handlers, List.isEmpty_map]
  show (if b.onDemand && _ then _ else _) = _
  split <;> rfl

/-! ## Commands -/

def Command.isHint : Command → Bool
  | .hint .. => true
  | _ => false

section

variable (w : Erasure)

mutual

/-- A command without the hints that its deliveries, its blueprint and its scripts bring. -/
def Command.without : Command → Command
  | .create name plan extension =>
    .create name (plan.map (Blueprint.without w)) (ExtensionSpec.without? extension)
  | .push queue d => .push queue (DeliverySpec.without d)
  | .setExtension name extension => .setExtension name (ExtensionSpec.without? extension)
  | .createBootstrap hot plan previous => .createBootstrap hot plan (ExtensionSpec.without? previous)
  | .observe hot d => .observe hot (DeliverySpec.without d)
  | .receive hot c ms => .receive hot c (ModuleSpec.withoutAll ms)
  | c => c

def Script.without : List Command → List Command
  | [] => []
  | c :: cs => if w.calls && c.isHint then Script.without cs else c.without :: Script.without cs

def ModuleSpec.without : ModuleSpec Command → ModuleSpec Command
  | ⟨id, key, script⟩ => ⟨id, key, Script.without script⟩

def ModuleSpec.withoutAll : List (ModuleSpec Command) → List (ModuleSpec Command)
  | [] => []
  | m :: ms => m.without :: ModuleSpec.withoutAll ms

def DeliverySpec.without : DeliverySpec Command → DeliverySpec Command
  | ⟨chunks, modules, entries, prefetch⟩ =>
    ⟨chunks, ModuleSpec.withoutAll modules, entries, if w.lists then [] else prefetch⟩

def ExtensionSpec.without : ExtensionSpec Command → ExtensionSpec Command
  | .tap name describes script => .tap name describes (Script.without script)
  | .bootstrap name => .bootstrap name

def ExtensionSpec.without? : Option (ExtensionSpec Command) → Option (ExtensionSpec Command)
  | none => none
  | some spec => some spec.without

end

end

/-! ## Stores -/

/-- A state with `hintOnly` read as `notRequested`. -/
def ChunkState.unhinted : ChunkState → ChunkState
  | .hintOnly => .notRequested
  | s => s

namespace Store

/-- Two stores are alike if only hints tell them apart. -/
structure Alike (s t : Store) : Prop where
  state : ∀ c, (t.state c).unhinted = (s.state c).unhinted
  factories : t.factories = s.factories
  attempts : t.attempts = s.attempts
  refusals : t.refusals = s.refusals

namespace Alike

variable {s t u : Store} {c : ChunkId}

theorem refl (s : Store) : s.Alike s := ⟨fun _ => rfl, rfl, rfl, rfl⟩

theorem symm (alike : s.Alike t) : t.Alike s :=
  ⟨fun c => (alike.state c).symm, alike.factories.symm, alike.attempts.symm, alike.refusals.symm⟩

theorem trans (alike : s.Alike t) (alike' : t.Alike u) : s.Alike u :=
  ⟨fun c => (alike'.state c).trans (alike.state c), alike'.factories.trans alike.factories,
    alike'.attempts.trans alike.attempts, alike'.refusals.trans alike.refusals⟩

/-- A state that is no matter of hints is the same in both. -/
theorem state_iff (alike : s.Alike t) (x : ChunkState) (plain : x.isIdle = false) :
    t.state c = x ↔ s.state c = x := by
  have same := alike.state c
  constructor
  · intro state
    rw [state] at same
    revert same
    cases x <;> cases s.state c <;> simp_all [ChunkState.unhinted, ChunkState.isIdle]
  · intro state
    rw [state] at same
    revert same
    cases x <;> cases t.state c <;> simp_all [ChunkState.unhinted, ChunkState.isIdle]

/-- A chunk that is loaded in one store is loaded in the other. -/
theorem isLoaded (alike : s.Alike t) : t.isLoaded = s.isLoaded := by
  funext c
  have same := alike.state_iff (c := c) .loaded rfl
  simp only [Store.isLoaded, same]

/-- Modules have the same factories. -/
theorem factory? (alike : s.Alike t) (m : ModuleId) : t.factory? m = s.factory? m := by
  unfold Store.factory?
  rw [alike.factories]

/-- A state that is assigned is the same in both stores. -/
theorem assign (alike : s.Alike t) (c : ChunkId) (next : ChunkState) :
    (s.assign c next).Alike (t.assign c next) where
  state c' := by
    simp only [state_assign]
    split
    · rfl
    · exact alike.state c'
  factories := alike.factories
  attempts := alike.attempts
  refusals := alike.refusals

/-- A hint tells a store from what it was only as a hint. -/
theorem markHinted (s : Store) (c : ChunkId) : s.Alike (s.markHinted c).2 := by
  rw [markHinted_eq]
  split
  · rename_i idle
    refine ⟨fun c' => ?_, rfl, rfl, rfl⟩
    rw [state_assign]
    split
    · rename_i same
      rw [← same, idle]
      rfl
    · rfl
  · exact refl s

/-- No step but a hint depends on hints. -/
theorem become (alike : s.Alike t) (c : ChunkId) (next : ChunkState) (other : next ≠ .hintOnly) :
    (t.become c next).1 = (s.become c next).1 ∧
      (s.become c next).2.Alike (t.become c next).2 := by
  have blind (x : ChunkState) : x.unhinted.canBecome next = x.canBecome next := by
    cases x <;> cases next <;> first | rfl | exact absurd rfl other
  have can : (t.state c).canBecome next = (s.state c).canBecome next := by
    rw [← blind (t.state c), alike.state, blind]
  unfold Store.become
  rw [can]
  split
  · exact ⟨rfl, alike.assign c next⟩
  · exact ⟨rfl, alike.state, alike.factories, alike.attempts, congrArg (· + 1) alike.refusals⟩

/-- Only a state that is no matter of hints keeps a chunk from being fetched. -/
theorem beginLoad_unhinted (s : Store) (c : ChunkId) : s.beginLoad c =
    match (s.state c).unhinted with
    | .loaded => (.ready, s)
    | .loading n => (.attached n, s)
    | _ =>
      match { s with attempts := s.attempts + 1 }.become c (.loading (s.attempts + 1)) with
      | (true, s) => (.started s.attempts, s)
      | (false, s) => (.ready, s) := by
  unfold Store.beginLoad
  cases s.state c <;> rfl

/-- An attempt to load begins in the same way: a hinted chunk is loaded like one that nobody asked for. -/
theorem beginLoad (alike : s.Alike t) (c : ChunkId) : (t.beginLoad c).1 = (s.beginLoad c).1 ∧
    (s.beginLoad c).2.Alike (t.beginLoad c).2 := by
  -- What happens depends on the states up to hints, which are the same.
  rw [beginLoad_unhinted s, beginLoad_unhinted t, alike.state]
  have counted : ({ s with attempts := s.attempts + 1 } : Store).Alike
      { t with attempts := t.attempts + 1 } :=
    ⟨alike.state, alike.factories, congrArg (· + 1) alike.attempts, alike.refusals⟩
  obtain ⟨flag, after⟩ := counted.become c (.loading (s.attempts + 1)) (by simp)
  split
  · exact ⟨rfl, alike⟩
  · exact ⟨rfl, alike⟩
  · -- Whether the chunk was hinted or not, it is fetched now.
    rw [alike.attempts] at flag after ⊢
    cases begun : ({ s with attempts := s.attempts + 1 } : Store).become c (.loading (s.attempts + 1))
    cases begun' : ({ t with attempts := s.attempts + 1 } : Store).become c (.loading (s.attempts + 1))
    rw [begun, begun'] at flag after
    obtain rfl := flag
    split
    · rename_i same
      obtain ⟨rfl, rfl⟩ := Prod.mk.inj same
      exact ⟨congrArg Begin.started after.attempts, after⟩
    · rename_i same
      obtain ⟨rfl, rfl⟩ := Prod.mk.inj same
      exact ⟨rfl, after⟩

/-- Marking a chunk as loaded does not tell a hinted one from one that nobody asked for. -/
theorem markLoaded_unhinted (s : Store) (c : ChunkId) : s.markLoaded c =
    if s.isLoaded c then (none, s)
    else
      match (s.state c).unhinted, s.become c .loaded with
      | .loading n, (true, s) => (some n, s)
      | _, (_, s) => (none, s) := by
  unfold Store.markLoaded
  cases s.state c <;> rfl

/-- A chunk is marked as loaded in both, and ends the same attempt. -/
theorem markLoaded (alike : s.Alike t) (c : ChunkId) : (t.markLoaded c).1 = (s.markLoaded c).1 ∧
    (s.markLoaded c).2.Alike (t.markLoaded c).2 := by
  obtain ⟨flag, after⟩ := alike.become c .loaded (by simp)
  rw [markLoaded_unhinted s, markLoaded_unhinted t, alike.isLoaded, alike.state]
  split
  · exact ⟨rfl, alike⟩
  · cases begun : s.become c .loaded
    cases begun' : t.become c .loaded
    rw [begun, begun'] at flag after
    obtain rfl := flag
    generalize (s.state c).unhinted = x
    cases x with
    | loading n => split <;> simp_all
    | _ => exact ⟨rfl, after⟩

/-- An attempt fails in both or in none. -/
theorem fail (alike : s.Alike t) (c : ChunkId) (n : Attempt) : (t.fail c n).1 = (s.fail c n).1 ∧
    (s.fail c n).2.Alike (t.fail c n).2 := by
  rw [fail_eq, fail_eq]
  by_cases loading : s.state c = .loading n
  · rw [if_pos loading, if_pos ((alike.state_iff (.loading n) rfl).mpr loading)]
    exact ⟨rfl, (alike.assign c .failed).assign c .notRequested⟩
  · rw [if_neg loading, if_neg fun state => loading ((alike.state_iff (.loading n) rfl).mp state)]
    exact ⟨rfl, alike⟩

/-- A factory is registered in both, and clashes in both or in none. -/
theorem register (alike : s.Alike t) (m : ModuleId) (f : FactoryId) :
    (t.register m f).1 = (s.register m f).1 ∧ (s.register m f).2.Alike (t.register m f).2 := by
  unfold Store.register
  rw [alike.factory?]
  split
  · exact ⟨rfl, alike.state, congrArg (·.set m f) alike.factories, alike.attempts, alike.refusals⟩
  · exact ⟨rfl, alike⟩

/-- The chunks of a delivery are marked in both, and end the same attempts. -/
theorem markAll (alike : s.Alike t) (cs : List ChunkId) : (t.markAll cs).1 = (s.markAll cs).1 ∧
    (s.markAll cs).2.Alike (t.markAll cs).2 := by
  induction cs generalizing s t with
  | nil => exact ⟨rfl, alike⟩
  | cons c cs ih =>
    obtain ⟨ended, after⟩ := alike.markLoaded c
    obtain ⟨rest, after⟩ := ih after
    rw [markAll_cons, markAll_cons, ended, rest]
    exact ⟨rfl, after⟩

/-- The factories of a delivery are registered in both, with the same clashes. -/
theorem registerAll (alike : s.Alike t) (fs : List (ModuleId × FactoryId)) :
    (t.registerAll fs).1 = (s.registerAll fs).1 ∧
      (s.registerAll fs).2.Alike (t.registerAll fs).2 := by
  induction fs generalizing s t with
  | nil => exact ⟨rfl, alike⟩
  | cons x fs ih =>
    obtain ⟨outcome, after⟩ := alike.register x.1 x.2
    obtain ⟨rest, after⟩ := ih after
    rw [registerAll_cons, registerAll_cons, outcome, rest]
    exact ⟨rfl, after⟩

/-- **A delivery does the same to stores that only hints tell apart,** and its own prefetch list does
not matter. -/
theorem merge (alike : s.Alike t) (w : Erasure) (d : Delivery) :
    t.merge (d.without w) = { s.merge d with store := (t.merge (d.without w)).store } ∧
      (s.merge d).store.Alike (t.merge (d.without w)).store := by
  obtain ⟨waiting, marked⟩ := alike.markAll d.chunks
  obtain ⟨clashes, merged⟩ := marked.registerAll d.modules
  refine ⟨?_, merged⟩
  show Merged.mk _ _ _ _ = Merged.mk _ _ _ _
  congr 1
  · show (d.chunks.filter (!t.isLoaded ·)).eraseDups = (d.chunks.filter (!s.isLoaded ·)).eraseDups
    rw [alike.isLoaded]
  · show (if d.chunks.all t.isLoaded then [] else ((t.markAll d.chunks).2.registerAll d.modules).1) =
      if d.chunks.all s.isLoaded then [] else ((s.markAll d.chunks).2.registerAll d.modules).1
    rw [alike.isLoaded, clashes]

end Alike

end Store

/-! ## Runtimes -/

/-- A runtime is like another one without hints: only hints tell their stores apart. -/
structure Runtime.Alike (w : Erasure) (rt rt' : Runtime) : Prop where
  store : rt.store.Alike rt'.store
  frame : rt' = { rt.without w with store := rt'.store }

/-- A runtime is alike to itself without hints. -/
theorem Runtime.alike_without (w : Erasure) (rt : Runtime) : rt.Alike w (rt.without w) :=
  ⟨.refl rt.store, rfl⟩

/-! ## Logs -/

def Event.isHint : Event → Bool
  | .hinted .. => true
  | _ => false

/-- An event without what only hints tell: hints, answers and descriptions are left out, and deliveries
have no prefetch lists. -/
def Event.unhinted? : Event → Option Event
  | .hinted .. | .answered _ | .described _ => none
  | .merged r d => some (.merged r { d with prefetch := [] })
  | .tapped name d => some (.tapped name { d with prefetch := [] })
  | e => some e

/-- What a log tells apart from hints is the same in both, and the second one has no hints if everything
is erased. -/
structure Log.Alike (w : Erasure) (es es' : List Event) : Prop where
  visible : es'.filterMap Event.unhinted? = es.filterMap Event.unhinted?
  mute : w.everything → es'.any Event.isHint = false

/-- Events that happen on alike pages are put on alike logs. -/
theorem Log.Alike.append {w : Erasure} {es es' fs fs' : List Event} (alike : Log.Alike w es es')
    (alike' : Log.Alike w fs fs') : Log.Alike w (es.reverse ++ fs) (es'.reverse ++ fs') where
  visible := by
    rw [List.filterMap_append, List.filterMap_append, List.filterMap_reverse, List.filterMap_reverse,
      alike.visible, alike'.visible]
  mute everything := by
    rw [List.any_append, List.any_reverse, alike.mute everything, alike'.mute everything]
    rfl

end ChunkLoading
