import ChunkLoading.Proofs.Updates
import ChunkLoading.Proofs.Watch

/-!
# What moves do about extensions

A move shows one delivery to one extension, or calls for such a showing, or tells a bootstrap something
else, or makes extensions and sets them (`Page.Sight`). So every page of a run is sound.
-/

namespace ChunkLoading

/-- A delivery that is to be shown to an extension: by a runtime that merges it, or by somebody else. -/
structure Notice where
  source : Option RuntimeId
  extension : ExtensionId
  delivery : Delivery
  deriving DecidableEq

namespace Page

variable {p : Page} {r : RuntimeId}

/-- The showings that a task calls for: a runtime that merges a delivery shows it to its extension, and somebody
may show one to a bootstrap. -/
def notifies (p : Page) : Task → List Notice
  | .merge r d => (p.runtime r).extension.toList.map (⟨some r, ·, d⟩)
  | .perform (.observe hot spec) _ =>
    (p.bootstrap? hot).toList.map (⟨none, ·.1, (p.addDelivery spec).1⟩)
  | _ => []

/-- The showing that a move does. -/
def showings (p : Page) : Move → List (ExtensionId × Delivery)
  | .task =>
    match p.agenda with
    | [] => []
    | t :: _ => t.shows
  | .call .. | .poll .. => []

/-- The showing that a move calls for. -/
def notices (p : Page) : Move → List Notice
  | .task =>
    match p.agenda with
    | [] => []
    | t :: _ => p.rest.notifies t
  | .call .. | .poll .. => []

/-- The bootstrap whose update a move ends. -/
def finishes? (p : Page) : Move → Option ExtensionId
  | .task =>
    match p.agenda with
    | .perform (.finish hot next _) _ :: _ =>
      (p.bootstrap? hot).bind fun (x, b) => if (b.finish? next).isSome then some x else none
    | _ => none
  | .call .. | .poll .. => none

/-- What a move does about extensions. -/
inductive Sight (p : Page) (m : Move) : Prop where
  /-- A delivery is shown. -/
  | shown (x : ExtensionId) (d : Delivery) (coming : List (ExtensionId × Delivery))
      (pending : p.watch.coming = (x, d) :: coming) (showings : p.showings m = [(x, d)])
      (notices : p.notices m = []) (watch : (p.make m).watch = { p.watch with coming := coming }.deliver x d)
  /-- A showing is called for. -/
  | noticed (n : Notice) (showings : p.showings m = []) (notices : p.notices m = [n])
      (known : (∃ r, p.watch.installed r = some n.extension) ∨
        ∃ name, p.watch.bootstraps.get? name = some n.extension)
      (watch : (p.make m).watch =
        { p.watch with coming := (n.extension, n.delivery) :: p.watch.coming })
  /-- A bootstrap is told something else than a delivery. -/
  | told (x : ExtensionId) (b b' : Bootstrap) (showings : p.showings m = []) (notices : p.notices m = [])
      (found : p.watch.extensions[x]? = some (.bootstrap b)) (previous : b'.previous = b.previous)
      (loaded : p.finishes? m = some x ∨ b'.loaded = b.loaded)
      (watch : (p.make m).watch =
        { p.watch with extensions := p.watch.extensions.set x (.bootstrap b') })
  /-- Extensions are made, named or set, or nothing happens to them. -/
  | grown (showings : p.showings m = []) (notices : p.notices m = [])
      (grows : p.watch.Grows (p.make m).watch)

/-! ## Commands -/

variable {m : Move}

/-- The showing of the task at hand. -/
theorem showings_task {t : Task} {ts : List Task} (agenda : p.agenda = t :: ts) :
    p.showings .task = t.shows := by simp [showings, agenda]

/-- The showings that the task at hand calls for. -/
theorem notices_task {t : Task} {ts : List Task} (agenda : p.agenda = t :: ts) :
    p.notices .task = p.rest.notifies t := by simp [notices, agenda]

/-- The bootstrap of a name is the extension that goes by that name, if it is a bootstrap. -/
theorem bootstrap?_eq_some {hot : String} {x : ExtensionId} {b : Bootstrap} : p.bootstrap? hot = some (x, b) ↔
    p.bootstraps.get? hot = some x ∧ p.extensions[x]? = some (.bootstrap b) := by
  unfold bootstrap?
  cases named : p.bootstraps.get? hot with
  | none => simp
  | some y =>
    simp only [bind, Option.bind]
    split
    · rename_i b' found
      simp only [Option.some.injEq, Prod.mk.injEq]
      constructor
      · rintro ⟨rfl, rfl⟩
        exact ⟨rfl, found⟩
      · rintro ⟨rfl, found'⟩
        rw [found] at found'
        exact ⟨rfl, Extension.bootstrap.inj (Option.some.inj found')⟩
    · rename_i none
      simp only [reduceCtorEq, Option.some.injEq, false_iff, not_and]
      rintro rfl found
      exact none b found

/-- What is told to the bootstrap of a name is told to nothing if there is none. -/
theorem withBootstrap_eq (p : Page) (nested : Bool) (hot : String) (act : ExtensionId → Bootstrap → Page) :
    (∃ x b, p.bootstrap? hot = some (x, b) ∧ p.withBootstrap nested hot act = act x b) ∨
      p.bootstrap? hot = none ∧
        p.withBootstrap nested hot act = p.answerWith nested (.failed (.noBootstrap hot)) := by
  unfold withBootstrap
  cases p.bootstrap? hot with
  | none => exact .inr ⟨rfl, rfl⟩
  | some xb => exact .inl ⟨xb.1, xb.2, rfl, rfl⟩

section

variable {command : Command} {nested : Bool} {ts : List Task}
  (agenda : p.agenda = .perform command nested :: ts) (other : ∀ hot spec, command ≠ .observe hot spec)

include agenda other

/-- Only one command calls for a showing. -/
theorem notices_perform : p.notices .task = [] := by
  rw [notices_task agenda]
  cases command <;> first | exact absurd rfl (other _ _) | rfl

/-- A command that makes, names or sets extensions, or has nothing to do with them. -/
theorem sight_grown (grows : p.rest.watch.Grows (p.rest.perform nested command).watch) : p.Sight .task := by
  have made : p.make .task = p.rest.perform nested command := make_task agenda
  refine .grown (showings_task agenda) (notices_perform agenda other) ?_
  rwa [made, ← watch_rest_beside agenda rfl]

/-- A command that changes a bootstrap, if there is one of the name. -/
theorem sight_told (sound : p.watch.Sound) {hot : String} {act : ExtensionId → Bootstrap → Page} {q : Page}
    (same : q.watch = p.rest.watch) (performs : p.rest.perform nested command = q.withBootstrap nested hot act)
    (acts : ∀ x b, q.bootstrap? hot = some (x, b) → (act x b).watch = q.watch ∨
      ∃ b', (act x b).watch = (q.setBootstrap x b').watch ∧ b'.previous = b.previous ∧
        (p.finishes? .task = some x ∨ b'.loaded = b.loaded)) : p.Sight .task := by
  have made : p.make .task = p.rest.perform nested command := make_task agenda
  have kept : p.rest.watch = p.watch := watch_rest_beside agenda rfl
  have still (unchanged : (q.withBootstrap nested hot act).watch = q.watch) : p.Sight .task := by
    refine sight_grown agenda other ?_
    rw [performs, unchanged, same]
    exact (kept ▸ sound).grows
  rcases q.withBootstrap_eq nested hot act with ⟨x, b, found, eq⟩ | ⟨-, eq⟩
  · rcases acts x b found with unchanged | ⟨b', changed, previous, loaded⟩
    · exact still (by rw [eq, unchanged])
    · refine .told x b b' (showings_task agenda) (notices_perform agenda other) ?_ previous loaded ?_
      · rw [← kept, ← same]
        exact (bootstrap?_eq_some.mp found).2
      · rw [made, performs, eq, changed, watch_setBootstrap, same, kept]
  · exact still (by rw [eq, farView_watch.answerWith])

end

/-- What the commands do about extensions: they make some, they call for a showing, or they tell a bootstrap
something. -/
theorem sight_perform (sound : p.watch.Sound) {command : Command} {nested : Bool} {ts : List Task}
    (agenda : p.agenda = .perform command nested :: ts) : p.Sight .task := by
  have kept : p.rest.watch = p.watch := watch_rest_beside agenda rfl
  have sound' := kept ▸ sound
  have still (other : ∀ hot spec, command ≠ .observe hot spec)
      (same : (p.rest.perform nested command).watch = p.rest.watch) : p.Sight .task :=
    sight_grown agenda other (same ▸ sound'.grows)
  have answered (a : Answer) : p.rest.watch.Grows (p.rest.answerWith nested a).watch := by
    rw [farView_watch.answerWith]
    exact sound'.grows
  -- Most commands have nothing to do with extensions.
  by_cases inner : command.isInner
  · refine still ?_ (farView_watch.perform inner nested)
    rintro hot spec rfl
    cases inner
  cases command with
  | create name plan extension =>
    -- A runtime may come with an extension of its own.
    refine sight_grown agenda (by simp) ?_
    simp only [perform]
    split
    · rename_i made
      rw [farView_watch.answerWith]
      exact grows_addRuntime sound' made
    · exact answered _
  | install name queue =>
    refine still (by simp) (farView_watch.withRuntime fun r => ?_)
    exact (watch_install ..).trans (farView_watch.call (by simp [Task.isInner]))
  | push queue spec =>
    exact still (by simp) ((watch_push ..).trans ((farView_watch.answerWith ..).trans (watch_addDelivery ..)))
  | ensure name c label => exact still (by simp) (farView_watch.withRuntime fun r => farView_watch.ask ..)
  | setExtension name spec =>
    -- The extension of a runtime is cleared, or a new one is made and set.
    refine sight_grown agenda (by simp) ?_
    cases spec with
    | none =>
      simp only [perform, withRuntime]
      split
      · rw [farView_watch.answerWith]
        exact grows_setExtension sound' (by simp) _
      · exact answered _
    | some spec =>
      simp only [perform, withRuntime]
      split
      · split
        · rename_i added
          obtain ⟨grows, inRange⟩ := grows_addExtension sound' added
          rw [farView_watch.answerWith]
          refine grows.trans (grows_setExtension grows.sound (fun x same => ?_) _)
          rwa [← Option.some.inj same]
        · exact answered _
      · exact answered _
  | createBootstrap hot plan previous =>
    exact sight_grown agenda (by simp) (grows_createBootstrap sound' ..)
  | observe hot spec =>
    -- This is the command that calls for a showing, if the name stands for a bootstrap; in any case the modules of
    -- the delivery are made known first.
    have made : p.make .task = p.rest.perform nested (.observe hot spec) := make_task agenda
    let q := (p.rest.addDelivery spec).2
    have same : q.watch = p.watch := (watch_addDelivery ..).trans kept
    have found : q.bootstrap? hot = p.bootstrap? hot := bootstrap?_addModules ..
    have performs : p.make .task = q.withBootstrap nested hot fun x _ =>
        (q.answerWith nested .done).call [.observe x (p.rest.addDelivery spec).1] := made
    have notices : p.notices .task = (p.bootstrap? hot).toList.map
        (⟨none, ·.1, (p.rest.addDelivery spec).1⟩) := notices_task agenda
    rcases q.withBootstrap_eq nested hot fun x _ =>
      (q.answerWith nested .done).call [.observe x (p.rest.addDelivery spec).1] with
      ⟨x, b, named, eq⟩ | ⟨unnamed, eq⟩
    · rw [found] at named
      rw [named] at notices
      refine .noticed ⟨none, x, (p.rest.addDelivery spec).1⟩ (showings_task agenda) notices
        (.inr ⟨hot, (bootstrap?_eq_some.mp named).1⟩) ?_
      rw [performs, eq, watch_call, farView_watch.answerWith, same]
      rfl
    · rw [found] at unnamed
      rw [unnamed] at notices
      refine .grown (showings_task agenda) notices ?_
      rw [performs, eq, farView_watch.answerWith, same]
      exact sound.grows
  | applyManifest hot manifest =>
    -- A manifest begins an update, unless it cannot be read or an address cannot be made.
    refine sight_told agenda (by simp) sound rfl rfl fun x b found => ?_
    split
    · rename_i addresses b' applied
      obtain ⟨m, -, applied⟩ := Bootstrap.applyText_eq_ok.mp applied
      obtain ⟨as, -, -, rfl⟩ := Bootstrap.apply_eq_ok.mp applied
      exact .inr ⟨_, farView_watch.answerWith .., rfl, .inr rfl⟩
    · exact .inl (farView_watch.answerWith ..)
    · exact .inl (farView_watch.answerWith ..)
  | receive hot c modules =>
    -- An updated chunk is taken in by the update under way, or ignored; its modules are made known in any case.
    refine sight_told agenda (by simp) sound (watch_addModules ..) rfl fun x b found => ?_
    refine .inr ⟨_, farView_watch.answerWith .., ?_, .inr ?_⟩ <;> unfold Bootstrap.receive <;> split <;> rfl
  | finish hot next runOn =>
    -- An update that ends is the only thing that takes chunks from those that a bootstrap has loaded.
    refine sight_told agenda (by simp) sound rfl rfl fun x b found => ?_
    rw [farView_watch.finishUpdate]
    cases finished : b.finish? next with
    | none => exact .inl rfl
    | some done =>
      obtain ⟨u, b'⟩ := done
      obtain ⟨-, -, rfl⟩ := Bootstrap.finish?_eq_some.mp finished
      have found : p.bootstrap? hot = some (x, b) := found
      exact .inr ⟨_, rfl, rfl, .inl (by simp [finishes?, agenda, found, finished])⟩
  | _ => exact absurd rfl inner

/-- **What a move does about extensions** is one of the listed things. -/
theorem sight (sound : p.watch.Sound) (m : Move) : p.Sight m := by
  have called {ts : List Task} (inner : ∀ t ∈ ts, t.isInner) : p.watch.Grows (p.call ts).watch := by
    rw [farView_watch.call inner]
    exact sound.grows
  cases m with
  | call command nested => exact .grown rfl rfl (called (by simp [Task.isInner]))
  | poll next => exact .grown rfl rfl (called (by simp [Task.isInner]))
  | task =>
    cases agenda : p.agenda with
    | nil =>
      have still : p.make .task = p := by simp [make, step, agenda]
      refine .grown (by simp [showings, agenda]) (by simp [notices, agenda]) ?_
      rw [still]
      exact sound.grows
    | cons t ts =>
      have made := make_task agenda
      -- A task that shows nothing and calls for no showing is out of sight.
      have far (beside : t.shows = []) (quiet : p.rest.notifies t = [])
          (same : (p.rest.act t).watch = p.rest.watch) : p.Sight .task := by
        refine .grown ((showings_task agenda).trans beside) ((notices_task agenda).trans quiet) ?_
        rw [made, same, watch_rest_beside agenda beside]
        exact sound.grows
      cases t with
      | perform command nested => exact sight_perform sound agenda
      | merge r d =>
        have watch : (p.make .task).watch = _ := (congrArg Page.watch made).trans (watch_merge ..)
        have notices : p.notices .task = (p.watch.installed r).toList.map (⟨some r, ·, d⟩) :=
          notices_task agenda
        rw [watch_rest_beside agenda rfl] at watch
        -- A merge shows its delivery to the extension of the runtime, if it has one.
        cases installed : p.watch.installed r with
        | none =>
          rw [installed] at watch notices
          refine .grown (showings_task agenda) notices ?_
          rw [watch]
          exact sound.grows
        | some x =>
          rw [installed] at watch notices
          exact .noticed ⟨r, x, d⟩ (showings_task agenda) notices (.inl ⟨r, installed⟩) watch
      | observe x d =>
        -- The showing at hand is the one that comes first.
        refine .shown x d (ts.flatMap Task.shows) ?_ (showings_task agenda) (notices_task agenda) ?_
        · simp [watch, agenda, Task.shows]
        · rw [made]
          exact (watch_observe ..).trans (by rw [watch_rest agenda])
      | _ => exact far rfl rfl (farView_watch.actFar (by simp) (by simp) (by simp))

/-- Whatever a move does about extensions, references to them stay sound. -/
theorem Sight.sound (sight : p.Sight m) (sound : p.watch.Sound) : (p.make m).watch.Sound := by
  cases sight with
  | shown x d coming pending showings notices watch =>
    rw [watch]
    refine Watch.Sound.deliver (sound.setComing fun y d' member => ?_) x d
    exact sound.coming (pending ▸ List.mem_cons_of_mem _ member)
  | noticed n showings notices known watch =>
    rw [watch]
    refine sound.setComing fun y d' member => ?_
    rcases List.mem_cons.mp member with first | member
    · obtain ⟨rfl, rfl⟩ := Prod.mk.inj first
      rcases known with ⟨r, installed⟩ | ⟨name, named⟩
      · exact sound.installed installed
      · exact sound.named named
    · exact sound.coming member
  | told x b b' showings notices found previous loaded watch =>
    rw [watch]
    exact sound.set found previous
  | grown showings notices grows => exact grows.sound

/-- A fresh page has no extensions, and nothing that refers to one. -/
theorem watched_fresh (onInject onHint : List (ChunkId × Script)) : (fresh onInject onHint).watch.Sound := by
  refine ⟨fun {x y b} found _ => ?_, fun named => ?_, fun {r x} installed => ?_, fun coming => ?_⟩
  · simp [watch, fresh] at found
  · simp [watch, fresh, Assoc.empty, Assoc.get?, Assoc.find] at named
  · simp [watch, fresh, runtime, noRuntime] at installed
  · simp [watch, fresh] at coming

/-- References to extensions are sound on every page of a run. -/
theorem Reachable.watched (h : p.Reachable) : p.watch.Sound := by
  induction h with
  | fresh onInject onHint => exact watched_fresh onInject onHint
  | make m h ih => exact (sight ih m).sound ih

theorem Reachable.sight (h : p.Reachable) (m : Move) : p.Sight m := Page.sight h.watched m

end Page

end ChunkLoading
