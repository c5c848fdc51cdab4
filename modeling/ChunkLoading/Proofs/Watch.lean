import ChunkLoading.Proofs.Turn
import ChunkLoading.Proofs.Views

/-!
# Watching deliveries

What a page has of extensions: which ones there are, which runtimes have one, what is still to be shown to
them, and what taps reported (`Watch`). Whatever refers to an extension refers to one that is there, and
deliveries are passed on to older extensions only (`Watch.Sound`).
-/

namespace ChunkLoading

/-- The showing that a task does. -/
def Task.shows : Task → List (ExtensionId × Delivery)
  | .observe x d => [(x, d)]
  | _ => []

/-- The delivery that a tap reported, under the name of the tap. -/
def Event.tap? : Event → Option (String × Delivery)
  | .tapped name d => some (name, d)
  | _ => none

@[ext] structure Watch where
  extensions : List Extension
  /-- The bootstraps that go by names. -/
  bootstraps : Assoc String ExtensionId
  /-- The extension of a runtime. -/
  installed : RuntimeId → Option ExtensionId
  /-- What is still to be shown, the next showing first. -/
  coming : List (ExtensionId × Delivery)
  /-- What taps reported, the latest first. -/
  tapped : List (String × Delivery)

namespace Watch

/-- A delivery is shown: a tap reports it, and a bootstrap notes its chunks and passes it on. -/
def deliver (w : Watch) (x : ExtensionId) (d : Delivery) : Watch :=
  match w.extensions[x]? with
  | none => w
  | some (.tap name _ _) => { w with tapped := (name, d) :: w.tapped }
  | some (.bootstrap b) =>
    { w with
      extensions := w.extensions.set x (.bootstrap (b.noteLoaded d.chunks))
      coming := b.previous.toList.map (·, d) ++ w.coming }

/-- Whatever refers to an extension refers to one that is there, and an extension to an older one. -/
structure Sound (w : Watch) : Prop where
  older : ∀ {x y : ExtensionId} {b : Bootstrap}, w.extensions[x]? = some (.bootstrap b) →
    b.previous = some y → y < x
  named : ∀ {name x}, w.bootstraps.get? name = some x → x < w.extensions.length
  installed : ∀ {r x}, w.installed r = some x → x < w.extensions.length
  coming : ∀ {x d}, (x, d) ∈ w.coming → x < w.extensions.length

/-- Extensions are made, named and set. -/
structure Grows (w w' : Watch) : Prop where
  extensions : w.extensions <+: w'.extensions
  sound : w'.Sound
  coming : w'.coming = w.coming
  tapped : w'.tapped = w.tapped

variable {w w' w'' : Watch}

/-- Nothing need be made at all. -/
theorem Sound.grows (sound : w.Sound) : w.Grows w := ⟨List.prefix_refl _, sound, rfl, rfl⟩

theorem Grows.trans (grows : w.Grows w') (grows' : w'.Grows w'') : w.Grows w'' where
  extensions := grows.extensions.trans grows'.extensions
  sound := grows'.sound
  coming := grows'.coming.trans grows.coming
  tapped := grows'.tapped.trans grows.tapped

/-- An extension may be made if it passes deliveries on to one that is there. -/
theorem Sound.append (sound : w.Sound) {e : Extension}
    (older : ∀ b y, e = .bootstrap b → b.previous = some y → y < w.extensions.length) :
    w.Grows { w with extensions := w.extensions ++ [e] } where
  extensions := List.prefix_append _ _
  sound := by
    have more {x : ExtensionId} (old : x < w.extensions.length) : x < (w.extensions ++ [e]).length := by
      rw [List.length_append]
      exact Nat.lt_add_right _ old
    refine ⟨fun {x y b} found previous => ?_, fun named => more (sound.named named),
      fun installed => more (sound.installed installed), fun coming => more (sound.coming coming)⟩
    -- Only the new extension is to be looked at.
    by_cases old : x < w.extensions.length
    · rw [List.getElem?_append_left old] at found
      exact sound.older found previous
    · rw [List.getElem?_append_right (Nat.le_of_not_lt old)] at found
      have newest : e = .bootstrap b := (List.mem_singleton.mp (List.mem_of_getElem? found)).symm
      exact Nat.lt_of_lt_of_le (older b y newest previous) (Nat.le_of_not_lt old)
  coming := rfl
  tapped := rfl

/-- An extension that is there may get the name of a bootstrap. -/
theorem Sound.name (sound : w.Sound) (name : String) {x : ExtensionId} (inRange : x < w.extensions.length) :
    w.Grows { w with bootstraps := w.bootstraps.set name x } where
  extensions := List.prefix_refl _
  sound := by
    refine ⟨sound.older, fun {name' x'} named => ?_, sound.installed, sound.coming⟩
    rw [Assoc.get?_set] at named
    split at named
    · rwa [← Option.some.inj named]
    · exact sound.named named
  coming := rfl
  tapped := rfl

/-- Runtimes may get extensions that are there. -/
theorem Sound.install (sound : w.Sound) {installed : RuntimeId → Option ExtensionId}
    (inRange : ∀ r x, installed r = some x → x < w.extensions.length) :
    w.Grows { w with installed := installed } where
  extensions := List.prefix_refl _
  sound := ⟨sound.older, sound.named, inRange _ _, sound.coming⟩
  coming := rfl
  tapped := rfl

/-- A bootstrap may be changed if it goes on passing deliveries to the same extension. -/
theorem Sound.set (sound : w.Sound) {x : ExtensionId} {b b' : Bootstrap}
    (found : w.extensions[x]? = some (.bootstrap b)) (previous : b'.previous = b.previous) :
    ({ w with extensions := w.extensions.set x (.bootstrap b') } : Watch).Sound := by
  have same : (w.extensions.set x (.bootstrap b')).length = w.extensions.length := List.length_set
  refine ⟨fun {x' y c} found' before => ?_, fun named => ?_, fun installed => ?_, fun coming => ?_⟩
  · rw [List.getElem?_set] at found'
    split at found'
    · rename_i own
      subst own
      split at found'
      · obtain rfl := Extension.bootstrap.inj (Option.some.inj found')
        exact sound.older found (previous.symm.trans before)
      · cases found'
    · exact sound.older found' before
  · exact Nat.lt_of_lt_of_eq (sound.named named) same.symm
  · exact Nat.lt_of_lt_of_eq (sound.installed installed) same.symm
  · exact Nat.lt_of_lt_of_eq (sound.coming coming) same.symm

/-- Extensions that are there may come next. -/
theorem Sound.setComing (sound : w.Sound) {coming : List (ExtensionId × Delivery)}
    (inRange : ∀ x d, (x, d) ∈ coming → x < w.extensions.length) :
    ({ w with coming := coming } : Watch).Sound :=
  ⟨sound.older, sound.named, sound.installed, inRange _ _⟩

/-- An extension that a delivery is passed on to is older. -/
theorem Sound.deliver (sound : w.Sound) (x : ExtensionId) (d : Delivery) : (w.deliver x d).Sound := by
  unfold Watch.deliver
  split
  · exact sound
  · exact ⟨sound.older, sound.named, sound.installed, sound.coming⟩
  · rename_i b found
    have noted : ({ w with extensions := w.extensions.set x (.bootstrap (b.noteLoaded d.chunks)) } : Watch).Sound :=
      sound.set found rfl
    refine noted.setComing fun y d' member => ?_
    rw [List.length_set]
    rcases List.mem_append.mp member with passed | coming
    · obtain ⟨y', previous, same⟩ := List.mem_map.mp passed
      obtain ⟨rfl, -⟩ := Prod.mk.inj same
      obtain ⟨inRange, -⟩ := List.getElem?_eq_some_iff.mp found
      exact Nat.lt_trans (sound.older found (Option.mem_toList.mp previous)) inRange
    · exact sound.coming coming

end Watch

namespace Page

variable {p : Page} {r : RuntimeId}

def watch (p : Page) : Watch where
  extensions := p.extensions
  bootstraps := p.bootstraps
  installed r := (p.runtime r).extension
  coming := p.agenda.flatMap Task.shows
  tapped := p.log.filterMap Event.tap?

/-! ## What leaves the watch alone -/

/-- Tasks that are called for show what they show before all else. -/
theorem watch_call (p : Page) (ts : List Task) : (p.call ts).watch =
    { p.watch with coming := ts.flatMap Task.shows ++ p.watch.coming } := by
  ext1 <;> simp [watch, call, runtime]

theorem watch_call_beside {ts : List Task} (beside : ∀ t ∈ ts, t.shows = []) :
    (p.call ts).watch = p.watch := by
  have coming : ts.flatMap Task.shows = [] := List.flatMap_eq_nil_iff.mpr beside
  simp [watch_call, coming]

/-- What taps reported last comes first. -/
theorem watch_note (p : Page) (es : List Event) : (p.note es).watch =
    { p.watch with tapped := (es.filterMap Event.tap?).reverse ++ p.watch.tapped } := by
  ext1 <;> simp [watch, note, runtime]

theorem watch_note_beside {es : List Event} (beside : ∀ e ∈ es, e.tap? = none) :
    (p.note es).watch = p.watch := by
  have tapped : es.filterMap Event.tap? = [] := List.filterMap_eq_nil_iff.mpr beside
  simp [watch_note, tapped]

/-- Of a runtime, only its extension is watched. -/
theorem watch_modifyRuntime {f : Runtime → Runtime} (kept : ∀ rt, (f rt).extension = rt.extension) :
    (p.modifyRuntime r f).watch = p.watch := by
  have installed : (p.modifyRuntime r f).watch.installed = p.watch.installed := by
    funext r'
    show ((p.modifyRuntime r f).runtime r').extension = (p.runtime r').extension
    rw [runtime_modifyRuntime]
    split
    · rename_i same
      rw [kept, same.1]
    · rfl
  exact Watch.ext rfl rfl installed rfl rfl

/-- The watch sees neither what goes on in runtimes nor what is asked of handlers and hosts. -/
theorem farView_watch : FarView watch where
  call inner := watch_call_beside fun t member => by
    have inner := inner t member
    cases t <;> first | rfl | cases inner
  note inner := watch_note_beside fun e member => by
    have inner := inner e member
    cases e <;> first | rfl | cases inner
  runtime kept := watch_modifyRuntime fun rt => (kept rt).2.2
  frame _ _ _ _ _ := rfl
  asks _ _ _ _ _ _ := rfl
  requests _ _ := rfl
  injected _ _ _ := rfl
  hinted _ _ _ _ _ _ _ := rfl

/-- Factories are not watched. -/
theorem watch_addModules (p : Page) (ms : List (ModuleSpec Command)) :
    (p.addModules ms).2.watch = p.watch := by
  rw [addModules_frame]
  rfl

theorem watch_addDelivery (p : Page) (d : DeliverySpec Command) : (p.addDelivery d).2.watch = p.watch :=
  p.watch_addModules d.modules

/-- Nor do they change which bootstrap a name stands for. -/
theorem bootstrap?_addModules (p : Page) (ms : List (ModuleSpec Command)) (hot : String) :
    (p.addModules ms).2.bootstrap? hot = p.bootstrap? hot := by
  rw [addModules_frame]
  rfl

/-- A new consumer is shown nothing until it merges. -/
theorem watch_install (p : Page) (r : RuntimeId) (queue : String) : (p.install r queue).watch = p.watch := by
  simp only [install]
  split
  · rfl
  · refine (watch_call_beside fun t member => ?_).trans rfl
    obtain ⟨d, -, rfl⟩ := List.mem_map.mp member
    rfl

/-- Nor is anybody shown a delivery when it is pushed. -/
theorem watch_push (p : Page) (queue : String) (d : Delivery) : (p.push queue d).watch = p.watch := by
  refine (watch_call_beside fun t member => ?_).trans rfl
  obtain ⟨r, -, rfl⟩ := List.mem_map.mp member
  rfl

/-! ## What changes the watch -/

/-- A bootstrap is changed where it is. -/
theorem watch_setBootstrap (p : Page) (x : ExtensionId) (b : Bootstrap) : (p.setBootstrap x b).watch =
    { p.watch with extensions := p.watch.extensions.set x (.bootstrap b) } := rfl

/-- A delivery that is passed on is shown next. -/
theorem shows_observe (x? : Option ExtensionId) (d : Delivery) :
    (x?.toList.map (Task.observe · d)).flatMap Task.shows = x?.toList.map (·, d) := by
  cases x? <;> rfl

/-- A merge shows its delivery to the extension of its runtime, if there is one. -/
theorem watch_merge (p : Page) (r : RuntimeId) (d : Delivery) : (p.merge r d).watch =
    { p.watch with coming := (p.watch.installed r).toList.map (·, d) ++ p.watch.coming } := by
  have loaded (cs : List ChunkId) : (cs.map (Event.loaded r ·)).filterMap Event.tap? = [] :=
    List.filterMap_eq_nil_iff.mpr fun e member => by
      obtain ⟨c, -, rfl⟩ := List.mem_map.mp member
      rfl
  have hints : (if (p.runtime r).prefetch then d.prefetch.map (Task.hint r · .prefetch)
      else []).flatMap Task.shows = [] := by
    split
    · exact List.flatMap_eq_nil_iff.mpr fun t member => by
        obtain ⟨c, -, rfl⟩ := List.mem_map.mp member
        rfl
    · rfl
  have observers : ((p.runtime r).extension.toList.map (Task.observe · d)).flatMap Task.shows =
      (p.watch.installed r).toList.map (·, d) := shows_observe ..
  simp only [merge]
  rw [watch_call, watch_note, farView_watch.setStore]
  simp [observers, hints, Event.tap?, Task.shows]

/-- To show a delivery is what `Watch.deliver` says, and what a tap calls back is watched later. -/
theorem watch_observe (p : Page) (x : ExtensionId) (d : Delivery) :
    (p.observe x d).watch = p.watch.deliver x d := by
  cases found : p.extensions[x]? with
  | none =>
    have seen : p.watch.extensions[x]? = none := found
    simp only [observe, Watch.deliver, found, seen]
  | some extension =>
    have seen : p.watch.extensions[x]? = some extension := found
    cases extension with
    | tap name describes script =>
      simp only [observe, Watch.deliver, found, seen]
      refine (farView_watch.callScript ..).trans ((watch_note ..).trans ?_)
      cases describes <;> simp [Event.tap?]
    | bootstrap b =>
      simp only [observe, Watch.deliver, found, seen]
      rw [watch_call, shows_observe]
      rfl

/-- A task that is taken off the agenda takes what it shows with it. -/
theorem watch_rest {t : Task} {ts : List Task} (agenda : p.agenda = t :: ts) :
    p.rest.watch = { p.watch with coming := ts.flatMap Task.shows } := by
  have coming : p.rest.agenda = ts := by simp [rest, agenda]
  ext1 <;> simp [watch, coming] <;> rfl

/-- Most tasks show nothing themselves. -/
theorem watch_rest_beside {t : Task} {ts : List Task} (agenda : p.agenda = t :: ts)
    (beside : t.shows = []) : p.rest.watch = p.watch := by
  have coming : p.watch.coming = ts.flatMap Task.shows := by simp [watch, agenda, beside]
  rw [watch_rest agenda, ← coming]

/-! ## What extensions are made -/

section

variable (sound : p.watch.Sound)

include sound

/-- An extension that is asked for is made, or is there by its name. -/
theorem grows_addExtension {p' : Page} {spec : ExtensionSpec Command} {x : ExtensionId}
    (added : p.addExtension spec = .ok (x, p')) :
    p.watch.Grows p'.watch ∧ x < p'.extensions.length := by
  cases spec with
  | tap name describes script =>
    obtain ⟨rfl, rfl⟩ := Prod.mk.inj (Except.ok.inj added)
    exact ⟨sound.append (e := .tap name describes script) (by simp), by simp⟩
  | bootstrap name =>
    simp only [addExtension] at added
    split at added
    · rename_i named
      obtain ⟨rfl, rfl⟩ := Prod.mk.inj (Except.ok.inj added)
      exact ⟨sound.grows, sound.named named⟩
    · cases added

/-- A bootstrap is made if it passes deliveries on to an extension that is there. -/
theorem grows_addBootstrap {b : Bootstrap} (older : ∀ y, b.previous = some y → y < p.extensions.length) :
    p.watch.Grows (p.addBootstrap b).2.watch ∧ (p.addBootstrap b).1 < (p.addBootstrap b).2.extensions.length := by
  refine ⟨sound.append (e := .bootstrap b) ?_, by simp [addBootstrap]⟩
  rintro b' y same previous
  obtain rfl := Extension.bootstrap.inj same
  exact older y previous

/-- The extension of a new runtime is made, if it has one. -/
theorem grows_newExtension {p' : Page} {b : Blueprint} {spec : Option (ExtensionSpec Command)}
    {x? : Option ExtensionId} (added : p.newExtension b spec = .ok (x?, p')) :
    p.watch.Grows p'.watch ∧ ∀ x, x? = some x → x < p'.extensions.length := by
  cases spec with
  | some spec =>
    simp only [newExtension] at added
    cases made : p.addExtension spec with
    | error e => simp [made, Except.map] at added
    | ok xp =>
      simp only [made, Except.map, Except.ok.injEq, Prod.mk.injEq] at added
      obtain ⟨rfl, rfl⟩ := added
      obtain ⟨grows, inRange⟩ := grows_addExtension sound made
      refine ⟨grows, fun x same => ?_⟩
      rwa [← Option.some.inj same]
  | none =>
    simp only [newExtension] at added
    split at added
    · rename_i boot _
      obtain ⟨rfl, rfl⟩ := Prod.mk.inj (Except.ok.inj added)
      obtain ⟨grows, inRange⟩ := grows_addBootstrap sound (b := { boot with previous := none }) (by simp)
      refine ⟨grows, fun x same => ?_⟩
      rwa [← Option.some.inj same]
    · obtain ⟨rfl, rfl⟩ := Prod.mk.inj (Except.ok.inj added)
      exact ⟨sound.grows, by simp⟩

/-- A new runtime comes with an extension that is there. -/
theorem grows_addRuntime {q : Page} {name : String} {plan : Except Failure Blueprint}
    {spec : Option (ExtensionSpec Command)} (made : p.addRuntime name plan spec = .ok q) :
    p.watch.Grows q.watch := by
  obtain ⟨b, x?, p', rt, -, added, built, rfl⟩ := addRuntime_eq_ok made
  obtain ⟨grows, inRange⟩ := grows_newExtension sound added
  have own : rt.extension = x? := by
    unfold Blueprint.build at built
    split at built
    · cases built
    · rw [← Except.ok.inj built]
  refine grows.trans (grows.sound.install fun r x installed => ?_)
  rw [runtime_append (p := p') rfl] at installed
  split at installed
  · exact inRange x (own.symm.trans installed)
  · exact grows.sound.installed installed

/-- A runtime gets an extension that is there, or none. -/
theorem grows_setExtension {x? : Option ExtensionId} (inRange : ∀ x, x? = some x → x < p.extensions.length)
    (r : RuntimeId) : p.watch.Grows (p.modifyRuntime r ({ · with extension := x? })).watch := by
  refine sound.install fun r' x installed => ?_
  rw [runtime_modifyRuntime] at installed
  split at installed
  · exact inRange x installed
  · exact sound.installed installed

/-- To make a bootstrap may make two extensions: the one that it passes deliveries on to, and itself. -/
theorem grows_createBootstrap (nested : Bool) (hot : String) (plan : Except Failure Bootstrap)
    (previous : Option (ExtensionSpec Command)) :
    p.watch.Grows (p.perform nested (.createBootstrap hot plan previous)).watch := by
  have answered {q : Page} (a : Answer) (grows : p.watch.Grows q.watch) :
      p.watch.Grows (q.answerWith nested a).watch := by rwa [farView_watch.answerWith]
  -- The new bootstrap passes deliveries on to an extension that is there already.
  have named {p' : Page} {b : Bootstrap} (grows : p.watch.Grows p'.watch)
      (older : ∀ y, b.previous = some y → y < p'.extensions.length) :
      p.watch.Grows { (p'.addBootstrap b).2 with
        bootstraps := p'.bootstraps.set hot (p'.addBootstrap b).1 : Page }.watch := by
    obtain ⟨added, inRange⟩ := grows_addBootstrap grows.sound older
    exact (grows.trans added).trans (added.sound.name hot inRange)
  simp only [perform]
  -- If anything fails, nothing is made.
  cases plan with
  | error e => exact answered _ sound.grows
  | ok b =>
    cases previous with
    | none => exact answered _ (named sound.grows (by simp))
    | some spec =>
      simp only [bind, Except.bind, Except.map, pure, Except.pure]
      cases added : p.addExtension spec with
      | error e => exact answered _ sound.grows
      | ok xp =>
        obtain ⟨x, p'⟩ := xp
        obtain ⟨grows, inRange⟩ := grows_addExtension sound added
        refine answered _ (named grows fun y same => ?_)
        rwa [← Option.some.inj same]

end

end Page

end ChunkLoading
