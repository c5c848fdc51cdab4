import ChunkLoading.Proofs.UpdateAddresses
import Mathlib.Data.List.Induction

/-!
# The life of an update

A bootstrap gets calls: deliveries, manifests, updated chunks, and calls to finish. An update begins with a
manifest that can be applied, takes in the chunks that arrive, and ends when all the chunks that it asked
for have arrived; `Underway` reads off the calls which update is under way. What the bootstrap keeps is
that update and no other (`updates_follow`).
-/

namespace ChunkLoading

/-! ## Calls -/

/-- The manifest that a text holds. -/
def Manifest.ofText? (s : String) : Option Manifest := (Json.read? s).bind Manifest.ofJson?

namespace Bootstrap

/-- A call of a bootstrap. -/
inductive Call where
  /-- A delivery of chunks is shown. -/
  | deliver (chunks : List ChunkId)
  /-- An update is to begin, from the text of its manifest. -/
  | apply (manifest : String)
  /-- An updated chunk has arrived. -/
  | receive (chunk : ChunkId) (modules : List (ModuleId × FactoryId))
  /-- The update is to end; the given build is then current. -/
  | finish (next : String)

/-- The factories that a call brings for an update. -/
def Call.modules : Call → List (ModuleId × FactoryId)
  | .receive _ modules => modules
  | _ => []

/-- The chunk that a call brings for an update. -/
def Call.chunk? : Call → Option ChunkId
  | .receive c _ => some c
  | _ => none

/-- The bootstrap after a call. -/
def take (b : Bootstrap) : Call → Bootstrap
  | .deliver cs => b.noteLoaded cs
  | .apply s =>
    match b.applyText s with
    | .ok (_, b') => b'
    | .error _ => b
  | .receive c modules => b.receive c modules
  | .finish next =>
    match b.finish? next with
    | some (_, b') => b'
    | none => b

/-- The bootstrap after calls. -/
def after (b : Bootstrap) (calls : List Call) : Bootstrap := calls.foldl take b

/-- Whether a call begins an update or ends one. -/
def turns (b : Bootstrap) : Call → Bool
  | .apply s => (b.applyText s).isOk
  | .finish next => (b.finish? next).isSome
  | _ => false

/-- No call begins an update or ends one. -/
def Steady (b : Bootstrap) : List Call → Prop
  | [] => True
  | call :: calls => b.turns call = false ∧ (b.take call).Steady calls

/-- The bootstraps that a configuration makes for a build: perhaps in front of another extension, and perhaps
with chunks that are loaded already. -/
inductive New (config : Config) (hash : String) : Bootstrap → Prop
  | intro {b : Bootstrap} (made : ofConfig config hash = .ok b) (previous : Option ExtensionId)
      (chunks : List ChunkId) : New config hash ({ b with previous := previous }.noteLoaded chunks)

/-- The update that began by the text of a manifest, after some calls, is under way after later ones. -/
structure Underway (b : Bootstrap) (before : List Call) (s : String) (m : Manifest)
    (later : List Call) : Prop where
  read : Manifest.ofText? s = some m
  applied : ((b.after before).applyText s).isOk = true
  steady : (b.after (before ++ [.apply s])).Steady later

/-- The chunks of a manifest that an update asks for: those that are loaded, each once. -/
def asked (b : Bootstrap) (m : Manifest) : List ChunkId :=
  (m.chunks.filter (b.loaded.contains ·)).eraseDups

variable {b b' : Bootstrap} {m : Manifest} {u : PendingUpdate} {call : Call} {calls later : List Call}
  {s next : String}

@[simp] theorem after_nil (b : Bootstrap) : b.after [] = b := rfl

/-- The first call comes first. -/
@[simp] theorem after_cons (b : Bootstrap) (call : Call) (calls : List Call) :
    b.after (call :: calls) = (b.take call).after calls := rfl

/-- The later calls are made on what the earlier ones left. -/
@[simp] theorem after_append (b : Bootstrap) (calls later : List Call) :
    b.after (calls ++ later) = (b.after calls).after later :=
  List.foldl_append

/-- No call of a run begins or ends an update if none of the earlier ones does, nor the last one. -/
theorem steady_concat :
    b.Steady (calls ++ [call]) ↔ b.Steady calls ∧ (b.after calls).turns call = false := by
  induction calls generalizing b with
  | nil => simp [Steady]
  | cons first calls ih => simp [Steady, ih, and_assoc]

/-- A chunk is asked for once, however often the manifest has it. -/
theorem nodup_asked (b : Bootstrap) (m : Manifest) : (b.asked m).Nodup := nodup_eraseDups _

/-- The chunks that are asked for are those of the manifest that are loaded. -/
theorem mem_asked {c : ChunkId} : c ∈ b.asked m ↔ c ∈ m.chunks ∧ c ∈ b.loaded := by
  simp [asked, List.mem_eraseDups]

/-! ## What is stored -/

/-- A bootstrap keeps at most one update, under the current build. -/
def Stored (b : Bootstrap) : Prop :=
  b.updates = .empty ∨ ∃ u : PendingUpdate, u.hash = b.currentHash ∧ b.updates = ⟨[(b.currentHash, u)]⟩

/-- An update that begins replaces one that is under way. -/
theorem Stored.set (stored : b.Stored) (u : PendingUpdate) :
    b.updates.set b.currentHash u = ⟨[(b.currentHash, u)]⟩ := by
  rcases stored with none | ⟨old, -, one⟩
  · rw [none]
    rfl
  · rw [one]
    simp [Assoc.set, Assoc.put]

/-- When the update under way has ended, none is left. -/
theorem Stored.erase (stored : b.Stored) : b.updates.erase b.currentHash = .empty := by
  rcases stored with none | ⟨old, -, one⟩
  · rw [none]
    rfl
  · rw [one]
    simp [Assoc.erase, Assoc.empty]

/-- The update under way leads on from the current build. -/
theorem Stored.hash (stored : b.Stored) (found : b.pending = some u) : u.hash = b.currentHash := by
  unfold pending at found
  rcases stored with none | ⟨old, own, one⟩
  · simp [none, Assoc.empty, Assoc.get?, Assoc.find] at found
  · rw [one] at found
    obtain rfl : old = u := by simpa [Assoc.get?, Assoc.find] using found
    exact own

/-- What a call that ends an update does. -/
theorem finish?_eq_some : b.finish? next = some (u, b') ↔ b.pending = some u ∧ u.awaiting = [] ∧
    { b with
      updates := b.updates.erase b.currentHash
      loaded := b.loaded.filter (!u.manifest.removedChunks.contains ·)
      currentHash := next } = b' := by
  unfold finish?
  cases b.pending with
  | none => simp
  | some old =>
    by_cases complete : old.isComplete = true
    · have none : old.awaiting = [] := by simpa [PendingUpdate.isComplete] using complete
      simp only [complete, if_true, Option.some.injEq, Prod.mk.injEq]
      constructor
      · rintro ⟨rfl, rfl⟩
        exact ⟨rfl, none, rfl⟩
      · rintro ⟨rfl, -, rfl⟩
        exact ⟨rfl, rfl⟩
    · have some : old.awaiting ≠ [] := by simpa [PendingUpdate.isComplete] using complete
      simp only [complete, Option.some.injEq]
      constructor
      · simp
      · rintro ⟨rfl, none, -⟩
        exact absurd none some

/-! ## Beginning an update -/

/-- What applying a manifest comes to. -/
theorem apply_eq_ok {addresses : List String} : b.apply m = .ok (addresses, b') ↔
    ∃ as, (b.asked m).mapM b.chunkAddress = .ok as ∧ as.mergeSort (fun x y => x ≤ y) = addresses ∧
      { b with updates := b.updates.set b.currentHash ⟨b.currentHash, m, .empty, b.asked m⟩ } = b' := by
  show (b.asked m).mapM b.chunkAddress >>= _ = _ ↔ _
  rw [bind_ok]
  simp only [pure, Except.pure, Except.ok.injEq, Prod.mk.injEq]
  rfl

/-- A manifest that can be read is applied. -/
theorem applyText_of_read (read : Manifest.ofText? s = some m) :
    b.applyText s = (b.apply m).mapError .template := by
  unfold Manifest.ofText? at read
  unfold applyText
  rw [read]

/-- A text that is no manifest is refused as such. -/
theorem applyText_eq_malformed : b.applyText s = .error .malformed ↔ Manifest.ofText? s = none := by
  cases read : Manifest.ofText? s with
  | none =>
    unfold Manifest.ofText? at read
    simp [applyText, read]
  | some m =>
    rw [applyText_of_read read]
    cases b.apply m <;> simp [Except.mapError]

/-- A manifest is refused for an address that cannot be made. -/
theorem applyText_eq_template : (∃ e, b.applyText s = .error (.template e)) ↔
    ∃ m, Manifest.ofText? s = some m ∧ ∃ e, b.apply m = .error e := by
  cases read : Manifest.ofText? s with
  | none => simp [applyText_eq_malformed.mpr read]
  | some m =>
    rw [applyText_of_read read]
    cases applied : b.apply m <;> simp [Except.mapError, applied]

/-- A text begins an update if it is a manifest that does. -/
theorem applyText_eq_ok {addresses : List String} : b.applyText s = .ok (addresses, b') ↔
    ∃ m, Manifest.ofText? s = some m ∧ b.apply m = .ok (addresses, b') := by
  cases read : Manifest.ofText? s with
  | none => simp [applyText_eq_malformed.mpr read]
  | some m => simp [applyText_of_read read, mapError_ok]

/-- The address of an updated chunk can be rendered if the template asks only for what a bootstrap knows. -/
theorem isOk_chunkAddress (b : Bootstrap) (c : ChunkId) : (b.chunkAddress c).isOk = true ↔
    b.chunkTemplate.uses .name = false ∧ b.chunkTemplate.uses .contentHash = false := by
  have rendered : (b.chunkAddress c).isOk = (b.chunkTemplate.render (b.chunkValue c.text)).isOk :=
    isOk_bind_pure ..
  rw [rendered, Template.isOk_render, Placeholder.forall_iff]
  simp [chunkValue]

/-- A manifest begins an update if the addresses can be made, or if none is needed. -/
theorem isOk_apply (b : Bootstrap) (m : Manifest) : (b.apply m).isOk = true ↔
    b.chunkTemplate.uses .name = false ∧ b.chunkTemplate.uses .contentHash = false ∨ b.asked m = [] := by
  have each : (b.apply m).isOk = (b.asked m).all fun c => (b.chunkAddress c).isOk :=
    (isOk_bind_pure ..).trans (isOk_mapM ..)
  rw [each, List.all_eq_true]
  simp only [isOk_chunkAddress]
  constructor
  · intro all
    by_cases none : b.asked m = []
    · exact .inr none
    · obtain ⟨c, member⟩ := List.exists_mem_of_ne_nil _ none
      exact .inl (all c member)
  · rintro (resolved | none) c member
    · exact resolved
    · simp [none] at member

/-- A manifest is refused for its addresses if there is one to render and the template asks for more than a
bootstrap knows. -/
theorem apply_refused : (∃ e, b.apply m = .error e) ↔
    (b.chunkTemplate.uses .name = true ∨ b.chunkTemplate.uses .contentHash = true) ∧
      ∃ c ∈ m.chunks, c ∈ b.loaded := by
  have refused : (∃ e, b.apply m = .error e) ↔ ¬ (b.apply m).isOk = true := by
    cases b.apply m <;> simp [Except.isOk, Except.toBool]
  have some : (∃ c ∈ m.chunks, c ∈ b.loaded) ↔ ¬ b.asked m = [] := by
    simp [List.eq_nil_iff_forall_not_mem, mem_asked]
  rw [refused, isOk_apply, not_or, some]
  simp only [not_and_or, Bool.not_eq_false]

/-- An update begins with the addresses of the loaded chunks of its manifest, whatever the order in which
they are taken. -/
structure Begins (b : Bootstrap) (m : Manifest) (addresses : List String) (b' : Bootstrap) : Prop where
  sorted : addresses.Pairwise (· ≤ ·)
  length : addresses.length = (b.asked m).length
  addresses : ∀ order : List ChunkId, order.Nodup → (∀ c, c ∈ order ↔ c ∈ m.chunks ∧ c ∈ b.loaded) →
    ∃ as, order.mapM b.chunkAddress = .ok as ∧ as.Perm addresses
  stored : b' = { b with updates := ⟨[(b.currentHash, ⟨b.currentHash, m, .empty, b.asked m⟩)]⟩ }

/-- The addresses that a manifest is answered with are those of its loaded chunks, in order. -/
theorem addresses_of_apply {addresses : List String} (applied : b.apply m = .ok (addresses, b')) :
    addresses.Pairwise (· ≤ ·) ∧ addresses.length = (b.asked m).length ∧
      ∀ order : List ChunkId, order.Nodup → (∀ c, c ∈ order ↔ c ∈ m.chunks ∧ c ∈ b.loaded) →
        ∃ as, order.mapM b.chunkAddress = .ok as ∧ as.Perm addresses := by
  obtain ⟨as, made, rfl, -⟩ := apply_eq_ok.mp applied
  have perm := List.mergeSort_perm as fun x y => x ≤ y
  refine ⟨?_, ?_, fun order once members => ?_⟩
  · have trans (x y z : String) : decide (x ≤ y) → decide (y ≤ z) → decide (x ≤ z) := by
      simpa using String.le_trans
    have total (x y : String) : decide (x ≤ y) || decide (y ≤ x) := by simpa using String.le_total x y
    simpa using as.pairwise_mergeSort trans total
  · rw [perm.length_eq, ← (mapM_ok_iff.mp made).length_eq]
  · -- The chunks that are asked for are a set, so that any order of them is a permutation.
    have same : order.Perm (b.asked m) :=
      (List.perm_ext_iff_of_nodup once (b.nodup_asked m)).mpr fun c => by rw [members, mem_asked]
    obtain ⟨as', made', perm'⟩ := mapM_perm same made
    exact ⟨as', made', perm'.trans perm.symm⟩

/-- What a manifest begins: an update for the current build, and the addresses of its chunks in order. -/
theorem begins_of_apply {addresses : List String} (stored : b.Stored)
    (applied : b.apply m = .ok (addresses, b')) : b.Begins m addresses b' := by
  obtain ⟨sorted, length, each⟩ := addresses_of_apply applied
  obtain ⟨-, -, -, rfl⟩ := apply_eq_ok.mp applied
  exact ⟨sorted, length, each, by rw [stored.set]⟩

/-! ## Calls keep what is stored -/

/-- Whatever the call, there is one update at most, and it is that of the current build. -/
theorem stored_take (stored : b.Stored) (call : Call) : (b.take call).Stored := by
  cases call with
  | deliver cs => exact stored
  | apply s =>
    cases applied : b.applyText s with
    | error e => simpa only [take, applied] using stored
    | ok begun =>
      -- An update that begins takes the place of any that was under way.
      obtain ⟨m, -, applied'⟩ := applyText_eq_ok.mp applied
      simp only [take, applied, (begins_of_apply stored applied').stored]
      exact .inr ⟨_, rfl, rfl⟩
  | receive c modules =>
    unfold take receive
    cases found : b.pending with
    | none => exact stored
    | some u =>
      -- What arrives is added to the update of the current build.
      have own : u.hash = b.currentHash := stored.hash found
      exact .inr ⟨u.receive c modules, own, stored.set _⟩
  | finish next =>
    cases finished : b.finish? next with
    | none => simpa only [take, finished] using stored
    | some done =>
      -- An update that ends leaves none behind.
      obtain ⟨-, -, done'⟩ := finish?_eq_some.mp finished
      simp only [take, finished, ← done']
      exact .inl stored.erase

/-- So there is after any number of calls. -/
theorem stored_after (stored : b.Stored) (calls : List Call) : (b.after calls).Stored := by
  induction calls generalizing b with
  | nil => exact stored
  | cons call calls ih => exact ih (stored_take stored call)

/-- A new bootstrap has no updates. -/
theorem New.updates {config : Config} {hash : String} (new : New config hash b) : b.updates = .empty := by
  cases new with
  | intro made previous chunks =>
    obtain ⟨_, -, made⟩ := bind_ok.mp made
    obtain ⟨_, -, made⟩ := bind_ok.mp made
    obtain rfl := Except.ok.inj made
    rfl

/-! ## Collecting -/

/-- What calls bring for an update is taken in: the last factory of a module counts, and chunks that arrived
are not awaited any more. -/
def collect (u : PendingUpdate) (calls : List Call) : PendingUpdate :=
  { u with
    modules := u.modules.setAll (calls.flatMap Call.modules)
    awaiting := u.awaiting.filter (· ∉ calls.filterMap Call.chunk?) }

/-- An update collects call by call. -/
theorem collect_append (u : PendingUpdate) (calls later : List Call) :
    collect u (calls ++ later) = collect (collect u calls) later := by
  simp only [collect, List.flatMap_append, List.filterMap_append, Assoc.setAll_append, List.filter_filter,
    PendingUpdate.mk.injEq, true_and]
  refine List.filter_congr fun c _ => ?_
  simp [Bool.and_comm]

/-- A call that does not begin an update or end one leaves the build and brings chunks to the update that is
under way, if there is one. -/
theorem pending_take (steady : b.turns call = false) : (b.take call).currentHash = b.currentHash ∧
    (b.take call).pending = b.pending.map (collect · [call]) := by
  cases call with
  | deliver cs => simp [take, noteLoaded, pending, collect, Call.modules, Call.chunk?, Assoc.setAll]
  | apply s =>
    cases applied : b.applyText s with
    | error e => simp [take, applied, collect, Call.modules, Call.chunk?, Assoc.setAll]
    | ok begun => simp [turns, applied, Except.isOk, Except.toBool] at steady
  | receive c modules =>
    unfold take receive
    cases found : b.pending with
    | none => simp [found]
    | some u =>
      simp [pending, PendingUpdate.receive, collect, Call.modules, Call.chunk?]
  | finish next =>
    cases finished : b.finish? next with
    | none => simp [take, finished, collect, Call.modules, Call.chunk?, Assoc.setAll]
    | some done => simp [turns, finished] at steady

/-- While no update begins or ends, the one under way collects. -/
theorem pending_after (steady : b.Steady later) : (b.after later).currentHash = b.currentHash ∧
    (b.after later).pending = b.pending.map (collect · later) := by
  induction later generalizing b with
  | nil => simp [collect, Assoc.setAll]
  | cons call later ih =>
    obtain ⟨calm, steady⟩ := steady
    obtain ⟨hash, same⟩ := pending_take calm
    obtain ⟨hash', same'⟩ := ih steady
    refine ⟨hash'.trans hash, ?_⟩
    rw [after_cons, same', same, Option.map_map]
    exact congrArg (b.pending.map ·) (funext fun u => (collect_append u [call] later).symm)

/-- An update that is under way is for the build that was current when it began, and has what arrived
since. -/
theorem Underway.pending (underway : b.Underway calls s m later) (stored : b.Stored) :
    (b.after (calls ++ .apply s :: later)).currentHash = (b.after calls).currentHash ∧
    (b.after (calls ++ .apply s :: later)).pending =
      some (collect ⟨(b.after calls).currentHash, m, .empty, (b.after calls).asked m⟩ later) := by
  obtain ⟨read, applied, steady⟩ := underway
  obtain ⟨⟨addresses, b'⟩, applied⟩ := isOk_iff.mp applied
  obtain ⟨m', read', applied'⟩ := applyText_eq_ok.mp applied
  obtain rfl : m = m' := by simpa [read] using read'
  have begun : b.after (calls ++ [.apply s]) = b' := by simp [take, applied]
  have whole : b.after (calls ++ .apply s :: later) = b'.after later := by simp [take, applied]
  rw [begun] at steady
  obtain ⟨hash, kept⟩ := pending_after steady
  -- An older update is replaced, whatever it had collected.
  have first := (begins_of_apply (stored_after stored calls) applied').stored
  rw [whole, hash, kept, first]
  simp [Bootstrap.pending, Assoc.get?, Assoc.find]

/-- After an update has ended none is under way. -/
theorem pending_finish {b' : Bootstrap} (stored : b.Stored) (finished : b.finish? next = some (u, b')) :
    b'.pending = none := by
  obtain ⟨-, -, rfl⟩ := finish?_eq_some.mp finished
  simp [pending, stored.erase, Assoc.empty, Assoc.get?, Assoc.find]

/-- An update is stored exactly when one is under way. -/
theorem pending_iff (none : b.updates = .empty) : (b.after calls).pending.isSome = true ↔
    ∃ before s m later, calls = before ++ .apply s :: later ∧ b.Underway before s m later := by
  constructor
  · induction calls using List.reverseRecOn with
    | nil => simp [pending, none, Assoc.empty, Assoc.get?, Assoc.find]
    | append_singleton calls call ih =>
      -- The last call leaves the update that is under way, or begins one, or ends it.
      intro found
      rw [after_append, after_cons, after_nil] at found
      cases turn : (b.after calls).turns call with
      | false =>
        rw [(pending_take turn).2, Option.isSome_map] at found
        obtain ⟨before, s, m, later, rfl, read, applied, steady⟩ := ih found
        refine ⟨before, s, m, later ++ [call], by simp, read, applied, steady_concat.mpr ⟨steady, ?_⟩⟩
        simpa using turn
      | true =>
        -- Of the calls, only an application that succeeds and an end that succeeds make a turn.
        cases call with
        | deliver cs => cases turn
        | receive c modules => cases turn
        | apply s =>
          obtain ⟨⟨addresses, b'⟩, applied⟩ := isOk_iff.mp turn
          obtain ⟨m, read, -⟩ := applyText_eq_ok.mp applied
          exact ⟨calls, s, m, [], rfl, read, turn, trivial⟩
        | finish next =>
          obtain ⟨⟨u, b'⟩, finished⟩ := Option.isSome_iff_exists.mp turn
          have ended := pending_finish (stored_after (.inl none) calls) finished
          simp [take, finished, ended] at found
  · rintro ⟨before, s, m, later, rfl, underway⟩
    rw [(underway.pending (.inl none)).2]
    rfl

/-! ## Ending an update -/

/-- The update that is under way can be ended when each chunk that it asked for has arrived. -/
theorem Underway.isSome_finish (underway : b.Underway calls s m later) (stored : b.Stored) (next : String) :
    ((b.after (calls ++ .apply s :: later)).finish? next).isSome = true ↔
      ∀ c ∈ (b.after calls).asked m, c ∈ later.filterMap Call.chunk? := by
  rw [Option.isSome_iff_exists, Prod.exists]
  simp only [finish?_eq_some, (underway.pending stored).2, Option.some.injEq, collect]
  constructor
  · rintro ⟨u, b', rfl, none, -⟩ c member
    simpa using List.filter_eq_nil_iff.mp none c member
  · intro arrived
    refine ⟨_, _, rfl, List.filter_eq_nil_iff.mpr fun c member => ?_, rfl⟩
    simpa using arrived c member

/-- An update that ends is the one that was under way, with all that it collected. -/
structure Ends (b : Bootstrap) (m : Manifest) (later : List Call) (u : PendingUpdate) (next : String)
    (b' : Bootstrap) : Prop where
  hash : u.hash = b.currentHash
  manifest : u.manifest = m
  factories : ∀ k, u.modules.get? k = lastValue? k (later.flatMap Call.modules)
  current : b'.currentHash = next
  loaded : ∀ c, c ∈ b'.loaded ↔ c ∈ b.loaded ∧ c ∉ m.removedChunks

/-- How an update ends: with what it has collected since it began. -/
theorem Underway.ends (underway : b.Underway calls s m later) (stored : b.Stored)
    (finished : (b.after (calls ++ .apply s :: later)).finish? next = some (u, b')) :
    (b.after (calls ++ .apply s :: later)).Ends m later u next b' := by
  obtain ⟨found, -, rfl⟩ := finish?_eq_some.mp finished
  obtain ⟨hash, kept⟩ := underway.pending stored
  rw [kept] at found
  obtain rfl := Option.some.inj found
  constructor
  case hash => exact hash.symm
  case manifest => rfl
  case factories =>
    intro k
    rw [collect, Assoc.get?_setAll]
    exact Option.or_none ..
  case current => rfl
  case loaded => simp [collect]

/-- **The life of an update.** Take a bootstrap of a configuration and any calls of it.

* It keeps no update but one under the current build, and keeps one exactly if an update is under way: one
  was begun by a manifest, and since then no other was begun and none ended.
* A manifest that cannot be read, or with loaded chunks and a template that a bootstrap cannot fill, changes
  nothing. Every other manifest begins an update, in place of one under way, with the sorted addresses of its
  loaded chunks.
* A chunk that arrives with no update under way changes nothing.
* The update under way can be ended exactly if all chunks that it asked for have arrived since it began. It
  comes with the build that it changes, its manifest, and for each module the factory that arrived last. Then
  the next build is current, and the removed chunks are not loaded. -/
theorem updates_follow {config : Config} {hash : String} {b₀ b : Bootstrap} {calls : List Call}
    (new : New config hash b₀) (reached : b₀.after calls = b) :
    ((b.updates = .empty ∨ ∃ u : PendingUpdate, u.hash = b.currentHash ∧
        b.updates = ⟨[(b.currentHash, u)]⟩) ∧
      (b.pending.isSome = true ↔
        ∃ before s m later, calls = before ++ .apply s :: later ∧ b₀.Underway before s m later)) ∧
    (∀ s,
      (b.applyText s = .error .malformed ↔ Manifest.ofText? s = none) ∧
      ((∃ e, b.applyText s = .error (.template e)) ↔ ∃ m, Manifest.ofText? s = some m ∧
        (b.chunkTemplate.uses .name = true ∨ b.chunkTemplate.uses .contentHash = true) ∧
          ∃ c ∈ m.chunks, c ∈ b.loaded) ∧
      (∀ e, b.applyText s = .error e → b.take (.apply s) = b) ∧
      ∀ addresses b', b.applyText s = .ok (addresses, b') →
        b.take (.apply s) = b' ∧ ∃ m, Manifest.ofText? s = some m ∧ b.Begins m addresses b') ∧
    (b.pending = none → ∀ c modules, b.take (.receive c modules) = b) ∧
    ∀ next,
      ((b.finish? next).isSome = true ↔ ∃ before s m later, calls = before ++ .apply s :: later ∧
        b₀.Underway before s m later ∧
          ∀ c ∈ (b₀.after before).asked m, c ∈ later.filterMap Call.chunk?) ∧
      ∀ u b', b.finish? next = some (u, b') → b.take (.finish next) = b' ∧
        ∀ before s m later, calls = before ++ .apply s :: later → b₀.Underway before s m later →
          b.Ends m later u next b' := by
  subst reached
  have empty : b₀.updates = .empty := new.updates
  have first : b₀.Stored := .inl empty
  have stored := stored_after first calls
  refine ⟨⟨stored, pending_iff empty⟩, fun s => ⟨applyText_eq_malformed, ?_, ?_, ?_⟩, ?_,
    fun next => ⟨?_, ?_⟩⟩
  · simp only [applyText_eq_template, apply_refused]
  · intro e refused
    simp only [take, refused]
  · intro addresses b' applied
    obtain ⟨m, read, applied'⟩ := applyText_eq_ok.mp applied
    exact ⟨by simp only [take, applied], m, read, begins_of_apply stored applied'⟩
  · intro idle c modules
    simp only [take, receive, idle]
  · -- What can be ended is the update that began last.
    constructor
    · intro done
      obtain ⟨⟨u, b'⟩, finished⟩ := Option.isSome_iff_exists.mp done
      have found := (finish?_eq_some.mp finished).1
      obtain ⟨before, s, m, later, rfl, underway⟩ :=
        (pending_iff empty).mp (Option.isSome_iff_exists.mpr ⟨u, found⟩)
      exact ⟨before, s, m, later, rfl, underway, (underway.isSome_finish first next).mp done⟩
    · rintro ⟨before, s, m, later, rfl, underway, arrived⟩
      exact (underway.isSome_finish first next).mpr arrived
  · intro u b' finished
    refine ⟨by simp only [take, finished], ?_⟩
    rintro before s m later rfl underway
    exact underway.ends first finished

/-- A bootstrap that has just been made. -/
def fresh : Bootstrap where
  publicPath := "/"
  runtimeName := "main"
  chunkTemplate := ⟨"[id].[fullhash].hot-update.js",
    [.slot .id none, .literal ['.'], .slot .fullHash none, .literal ".hot-update.js".toList]⟩
  manifestTemplate := ⟨"[runtime].[fullhash].hot-update.json",
    [.slot .runtime none, .literal ['.'], .slot .fullHash none, .literal ".hot-update.json".toList]⟩
  previous := none
  currentHash := "0123"
  loaded := []
  updates := .empty

/-- Of the two chunks in the manifest one is loaded. -/
def sideUpdate : Manifest := ⟨[.name "main", .name "side"], [.name "main"], []⟩

def sideUpdateText : String := "\x7b\"c\": [\"main\", \"side\"], \"r\": [\"main\"]\x7d"

/-- Chunks arrive that were not asked for, and more than once. -/
def sideArrivals : List Call :=
  [.receive (.name "side") [(.name "b", 5)], .receive (.name "main") [(.name "a", 1)],
    .deliver [.name "side"], .receive (.name "main") [(.name "a", 2)]]

/-- A chunk arrives that was not asked for, and one that was asked for arrives twice; the later arrival counts. -/
theorem updates_follow_side : New updated "0123" (fresh.noteLoaded [.name "main"]) ∧ ∃ u b',
    ((fresh.noteLoaded [.name "main"]).after (.apply sideUpdateText :: sideArrivals)).finish? "4567" =
      some (u, b') ∧ u.hash = "0123" ∧ u.modules.get? (.name "a") = some 2 ∧ b'.currentHash = "4567" ∧
      .name "main" ∉ b'.loaded := by
  have made : ofConfig updated "0123" = .ok fresh := by decide +kernel
  have new : New updated "0123" (fresh.noteLoaded [.name "main"]) := .intro made none _
  have underway : Underway (fresh.noteLoaded [.name "main"]) [] sideUpdateText sideUpdate sideArrivals := by
    have read : Manifest.ofText? sideUpdateText = some sideUpdate := by decide +kernel
    refine ⟨read, ?_, rfl, rfl, rfl, rfl, trivial⟩
    rw [applyText_of_read read, after_nil]
    have addressed : fresh.chunkTemplate.uses .name = false ∧
        fresh.chunkTemplate.uses .contentHash = false := by decide
    obtain ⟨begun, applied⟩ :=
      isOk_iff.mp (((fresh.noteLoaded [.name "main"]).isOk_apply sideUpdate).mpr (.inl addressed))
    exact isOk_iff.mpr ⟨begun, mapError_ok.mpr applied⟩
  obtain ⟨-, -, -, ending⟩ := @updates_follow _ _ _ _ (.apply sideUpdateText :: sideArrivals) new rfl
  obtain ⟨done, result⟩ := ending "4567"
  -- All that was asked for is among the chunks that arrived.
  have arrived : ∀ c ∈ (fresh.noteLoaded [.name "main"]).asked sideUpdate,
      c ∈ sideArrivals.filterMap Call.chunk? := by
    intro c member
    have known : c ∈ sideUpdate.chunks := (mem_asked.mp member).1
    revert c
    decide
  obtain ⟨⟨u, b'⟩, finished⟩ :=
    Option.isSome_iff_exists.mp (done.mpr ⟨[], _, _, _, rfl, underway, arrived⟩)
  have ends := (result u b' finished).2 [] _ _ _ rfl underway
  refine ⟨new, u, b', finished, ?_, (ends.factories _).trans (by decide), ends.current, ?_⟩
  · exact ends.hash.trans (underway.pending (.inl rfl)).1
  · rw [ends.loaded]
    exact fun kept => kept.2 (by decide)

end Bootstrap

end ChunkLoading
