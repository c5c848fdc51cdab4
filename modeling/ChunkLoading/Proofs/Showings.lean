import ChunkLoading.Proofs.Sight

/-!
# What extensions are shown

A delivery that is to be shown to an extension is shown to it and, through it, to each extension that it
passes deliveries on to (`Watch.chain`). Along a run every showing that somebody called for is done once, or
is still to be done, and nothing else is shown (`showings_follow`).
-/

namespace ChunkLoading

/-! ## Roles -/

/-- What stays of an extension whatever it is shown: the name of a tap, and the extension that a bootstrap
passes deliveries on to. -/
inductive Role where
  | tap (name : String)
  | bootstrap (previous : Option ExtensionId)
  deriving DecidableEq

namespace Role

def previous : Role → Option ExtensionId
  | .tap _ => none
  | .bootstrap previous => previous

/-- What a tap reports when it is shown a delivery. -/
def report? : Role → Delivery → Option (String × Delivery)
  | .tap name, d => some (name, d)
  | .bootstrap _, _ => none

end Role

def Extension.role : Extension → Role
  | .tap name _ _ => .tap name
  | .bootstrap b => .bootstrap b.previous

namespace Watch

variable {w w' : Watch} {x y : ExtensionId}

def roles (w : Watch) : List Role := w.extensions.map Extension.role

/-- The extension that another one passes deliveries on to. -/
def next? (w : Watch) (x : ExtensionId) : Option ExtensionId := w.roles[x]?.bind Role.previous

/-- An extension and those that deliveries come to through it. -/
def chain (w : Watch) (x : ExtensionId) : List ExtensionId :=
  x :: match w.next? x with
    | none => []
    | some y => if y < x then w.chain y else []
termination_by x

/-- The showings that one showing comes to. -/
def spread (w : Watch) (s : ExtensionId × Delivery) : List (ExtensionId × Delivery) :=
  (w.chain s.1).map (·, s.2)

theorem length_roles (w : Watch) : w.roles.length = w.extensions.length := List.length_map _

theorem next?_eq_some : w.next? x = some y ↔
    ∃ b : Bootstrap, w.extensions[x]? = some (.bootstrap b) ∧ b.previous = some y := by
  unfold next? roles
  rw [List.getElem?_map]
  cases w.extensions[x]? with
  | none => simp
  | some extension => cases extension <;> simp [Extension.role, Role.previous]

theorem Sound.next (sound : w.Sound) (next : w.next? x = some y) : y < x := by
  obtain ⟨b, found, previous⟩ := next?_eq_some.mp next
  exact sound.older found previous

/-- Whom a delivery is passed on to is older, so the chain goes on with that one. -/
theorem chain_of_sound (sound : w.Sound) (x : ExtensionId) :
    w.chain x = x :: (w.next? x).toList.flatMap w.chain := by
  rw [chain]
  cases next : w.next? x with
  | none => rfl
  | some y => simp [sound.next next]

/-- A chain leads to older extensions only. -/
theorem le_of_mem_chain : y ∈ w.chain x → y ≤ x := by
  induction x using Nat.strongRecOn with
  | ind x ih =>
    intro member
    rw [chain] at member
    rcases List.mem_cons.mp member with rfl | member
    · exact Nat.le_refl _
    · cases next : w.next? x with
      | none => simp [next] at member
      | some z =>
        simp only [next] at member
        split at member
        · rename_i older
          exact Nat.le_trans (ih z older member) (Nat.le_of_lt older)
        · cases member

/-- Nothing is passed on to an extension twice. -/
theorem nodup_chain (w : Watch) (x : ExtensionId) : (w.chain x).Nodup := by
  induction x using Nat.strongRecOn with
  | ind x ih =>
    rw [chain]
    cases w.next? x with
    | none => simp
    | some y =>
      simp only
      split
      · -- The rest of the chain is older than its head.
        rename_i older
        refine List.nodup_cons.mpr ⟨fun member => ?_, ih y older⟩
        exact Nat.not_le_of_lt older (le_of_mem_chain member)
      · simp

/-- A chain depends on where its extensions pass deliveries on to. -/
theorem chain_congr (same : ∀ y ≤ x, w'.next? y = w.next? y) : w'.chain x = w.chain x := by
  induction x using Nat.strongRecOn with
  | ind x ih =>
    rw [chain, chain, same x (Nat.le_refl x)]
    cases w.next? x with
    | none => rfl
    | some y =>
      simp only
      split
      · rename_i older
        rw [ih y older fun z le => same z (Nat.le_trans le (Nat.le_of_lt older))]
      · rfl

/-- New extensions do not change the chains of the older ones. -/
theorem chain_grown (roles : w.roles <+: w'.roles) (inRange : x < w.extensions.length) :
    w'.chain x = w.chain x := by
  refine chain_congr fun y le => ?_
  obtain ⟨new, more⟩ := roles
  unfold next?
  rw [← more, List.getElem?_append_left (by rw [length_roles]; exact Nat.lt_of_le_of_lt le inRange)]

theorem spread_congr (roles : w'.roles = w.roles) : w'.spread = w.spread := by
  funext s
  have next : w'.next? = w.next? := by
    funext y
    unfold next?
    rw [roles]
  show (w'.chain s.1).map (·, s.2) = (w.chain s.1).map (·, s.2)
  rw [chain_congr fun y _ => congrFun next y]

theorem spread_grown (roles : w.roles <+: w'.roles) {s : ExtensionId × Delivery}
    (inRange : s.1 < w.extensions.length) : w'.spread s = w.spread s := by
  unfold spread
  rw [chain_grown roles inRange]

/-- A bootstrap that notes chunks keeps its place in the chain. -/
theorem roles_set {b b' : Bootstrap} (found : w.extensions[x]? = some (.bootstrap b))
    (previous : b'.previous = b.previous) :
    (w.extensions.set x (.bootstrap b')).map Extension.role = w.roles := by
  refine List.ext_getElem? fun i => ?_
  unfold roles
  rw [List.getElem?_map, List.getElem?_map, List.getElem?_set]
  split
  · rename_i same
    subst same
    rw [found]
    obtain ⟨inRange, -⟩ := List.getElem?_eq_some_iff.mp found
    simp [inRange, Extension.role, previous]
  · rfl

/-- Showing a delivery changes no roles. -/
theorem roles_deliver (w : Watch) (x : ExtensionId) (d : Delivery) : (w.deliver x d).roles = w.roles := by
  unfold deliver
  split
  · rfl
  · rfl
  · rename_i b found
    exact roles_set found rfl

/-- A showing is done, and then those of the extension that it is passed on to. -/
theorem Sound.spread (sound : w.Sound) (x : ExtensionId) (d : Delivery) :
    w.spread (x, d) = (x, d) :: ((w.next? x).toList.map (·, d)).flatMap w.spread := by
  unfold Watch.spread
  rw [chain_of_sound sound]
  cases w.next? x <;> simp

/-- A bootstrap passes the delivery on, and a tap does not. -/
theorem coming_deliver (w : Watch) (x : ExtensionId) (d : Delivery) :
    (w.deliver x d).coming = (w.next? x).toList.map (·, d) ++ w.coming := by
  unfold deliver next? roles
  rw [List.getElem?_map]
  cases w.extensions[x]? with
  | none => rfl
  | some extension => cases extension <;> rfl

/-- A tap reports what it is shown. -/
theorem tapped_deliver (w : Watch) (x : ExtensionId) (d : Delivery) :
    (w.deliver x d).tapped = (w.roles[x]?.bind (·.report? d)).toList ++ w.tapped := by
  unfold deliver roles
  rw [List.getElem?_map]
  cases w.extensions[x]? with
  | none => rfl
  | some extension => cases extension <;> rfl

/-- What is shown is what somebody called for. -/
structure Shows (w : Watch) (shown : List (ExtensionId × Delivery)) (noticed : List Notice) : Prop where
  /-- Every showing that was called for is done in its chain, or is still to be done. -/
  perm : (shown ++ w.coming.flatMap w.spread).Perm
    (noticed.flatMap fun n => w.spread (n.extension, n.delivery))
  inRange : ∀ n ∈ noticed, n.extension < w.extensions.length
  placed : ∀ s ∈ shown, s.1 < w.extensions.length
  /-- Taps report what they are shown, in order. -/
  tapped : w.tapped.reverse = shown.filterMap fun s => w.roles[s.1]?.bind (·.report? s.2)

variable {shown : List (ExtensionId × Delivery)} {noticed : List Notice}

/-- New extensions, and changes that leave roles alone, have nothing to do with what was shown. -/
theorem Shows.grows (shows : w.Shows shown noticed) (sound : w.Sound) (roles : w.roles <+: w'.roles)
    (coming : w'.coming = w.coming) (tapped : w'.tapped = w.tapped) : w'.Shows shown noticed := by
  -- Extensions are only added, so a showing that has its place keeps it.
  have longer : w.extensions.length ≤ w'.extensions.length := by
    rw [← length_roles, ← length_roles]
    exact roles.length_le
  constructor
  case perm =>
    -- All extensions that are referred to are there already, and keep their chains.
    have still : w.coming.flatMap w'.spread = w.coming.flatMap w.spread :=
      List.flatMap_congr fun s member => spread_grown roles (sound.coming member)
    have called : (noticed.flatMap fun n => w'.spread (n.extension, n.delivery)) =
        noticed.flatMap fun n => w.spread (n.extension, n.delivery) :=
      List.flatMap_congr fun n member => spread_grown roles (shows.inRange n member)
    rw [coming, still, called]
    exact shows.perm
  case inRange => exact fun n member => Nat.lt_of_lt_of_le (shows.inRange n member) longer
  case placed => exact fun s member => Nat.lt_of_lt_of_le (shows.placed s member) longer
  case tapped =>
    rw [tapped, shows.tapped]
    refine List.filterMap_congr fun s member => ?_
    obtain ⟨new, more⟩ := roles
    rw [← more, List.getElem?_append_left (by rw [length_roles]; exact shows.placed s member)]

/-- The showing at hand is done, and passed on. -/
theorem Shows.deliver (shows : w.Shows shown noticed) (sound : w.Sound) {x : ExtensionId} {d : Delivery}
    {coming : List (ExtensionId × Delivery)} (pending : w.coming = (x, d) :: coming) :
    ({ w with coming := coming }.deliver x d).Shows (shown ++ [(x, d)]) noticed := by
  have roles : ({ w with coming := coming }.deliver x d).roles = w.roles := roles_deliver ..
  have length : ({ w with coming := coming }.deliver x d).extensions.length = w.extensions.length := by
    rw [← length_roles, roles, length_roles]
  constructor
  case perm =>
    -- The showing that is done makes room for those of the extension that it is passed on to.
    have same : shown ++ [(x, d)] ++ (({ w with coming := coming }.deliver x d).coming).flatMap w.spread =
        shown ++ w.coming.flatMap w.spread := by
      rw [coming_deliver, pending, List.flatMap_cons, sound.spread]
      simp [next?, Watch.roles]
    rw [spread_congr roles, same]
    exact shows.perm
  case inRange => exact fun n member => by rw [length]; exact shows.inRange n member
  case placed =>
    intro s member
    rw [length]
    rcases List.mem_append.mp member with old | new
    · exact shows.placed s old
    · rw [List.mem_singleton.mp new]
      exact sound.coming (pending ▸ List.mem_cons_self)
  case tapped =>
    rw [roles, tapped_deliver, List.reverse_append, shows.tapped, List.filterMap_append]
    show _ ++ (w.roles[x]?.bind (·.report? d)).toList.reverse = _
    cases report : w.roles[x]?.bind (·.report? d) <;> simp [report]

/-- A showing is called for. -/
theorem Shows.notice (shows : w.Shows shown noticed) (n : Notice) (inRange : n.extension < w.extensions.length) :
    ({ w with coming := (n.extension, n.delivery) :: w.coming } : Watch).Shows shown (noticed ++ [n]) := by
  constructor
  case perm =>
    have same : ({ w with coming := (n.extension, n.delivery) :: w.coming } : Watch).spread = w.spread :=
      spread_congr rfl
    rw [same, List.flatMap_append, List.flatMap_cons]
    have called := shows.perm.append (List.Perm.refl (w.spread (n.extension, n.delivery)))
    -- The showings that are called for stand in front of those to be done.
    refine List.Perm.trans ?_ (called.trans (by simp))
    rw [List.append_assoc]
    exact List.perm_append_comm.append_left shown
  case inRange =>
    intro n' member
    rcases List.mem_append.mp member with old | new
    · exact shows.inRange n' old
    · rwa [List.mem_singleton.mp new]
  case placed => exact shows.placed
  case tapped => exact shows.tapped

end Watch

namespace Page

variable {p : Page} {m : Move}

/-- An extension keeps its role. -/
theorem Sight.roles (sight : p.Sight m) : p.watch.roles <+: (p.make m).watch.roles := by
  cases sight with
  | shown x d coming pending showings notices watch =>
    rw [watch, Watch.roles_deliver]
    exact List.prefix_refl _
  | noticed n showings notices known watch =>
    rw [watch]
    exact List.prefix_refl _
  | told x b b' showings notices found previous loaded watch =>
    -- A bootstrap that is told something keeps whom it passes deliveries on to.
    rw [watch]
    have kept : (p.watch.extensions.set x (.bootstrap b')).map Extension.role = p.watch.roles :=
      Watch.roles_set found previous
    exact ⟨[], (List.append_nil _).trans kept.symm⟩
  | grown showings notices grows => exact grows.extensions.map Extension.role

/-! ## Runs -/

/-- The showings of a run, in order. -/
def shown (p : Page) (ms : List Move) : List (ExtensionId × Delivery) := p.along showings ms

/-- The showings that somebody calls for in a run. -/
def noticed (p : Page) (ms : List Move) : List Notice := p.along notices ms

theorem shown_concat (p : Page) (ms : List Move) (m : Move) :
    p.shown (ms ++ [m]) = p.shown ms ++ (p.follow ms).showings m := along_concat showings p ms m

theorem noticed_concat (p : Page) (ms : List Move) (m : Move) :
    p.noticed (ms ++ [m]) = p.noticed ms ++ (p.follow ms).notices m := along_concat notices p ms m

theorem shows_make {shown : List (ExtensionId × Delivery)} {noticed : List Notice}
    (shows : p.watch.Shows shown noticed) (sound : p.watch.Sound) (m : Move) :
    (p.make m).watch.Shows (shown ++ p.showings m) (noticed ++ p.notices m) := by
  have sight := sight sound m
  have roles := sight.roles
  cases sight with
  | shown x d coming pending showings notices watch =>
    rw [showings, notices, watch, List.append_nil]
    exact shows.deliver sound pending
  | noticed n showings notices known watch =>
    rw [showings, notices, watch, List.append_nil]
    refine shows.notice n ?_
    -- A runtime calls for a showing to its own extension, anybody else for one to a named extension.
    rcases known with ⟨r, installed⟩ | ⟨name, named⟩
    · exact sound.installed installed
    · exact sound.named named
  | told x b b' showings notices found previous loaded watch =>
    rw [showings, notices, List.append_nil, List.append_nil]
    exact shows.grows sound roles (by rw [watch]) (by rw [watch])
  | grown showings notices grows =>
    rw [showings, notices, List.append_nil, List.append_nil]
    exact shows.grows sound roles grows.coming grows.tapped

/-- **Along a run, extensions are shown what was called for.** -/
theorem showings_follow (onInject onHint : List (ChunkId × Script)) (ms : List Move) :
    ((fresh onInject onHint).follow ms).watch.Shows ((fresh onInject onHint).shown ms)
      ((fresh onInject onHint).noticed ms) := by
  induction ms using List.reverseRecOn with
  | nil => exact ⟨List.Perm.refl _, List.forall_mem_nil _, List.forall_mem_nil _, rfl⟩
  | append_singleton ms m ih =>
    have reached : ((fresh onInject onHint).follow ms).Reachable := (Reachable.fresh onInject onHint).follow ms
    rw [follow_append, shown_concat, noticed_concat]
    exact shows_make ih reached.watched m

end Page

end ChunkLoading
