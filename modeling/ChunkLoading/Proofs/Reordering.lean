import ChunkLoading.Proofs.Duplicates
import ChunkLoading.Proofs.Sequence
import ChunkLoading.Proofs.Settlement

/-!
# Deliveries in another order

Deliveries are pushed to a queue one after the other, each when the one before has returned, and nobody
calls back meanwhile. Then the consumers of the queue absorb them in that order (`pushes_return`), and
come to the same in every other order (`arrivals_commute`): only hints, and the order in which entries
run, can tell the orders apart.
-/

namespace ChunkLoading

/-! ## What happens in a merge -/

namespace Runtime

variable {rt : Runtime} {d : Delivery} {r : RuntimeId}

/-- Events of a kind that tells nothing leave nothing behind. -/
theorem filterMap_map_nil {α β : Type} {f : Event → Option β} {g : α → Event}
    (silent : ∀ a, f (g a) = none) (as : List α) : (as.map g).filterMap f = [] := by
  simp [silent]

/-- What is read off the ends of attempts and the runs of entries in a merge. -/
theorem filterMap_news {β : Type} {f : Event → Option β} (merged : f (.merged r d) = none)
    (loaded : ∀ c, f (.loaded r c) = none) (hinted : ∀ c, f (rt.options.hint r c .prefetch) = none)
    (registered : ∀ es, f (.registered r es) = none) : (rt.news r d).filterMap f =
      ((rt.ends d).map fun w => Event.resolved r w.1 w.2
        (Page.mergeResult d (rt.store.merge d).clashes)).filterMap f ++
      ((rt.runs d).map (Event.entered r ·)).filterMap f := by
  have entries : (if rt.worklist.isSome then [Event.registered r d.entries] else []).filterMap f =
      [] := by
    split
    · exact List.filterMap_cons_none (registered _)
    · rfl
  simp only [news, List.cons_append, List.filterMap_cons_none merged, List.filterMap_append, entries,
    filterMap_map_nil loaded, filterMap_map_nil hinted, List.nil_append, List.append_nil]
  rfl

/-- A merge runs entries of its own runtime. -/
theorem entered_news (rt : Runtime) (r r' : RuntimeId) (d : Delivery) :
    (rt.news r' d).filterMap (Event.entered? r) = if r' = r then rt.runs d else [] := by
  rw [filterMap_news rfl (fun _ => rfl) (fun _ => rfl) (fun _ => rfl),
    filterMap_map_nil fun _ => rfl, List.nil_append, List.filterMap_map]
  by_cases same : r' = r <;> simp [same, Function.comp_def, Event.entered?]

/-- A merge ends attempts of its own runtime, all with the same result. -/
theorem settled_news (rt : Runtime) (r r' : RuntimeId) (d : Delivery) :
    (rt.news r' d).filterMap (Event.settled? r) = if r' = r then
      (rt.ends d).map (·, Page.mergeResult d (rt.store.merge d).clashes) else [] := by
  rw [filterMap_news rfl (fun _ => rfl) (fun _ => rfl) (fun _ => rfl),
    filterMap_map_nil (g := Event.entered r') fun _ => rfl, List.append_nil, List.filterMap_map]
  by_cases same : r' = r <;> simp [same, Function.comp_def, Event.settled?]

end Runtime

namespace Page

variable {p q : Page} {r : RuntimeId} {d : Delivery} {ds : List Delivery} {queue : String}
  {rs : List RuntimeId}

/-- What is read off the log after deliveries were absorbed is what was there, and then the news of the runtime, if
it is one of those that absorbed them. -/
theorem Absorbed.filterMap_log {β : Type} (absorbed : p.Absorbed rs d q) (once : rs.Nodup)
    {f : Event → Option β} (beside : ∀ e, e.isCore = false → f e = none)
    (own : ∀ r', r' ≠ r → ((p.runtime r').news r' d).filterMap f = []) :
    q.log.reverse.filterMap f = p.log.reverse.filterMap f ++
      if r ∈ rs then ((p.runtime r).news r d).filterMap f else [] := by
  have news : (rs.flatMap fun r => (p.runtime r).news r d).filterMap f =
      if r ∈ rs then ((p.runtime r).news r d).filterMap f else [] := by
    clear absorbed
    induction rs with
    | nil => rfl
    | cons r' rs ih =>
      obtain ⟨absent, once⟩ := List.nodup_cons.mp once
      rw [List.flatMap_cons, List.filterMap_append, ih once]
      by_cases same : r' = r
      · subst same
        simp [absent]
      · simp [own r' same, Ne.symm same]
  rw [← filterMap_core beside q.log, ← filterMap_core beside p.log, ← news]
  show q.core.log.reverse.filterMap f = _
  rw [absorbed.events, List.reverse_append, List.reverse_reverse, List.filterMap_append]
  rfl

/-- The entries that run are those of the runtimes that absorbed the delivery. -/
theorem Absorbed.entered (absorbed : p.Absorbed rs d q) (once : rs.Nodup) (r : RuntimeId) :
    q.entered r = p.entered r ++ if r ∈ rs then (p.runtime r).runs d else [] := by
  have log := absorbed.filterMap_log (r := r) (f := Event.entered? r) once
    (fun e beside => by cases e <;> first | rfl | cases beside)
    (fun r' other => by rw [Runtime.entered_news, if_neg other])
  rwa [Runtime.entered_news, if_pos rfl] at log

/-- The attempts that end are those of the runtimes that absorbed the delivery. -/
theorem Absorbed.settlements (absorbed : p.Absorbed rs d q) (once : rs.Nodup) (r : RuntimeId) :
    q.settlements r = p.settlements r ++ if r ∈ rs then ((p.runtime r).ends d).map
      (·, mergeResult d ((p.runtime r).store.merge d).clashes) else [] := by
  have log := absorbed.filterMap_log (r := r) (f := Event.settled? r) once
    (fun e beside => by cases e <;> first | rfl | cases beside)
    (fun r' other => by rw [Runtime.settled_news, if_neg other])
  rwa [Runtime.settled_news, if_pos rfl] at log

/-! ## Pushes one after the other -/

/-- Deliveries are pushed to a queue, each when the push before it has returned. -/
inductive Pushes (queue : String) : List Delivery → Page → Page → Prop where
  | nil (p : Page) : Pushes queue [] p p
  | cons {p p' q : Page} {d : Delivery} {ds : List Delivery}
      (first : Returns p.agenda (p.push queue d) p') (rest : Pushes queue ds p' q) :
      Pushes queue (d :: ds) p q

/-- Nobody calls back while deliveries come: neither the extension of a runtime, nor the host when a chunk
is prefetched, nor any factory that the runtime has or gets. -/
structure Calm (p : Page) (r : RuntimeId) (ds : List Delivery) : Prop where
  extension : ∀ x, (p.runtime r).extension = some x → Quiet p.observer? x
  host : ∀ d ∈ ds, ∀ c ∈ d.prefetch, hostScript p.onHint c = []
  factories : ∀ m f, (p.store r).factory? m = some f ∨ (∃ d ∈ ds, (m, f) ∈ d.modules) →
    ∀ fac, p.factories[f]? = some fac → fac.script = []

/-- In calm nobody calls back while the first delivery is merged. -/
theorem Calm.undisturbed (calm : p.Calm r (d :: ds)) (unfailed : (p.store r).NoneFailed) :
    p.Undisturbed r d where
  extension := calm.extension
  host c member := by
    refine calm.host d List.mem_cons_self c ?_
    have given : c ∈ (p.runtime r).prefetched d := Store.mem_of_mem_hintAll member
    unfold Runtime.prefetched at given
    split at given
    · exact given
    · cases given
  factories e _ f found := by
    refine calm.factories e.entry f ?_
    rcases Runtime.source_absorb unfailed found with held | carried
    · exact .inl held
    · exact .inr ⟨d, List.mem_cons_self, carried⟩

/-- After the first delivery it is still calm for the others: scripts and factories are the same ones. -/
theorem Calm.absorbed (calm : p.Calm r (d :: ds)) (unfailed : (p.store r).NoneFailed)
    (absorbed : p.Absorbed rs d q) (member : r ∈ rs) : q.Calm r ds := by
  have same : q.runtime r = (p.runtime r).absorb d := by
    rw [absorbed.runtime, if_pos member]
  have onHint : q.onHint = p.onHint := by rw [absorbed.frame]
  have factories : q.factories = p.factories := by rw [absorbed.frame]
  constructor
  · rw [same, absorbed.observers]
    exact calm.extension
  · rw [onHint]
    exact fun d' later => calm.host d' (List.mem_cons_of_mem _ later)
  · rw [factories]
    intro m f found
    unfold store at found
    rw [same] at found
    refine calm.factories m f ?_
    rcases found with held | ⟨d', later, carried⟩
    · rcases Runtime.source_absorb unfailed held with before | carried
      · exact .inl before
      · exact .inr ⟨d, List.mem_cons_self, carried⟩
    · exact .inr ⟨d', List.mem_cons_of_mem _ later, carried⟩

/-- A push leaves the calm. -/
theorem Calm.push (calm : p.Calm r ds) (queue : String) (d : Delivery) : (p.push queue d).Calm r ds :=
  ⟨calm.extension, calm.host, calm.factories⟩

/-- Calm is a matter of all deliveries, in whatever order. -/
theorem Calm.perm {ds' : List Delivery} (calm : p.Calm r ds) (perm : ds.Perm ds') : p.Calm r ds' where
  extension := calm.extension
  host d member := calm.host d (perm.mem_iff.mpr member)
  factories m f found := calm.factories m f (by simpa only [perm.mem_iff] using found)

/-- Deliveries can be pushed to a queue: its consumers are there, nobody calls back, and the factories
agree. -/
structure Receptive (p : Page) (queue : String) (ds : List Delivery) : Prop where
  once : (p.queue queue).consumers.Nodup
  inRange : ∀ r ∈ (p.queue queue).consumers, r < p.runtimes.length
  unfailed : ∀ r ∈ (p.queue queue).consumers, (p.store r).NoneFailed
  calm : ∀ r ∈ (p.queue queue).consumers, p.Calm r ds
  agrees : ∀ r ∈ (p.queue queue).consumers, (p.runtime r).Agrees ds

/-- On a page of a run that is calm, with deliveries that agree, all that pushes need is there. -/
theorem Reachable.receptive (h : p.Reachable) (calm : ∀ r ∈ (p.queue queue).consumers, p.Calm r ds)
    (agrees : ∀ r ∈ (p.queue queue).consumers, (p.runtime r).Agrees ds) : p.Receptive queue ds where
  once := h.consumers_nodup queue
  inRange r member := h.sound.inRange r (alive_of_consumer member)
  unfailed r _ := h.sound.unfailed r
  calm := calm
  agrees := agrees

namespace Receptive

/-- Whether pushes return does not depend on the order of the deliveries. -/
theorem perm {ds' : List Delivery} (receptive : p.Receptive queue ds) (perm : ds.Perm ds') :
    p.Receptive queue ds' where
  once := receptive.once
  inRange := receptive.inRange
  unfailed := receptive.unfailed
  calm r member := (receptive.calm r member).perm perm
  agrees r member := (receptive.agrees r member).perm perm

/-- After one push the consumers find the same for the deliveries that follow. -/
theorem absorbed (receptive : p.Receptive queue (d :: ds))
    (absorbed : (p.push queue d).Absorbed (p.queue queue).consumers.reverse d q) :
    (q.queue queue).consumers = (p.queue queue).consumers ∧ q.Receptive queue ds := by
  have consumers : (q.queue queue).consumers = (p.queue queue).consumers := by
    rw [← consumers_push p queue d, absorbed.frame]
    rfl
  have absorbs (r : RuntimeId) (member : r ∈ (p.queue queue).consumers) :
      q.runtime r = (p.runtime r).absorb d := by
    rw [absorbed.runtime, if_pos (List.mem_reverse.mpr member)]
    rfl
  refine ⟨consumers, ?_⟩
  -- All that a runtime had to bring along it still has after it absorbed the first delivery.
  constructor <;> rw [consumers]
  · exact receptive.once
  · intro r member
    rw [absorbed.count]
    exact receptive.inRange r member
  · intro r member
    unfold store
    rw [absorbs r member]
    exact Runtime.unfailed_absorb (receptive.unfailed r member) d
  · intro r member
    exact ((receptive.calm r member).push queue d).absorbed (receptive.unfailed r member) absorbed
      (List.mem_reverse.mpr member)
  · intro r member
    rw [absorbs r member]
    exact (receptive.agrees r member).absorb (receptive.unfailed r member)

end Receptive

/-- **Calm pushes return, and then all consumers of the queue have absorbed the deliveries in order.** -/
theorem pushes_return (receptive : p.Receptive queue ds) :
    ∃ q, Pushes queue ds p q ∧ q.agenda = p.agenda ∧
      (∀ r, q.runtime r = if r ∈ (p.queue queue).consumers then (p.runtime r).absorbAll ds
        else p.runtime r) ∧
      (∀ r, q.entered r = p.entered r ++ if r ∈ (p.queue queue).consumers then
        (p.runtime r).along Runtime.runs ds else []) ∧
      ∀ r, q.settlements r = p.settlements r ++ if r ∈ (p.queue queue).consumers then
        ((p.runtime r).along Runtime.ends ds).map (·, .ok) else [] := by
  induction ds generalizing p with
  | nil =>
    have none {β : Type} (f : Runtime → Delivery → List β) (rt : Runtime) : rt.along f [] = [] := rfl
    refine ⟨p, .nil p, rfl, ?_, ?_, ?_⟩
    · simp [Runtime.absorbAll]
    · simp [none]
    · simp [none]
  | cons d ds ih =>
    -- The first delivery is absorbed by all consumers, and then the others by what they have become.
    obtain ⟨p', first, absorbed⟩ := push_returns receptive.once
      (fun r member => (receptive.calm r member).undisturbed (receptive.unfailed r member))
      receptive.inRange
    obtain ⟨consumers, receptive'⟩ := receptive.absorbed absorbed
    obtain ⟨q, rest, agenda, runtimes, entered, settlements⟩ := ih receptive'
    have runtime (r : RuntimeId) : p'.runtime r = if r ∈ (p.queue queue).consumers then
        (p.runtime r).absorb d else p.runtime r := by
      have same := absorbed.runtime r
      simp only [List.mem_reverse] at same
      exact same
    have once := List.nodup_reverse.mpr receptive.once
    refine ⟨q, .cons first rest, agenda.trans first.agenda_eq, ?_, ?_, ?_⟩
    · intro r
      rw [runtimes, consumers, runtime]
      split <;> rfl
    · intro r
      rw [entered, consumers, absorbed.entered once r, runtime]
      by_cases member : r ∈ (p.queue queue).consumers
      · simp only [member, List.mem_reverse, if_true, Runtime.along]
        exact List.append_assoc ..
      · simp only [member, List.mem_reverse, if_false, List.append_nil]
        rfl
    · intro r
      rw [settlements, consumers, absorbed.settlements once r, runtime]
      by_cases member : r ∈ (p.queue queue).consumers
      · -- No module of the delivery clashes, so that the attempts end well.
        have ok : mergeResult d (((p.push queue d).runtime r).store.merge d).clashes = .ok :=
          (receptive.agrees r member).mergeResult_eq (receptive.unfailed r member)
        simp only [member, List.mem_reverse, if_true, Runtime.along, ok, List.map_append]
        exact List.append_assoc ..
      · simp only [member, List.mem_reverse, if_false, List.append_nil]
        rfl

/-- A runtime for which nothing is underway has no entry that waits and could run. -/
theorem Reachable.awake (h : p.Reachable) (idle : p.agenda = []) (r : RuntimeId) :
    (p.runtime r).Awake := by
  obtain ⟨onInject, onHint, ms, rfl⟩ := h.exists_run
  intro e member
  cases waits : (((Page.fresh onInject onHint).follow ms).runtime r).worklist with
  | none =>
    rw [waits] at member
    cases member
  | some w =>
    have fair := (tracked_follow onInject onHint ms r).fair (Option.isSome_of_eq_some waits)
    rw [roster_core] at fair
    by_contra ready
    have due := fair.awake e member (eq_true_of_ne_false ready)
    simp [idle] at due

/-- **The order in which deliveries arrive does not matter.** Take any reachable page on which nothing is
going on, and deliveries whose factories agree with each other and with those that are there. Push them
to a queue one after the other, and push them in another order, while nobody calls back. The pushes
return both times, and for every runtime both come to the same: the states of its chunks, its modules,
the attempts that ended, all of the new ones without a failure, and, in some order, the entries that
ran and the entries that wait. -/
theorem arrivals_commute {ds' : List Delivery} (h : p.Reachable) (idle : p.agenda = [])
    (perm : ds.Perm ds') (agrees : ∀ r ∈ (p.queue queue).consumers, (p.runtime r).Agrees ds)
    (calm : ∀ r ∈ (p.queue queue).consumers, p.Calm r ds) :
    ∃ q q', Pushes queue ds p q ∧ Pushes queue ds' p q' ∧ q.agenda = [] ∧ q'.agenda = [] ∧
      ∀ r, (∀ c, (q.store r).state c = (q'.store r).state c) ∧
        (∀ m, (q.store r).factory? m = (q'.store r).factory? m) ∧
        (∀ n, (q.runtime r).outcomes.get? n = (q'.runtime r).outcomes.get? n) ∧
        (∃ ws ws' : List Trial, ws.Perm ws' ∧ q.settlements r = p.settlements r ++ ws.map (·, .ok) ∧
          q'.settlements r = p.settlements r ++ ws'.map (·, .ok)) ∧
        (∃ es es' : List DeferredEntry, es.Perm es' ∧ q.entered r = p.entered r ++ es ∧
          q'.entered r = p.entered r ++ es') ∧
        ((q.runtime r).worklist.getD []).Perm ((q'.runtime r).worklist.getD []) := by
  have receptive := h.receptive calm agrees
  obtain ⟨q, pushes, agenda, runtime, entered, settlements⟩ := pushes_return receptive
  obtain ⟨q', pushes', agenda', runtime', entered', settlements'⟩ := pushes_return (receptive.perm perm)
  refine ⟨q, q', pushes, pushes', agenda.trans idle, agenda'.trans idle, ?_⟩
  intro r
  unfold store
  rw [runtime, runtime', entered, entered', settlements, settlements']
  by_cases member : r ∈ (p.queue queue).consumers
  · simp only [member, if_true]
    obtain ⟨state, factory, outcomes, ends, runs, worklist⟩ :=
      Runtime.absorbAll_perm (h.sound.unfailed r) (h.awake idle r) (agrees r member) perm
    exact ⟨state, factory, outcomes, ⟨_, _, ends, rfl, rfl⟩, ⟨_, _, runs, rfl, rfl⟩, worklist⟩
  · -- The others get no delivery at all.
    rw [if_neg member, if_neg member, if_neg member, if_neg member, if_neg member, if_neg member]
    exact ⟨fun _ => rfl, fun _ => rfl, fun _ => rfl, ⟨[], [], .nil, rfl, rfl⟩, ⟨[], [], .nil, rfl, rfl⟩,
      .refl _⟩

/-- A delivery of the chunk that the awaited one prefetches and has an entry for, and that prefetches the
awaited chunk. -/
def following : Delivery := ⟨[.number 9], [(.number 5, 0)], [], [.number 8]⟩

/-- Two deliveries that agree on their module, of which each prefetches the chunk of the other. -/
theorem arrivals_commute_expecting :
    (∀ r ∈ (expecting.queue "chunks").consumers, (expecting.runtime r).Agrees [awaited, following] ∧
      expecting.Calm r [awaited, following]) ∧
    ∃ q q', Pushes "chunks" [awaited, following] expecting q ∧
      Pushes "chunks" [following, awaited] expecting q' ∧ q.agenda = [] ∧ q'.agenda = [] ∧
      (∀ c, (q.store 0).state c = (q'.store 0).state c) ∧
      ∀ m, (q.store 0).factory? m = (q'.store 0).factory? m := by
  have consumers : (expecting.queue "chunks").consumers = [0] := rfl
  have factories : expecting.factories = [⟨.number 5, none, []⟩] := rfl
  have held : (expecting.store 0).factories = ⟨[(.number 5, 0)]⟩ := rfl
  have carried (d : Delivery) (member : d ∈ [awaited, following]) : d.modules = [(.number 5, 0)] := by
    rcases List.mem_pair.mp member with rfl | rfl <;> rfl
  -- Both deliveries bring the factory that the runtime has already.
  have agrees : ∀ r ∈ (expecting.queue "chunks").consumers,
      (expecting.runtime r).Agrees [awaited, following] := by
    intro r member
    rw [consumers] at member
    obtain rfl := List.mem_singleton.mp member
    constructor
    · intro d first d' second m f f' here there
      rw [carried d first, List.mem_singleton] at here
      rw [carried d' second, List.mem_singleton] at there
      rw [(Prod.mk.inj here).2, (Prod.mk.inj there).2]
    · intro d first m f f' here there
      rw [carried d first, List.mem_singleton] at here
      obtain ⟨rfl, rfl⟩ := Prod.mk.inj here
      have found : (expecting.store 0).factory? (.number 5) = some 0 := by
        unfold Store.factory?
        rw [held]
        rfl
      exact Option.some.inj (found.symm.trans there)
  have calm : ∀ r ∈ (expecting.queue "chunks").consumers,
      expecting.Calm r [awaited, following] := by
    intro r member
    rw [consumers] at member
    obtain rfl := List.mem_singleton.mp member
    have extension : (expecting.runtime 0).extension = none := rfl
    refine ⟨fun x held => ?_, fun _ _ _ _ => rfl, fun m f _ fac held => ?_⟩
    · rw [extension] at held
      cases held
    · rw [factories] at held
      obtain rfl := List.mem_singleton.mp (List.mem_of_getElem? held)
      rfl
  obtain ⟨q, q', pushes, pushes', agenda, agenda', same⟩ :=
    arrivals_commute ((Reachable.fresh [] []).giveAll _ : expecting.Reachable) rfl
      (List.Perm.swap following awaited []) agrees calm
  exact ⟨fun r member => ⟨agrees r member, calm r member⟩, q, q', pushes, pushes', agenda, agenda',
    (same 0).1, (same 0).2.1⟩

end Page

end ChunkLoading
