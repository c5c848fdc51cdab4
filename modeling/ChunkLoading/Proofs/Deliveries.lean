import ChunkLoading.Proofs.Mail
import ChunkLoading.Proofs.Post

/-!
# Deliveries along runs

What a run does with deliveries is what the post does: the queues of a page, the merges that are to
be done and those that are done are those of a post that was asked for the same pushes and
installations (`posted_follow`). So every runtime on a queue merges every delivery of it once
(`deliveries_follow`), whatever calls back while deliveries are merged.
-/

namespace ChunkLoading.Page

variable {p : Page} {x : Post}

/-- What a move asks the post to do. -/
def errand (p : Page) : Move → Errand
  | .call .. | .poll .. => .nothing
  | .task =>
    match p.agenda with
    | .perform (.push queue spec) _ :: _ => .push queue (p.rest.addDelivery spec).1
    | .perform (.install name queue) _ :: _ =>
      match p.names.get? name with
      | some r => .install queue r
      | none => .nothing
    | .merge _ _ :: _ => .arrive
    | _ => .nothing

/-- What a run asks the post to do. -/
def errands (p : Page) : List Move → List Errand
  | [] => []
  | m :: ms => p.errand m :: (p.make m).errands ms

/-- The last move of a run is the last to ask the post for something. -/
theorem errands_concat (p : Page) (ms : List Move) (m : Move) :
    p.errands (ms ++ [m]) = p.errands ms ++ [(p.follow ms).errand m] := by
  induction ms generalizing p with
  | nil => rfl
  | cons m' ms ih => simp [errands, ih]

/-- The merges that were done, in order, with the runtimes that did them. -/
def merges (p : Page) : List (RuntimeId × Delivery) := p.log.reverse.filterMap Event.merge?

end Page

namespace Mail

def queue (m : Mail) (q : String) : Queue := (m.queues.get? q).getD .empty

/-- The mail is as a post has it. -/
structure Posted (m : Mail) (x : Post) : Prop where
  delivered : ∀ q, (m.queue q).delivered = x.delivered q
  consumers : ∀ q, (m.queue q).consumers = x.consumers q
  coming : m.coming = x.coming.map Parcel.content
  done : m.done = (x.arrived.map Parcel.content).reverse

variable {m : Mail} {x : Post}

theorem queue_set (m : Mail) (q : String) (new : Queue) (coming : List (RuntimeId × Delivery))
    (q' : String) : ({ m with queues := m.queues.set q new, coming := coming } : Mail).queue q' =
      if q = q' then new else m.queue q' := by
  simp only [queue, Assoc.get?_set]
  split <;> rfl

/-- A push is posted to all consumers of its queue. -/
theorem Posted.push (posted : m.Posted x) (q : String) (d : Delivery) :
    ({ m with
      queues := m.queues.set q { m.queue q with delivered := (m.queue q).delivered ++ [d] }
      coming := (m.queue q).consumers.reverse.map (·, d) ++ m.coming } : Mail).Posted
      (x.carry (.push q d)) := by
  constructor
  · intro q'
    rw [queue_set, Post.delivered_push]
    by_cases same : q = q'
    · simp [same, posted.delivered]
    · simp [same, Ne.symm same, posted.delivered]
  · intro q'
    rw [queue_set]
    split
    · rename_i same
      rw [← same]
      exact posted.consumers q
    · exact posted.consumers q'
  · simp [Post.carry, Parcel.content, posted.coming, posted.consumers, Function.comp_def]
  · exact posted.done

/-- A new consumer is sent what its queue has been given so far. -/
theorem Posted.install (posted : m.Posted x) {q : String} {r : RuntimeId}
    (new : r ∉ x.consumers q) :
    ({ m with
      queues := m.queues.set q { m.queue q with consumers := (m.queue q).consumers ++ [r] }
      coming := (m.queue q).delivered.map (r, ·) ++ m.coming } : Mail).Posted
      (x.carry (.install q r)) := by
  rw [Post.carry_install new]
  constructor
  · intro q'
    rw [queue_set]
    split
    · rename_i same
      rw [← same]
      exact posted.delivered q
    · exact posted.delivered q'
  · intro q'
    rw [queue_set]
    by_cases same : q = q'
    · simp [same, posted.consumers]
    · simp [same, Ne.symm same, posted.consumers]
  · -- The replay stands in front of what is on its way.
    simp [posted.coming, posted.delivered, Parcel.content_install]
  · exact posted.done

/-- A merge is the arrival of the parcel that comes next. -/
theorem Posted.arrive (posted : m.Posted x) {r : RuntimeId} {d : Delivery}
    {coming : List (RuntimeId × Delivery)} (next : m.coming = (r, d) :: coming) :
    ({ m with coming := coming, done := (r, d) :: m.done } : Mail).Posted (x.carry .arrive) := by
  obtain ⟨y, ys, parcels, content, others⟩ :=
    List.map_eq_cons_iff.mp (posted.coming.symm.trans next)
  refine ⟨posted.delivered, posted.consumers, ?_, ?_⟩
  · simp [Post.carry, parcels, others]
  · simp [Post.carry, parcels, content, posted.done]

end Mail

namespace Page

variable {p : Page} {x : Post}

theorem mail_rest {t : Task} {ts : List Task} (agenda : p.agenda = t :: ts)
    (beside : t.merges = []) : p.rest.mail = p.mail := by
  apply Mail.ext <;> simp [mail, rest, agenda, beside]

/-- Whoever is installed again is sent nothing again. -/
theorem posted_install (posted : p.mail.Posted x) (q : String) (r : RuntimeId) :
    (p.install r q).mail.Posted (x.carry (.install q r)) := by
  have consumers : (p.queue q).consumers = x.consumers q := posted.consumers q
  by_cases old : r ∈ x.consumers q
  · rw [Post.carry_install_again old, install_again (by rwa [consumers])]
    exact posted
  · rw [mail_install (by rwa [consumers])]
    exact posted.install old

/-- A command asks the post to push, to install or to do nothing. -/
theorem posted_perform (posted : p.mail.Posted x) {command : Command} {nested : Bool}
    {ts : List Task} (agenda : p.agenda = .perform command nested :: ts) :
    (p.rest.perform nested command).mail.Posted (x.carry (p.errand .task)) := by
  have rest : p.rest.mail.Posted x := by
    rw [mail_rest agenda rfl]
    exact posted
  have made (ms : List (ModuleSpec Command)) : (p.rest.addModules ms).2.mail.Posted x := by
    rw [mail_addModules]
    exact ⟨rest.delivered, rest.consumers, rest.coming, rest.done⟩
  cases command with
  | push queue spec =>
    have errand : p.errand .task = .push queue (p.rest.addDelivery spec).1 := by
      simp [Page.errand, agenda]
    -- The modules of the delivery are made before it is pushed.
    have pushed := mail_push ((p.rest.addModules spec.modules).2.answerWith nested .done) queue
      (p.rest.addDelivery spec).1
    rw [errand]
    exact pushed ▸ (made spec.modules).push queue _
  | install name queue =>
    simp only [perform, withRuntime]
    cases named : p.names.get? name with
    | none =>
      have errand : p.errand .task = .nothing := by simp [Page.errand, agenda, named]
      -- There is no runtime of that name to install.
      rw [errand, show p.rest.names.get? name = none from named]
      exact rest
    | some r =>
      have errand : p.errand .task = .install queue r := by simp [Page.errand, agenda, named]
      rw [errand, show p.rest.names.get? name = some r from named]
      exact posted_install (p := p.rest.call [.conclude .done nested (some r)]) rest queue r
  | observe hot spec =>
    have errand : p.errand .task = .nothing := by simp [Page.errand, agenda]
    -- A delivery that is shown to a bootstrap is in no queue.
    rw [errand, mail_perform_observe]
    exact made spec.modules
  | receive hot c specs =>
    have errand : p.errand .task = .nothing := by simp [Page.errand, agenda]
    rw [errand, mail_perform_receive]
    exact made specs
  | _ =>
    have errand : p.errand .task = .nothing := by simp [Page.errand, agenda]
    rw [errand, mail_perform rfl nested]
    exact rest

/-- **A move does with deliveries what the post does.** -/
theorem posted_make (posted : p.mail.Posted x) (m : Move) :
    (p.make m).mail.Posted (x.carry (p.errand m)) := by
  cases m with
  | call command nested => exact posted
  | poll next => exact posted
  | task =>
    cases agenda : p.agenda with
    | nil =>
      have still : p.make .task = p := by simp [make, step, agenda]
      have errand : p.errand .task = .nothing := by simp [Page.errand, agenda]
      rw [still, errand]
      exact posted
    | cons t ts =>
      rw [make_task agenda]
      cases t with
      | perform command nested => exact posted_perform posted agenda
      | merge r d =>
        -- The task of a merge is the parcel that is due.
        have next : p.mail.coming = (r, d) :: p.rest.mail.coming := by
          simp [mail, Page.rest, agenda, Task.merges]
        have errand : p.errand .task = .arrive := by simp [Page.errand, agenda]
        rw [errand, act, mail_merge]
        exact posted.arrive next
      | _ =>
        have errand : p.errand .task = .nothing := by simp [Page.errand, agenda]
        rw [errand, mail_act rfl (by simp), mail_rest agenda rfl]
        exact posted

/-- The mail of a page is the post that its run has made. -/
theorem posted_follow (onInject onHint : List (ChunkId × Script)) (ms : List Move) :
    ((fresh onInject onHint).follow ms).mail.Posted
      (Post.after ((fresh onInject onHint).errands ms)) := by
  induction ms using List.reverseRecOn with
  | nil => exact ⟨fun _ => rfl, fun _ => rfl, rfl, rfl⟩
  | append_singleton ms m ih =>
    rw [errands_concat, follow_append, Post.after_concat]
    exact posted_make ih m

/-- No runtime is installed twice on a queue. -/
theorem Reachable.consumers_nodup (h : p.Reachable) (q : String) : (p.queue q).consumers.Nodup := by
  -- The post behind a page depends on its run, but there is one.
  obtain ⟨x, exact, posted⟩ : ∃ x : Post, x.Exact ∧ p.mail.Posted x := by
    induction h with
    | fresh onInject onHint => exact ⟨.empty, Post.exact_empty, fun _ => rfl, fun _ => rfl, rfl, rfl⟩
    | make m h ih =>
      obtain ⟨x, exact, posted⟩ := ih
      exact ⟨_, exact.carry _, posted_make posted m⟩
  have consumers : (p.queue q).consumers = x.consumers q := posted.consumers q
  rw [consumers]
  exact exact.consumers q

/-- The deliveries that a run pushes to a queue, in order. -/
def pushed (p : Page) (q : String) (ms : List Move) : List Delivery :=
  (p.errands ms).filterMap (Errand.pushed? q)

/-- The runtimes that a run installs on a queue, in order. -/
def installed (p : Page) (q : String) (ms : List Move) : List RuntimeId :=
  (p.errands ms).filterMap (Errand.installed? q)

/-- The parcels that have arrived in a run, and those that are on their way after it. -/
def post (p : Page) (ms : List Move) : Post := Post.after (p.errands ms)

variable {onInject onHint : List (ChunkId × Script)} {ms : List Move} {q : String} {r : RuntimeId}

/-- As long as no merge is to be done, no parcel is on its way. -/
theorem coming_eq_nil
    (none : ((fresh onInject onHint).follow ms).agenda.flatMap Task.merges = []) :
    ((fresh onInject onHint).post ms).coming = [] :=
  List.map_eq_nil_iff.mp ((posted_follow onInject onHint ms).coming.symm.trans none)

/-- A consumer is sent every number of its queue once. -/
theorem numbers_perm (consumer : r ∈ (fresh onInject onHint).installed q ms) :
    (((fresh onInject onHint).post ms).numbers q r).Perm
      (List.range ((fresh onInject onHint).pushed q ms).length) := by
  unfold pushed
  rw [← Post.delivered_after]
  exact (Post.exact_after _).sent q r ((Post.mem_consumers_after ..).mpr consumer)

/-- When no merge is to be done, every delivery of a queue has arrived at its consumers. -/
theorem arrived_perm (consumer : r ∈ (fresh onInject onHint).installed q ms)
    (none : ((fresh onInject onHint).follow ms).agenda.flatMap Task.merges = []) :
    (Parcel.numbers q r ((fresh onInject onHint).post ms).arrived).Perm
      (List.range ((fresh onInject onHint).pushed q ms).length) := by
  have sent := numbers_perm consumer
  rwa [Post.numbers, coming_eq_nil none, List.append_nil] at sent

/-- **Every runtime on a queue merges every delivery once.** Take any run of a page. Its merges are
the arrivals of parcels, each of which holds the delivery that was pushed to its queue under its
number. A runtime that was installed on a queue, before or after a push or while deliveries were being
merged, is sent each delivery of that queue once; so when nothing is going on, it has merged each
once through that queue. A runtime that was not installed there has merged nothing through it. -/
theorem deliveries_follow (run : (fresh onInject onHint).follow ms = p) :
    p.merges = ((fresh onInject onHint).post ms).arrived.map Parcel.content ∧
    (∀ y ∈ ((fresh onInject onHint).post ms).arrived,
      ((fresh onInject onHint).pushed y.queue ms)[y.number]? = some y.delivery) ∧
    ∀ q r,
      (r ∈ (fresh onInject onHint).installed q ms →
        (((fresh onInject onHint).post ms).numbers q r).Perm
          (List.range ((fresh onInject onHint).pushed q ms).length) ∧
        (p.agenda = [] →
          (Parcel.numbers q r ((fresh onInject onHint).post ms).arrived).Perm
            (List.range ((fresh onInject onHint).pushed q ms).length))) ∧
      (r ∉ (fresh onInject onHint).installed q ms →
        Parcel.numbers q r ((fresh onInject onHint).post ms).arrived = []) := by
  have posted := posted_follow onInject onHint ms
  rw [run] at posted
  have exact := Post.exact_after ((fresh onInject onHint).errands ms)
  refine ⟨?_, ?_, ?_⟩
  · -- The events of the page list the merges as the post lists the arrivals.
    have done : p.merges = p.mail.done.reverse := List.filterMap_reverse ..
    rw [done, posted.done, List.reverse_reverse]
    rfl
  · -- A parcel holds what was pushed under its number.
    intro y member
    unfold pushed
    rw [← Post.delivered_after]
    exact exact.content y (List.mem_append_left _ member)
  · intro q r
    constructor
    · intro consumer
      refine ⟨numbers_perm consumer, fun quiet => arrived_perm consumer ?_⟩
      rw [run, quiet]
      rfl
    · intro absent
      -- Whoever is not installed is sent nothing.
      have absent := mt (Post.mem_consumers_after ..).mp absent
      have unsent := exact.unsent q r absent
      rw [Post.numbers, Parcel.numbers_append, List.append_eq_nil_iff] at unsent
      exact unsent.1

/-- A runtime is installed; a delivery whose entry pushes another one is pushed; and a second runtime,
which runs no entries, is installed afterwards. -/
def relayed : List Move :=
  List.flatMap (fun x => .call x.1 false :: List.replicate x.2 .task)
    [(.create "main" (.ok .standard) none, 2), (.install "main" "chunks", 2),
      (.create "late" (.ok { Blueprint.standard with entryDeferral := false }) none, 2),
      (.push "chunks" ⟨[.number 7], [⟨.number 5, none, [.push "chunks" ⟨[.number 8], [], [], []⟩]⟩],
        [⟨.number 5, [.number 7]⟩], []⟩, 12),
      (.install "late" "chunks", 8)]

theorem deliveries_relayed : ((fresh [] []).follow relayed).agenda = [] ∧
    ((fresh [] []).pushed "chunks" relayed).length = 2 ∧
    (Parcel.numbers "chunks" 0 ((fresh [] []).post relayed).arrived).Perm [0, 1] ∧
    (Parcel.numbers "chunks" 1 ((fresh [] []).post relayed).arrived).Perm [0, 1] := by
  have quiet : ((fresh [] []).follow relayed).agenda = [] := rfl
  have pushed : ((fresh [] []).pushed "chunks" relayed).length = 2 := rfl
  have installed : (fresh [] []).installed "chunks" relayed = [0, 1] := rfl
  have run : (fresh [] []).follow relayed = (fresh [] []).follow relayed := rfl
  obtain ⟨-, -, once⟩ := deliveries_follow run
  have merged (r : RuntimeId) (member : r ∈ [0, 1]) :
      (Parcel.numbers "chunks" r ((fresh [] []).post relayed).arrived).Perm [0, 1] := by
    have all := ((once "chunks" r).1 (installed ▸ member)).2 quiet
    rwa [pushed] at all
  exact ⟨quiet, pushed, merged 0 (by simp), merged 1 (by simp)⟩

end Page

end ChunkLoading
