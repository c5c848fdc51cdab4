import ChunkLoading.Proofs.Mail
import ChunkLoading.Proofs.Soundness

/-!
# The supply of factories

A factory is known by its number, so that numbers must lead to factories. They are handed out when
factories are made, go into queues with deliveries, from there to the tasks that merge them, and last
into the tables of runtimes. `Reachable.known` says that on every page every table holds numbers of
factories that exist.
-/

namespace ChunkLoading

/-- The deliveries that a task merges. -/
def Task.merging : Task → List Delivery
  | .merge _ d => [d]
  | _ => []

/-- Where numbers of factories come from, as far as tables are concerned. -/
structure Supply where
  /-- The number of factories. -/
  count : Nat
  keyed : Assoc String FactoryId
  queues : Assoc String Queue
  /-- The deliveries that are still to be merged. -/
  merging : List Delivery

/-- The supply is a part of the mail. -/
def Mail.supply (x : Mail) : Supply := ⟨x.count, x.keyed, x.queues, x.coming.map (·.2)⟩

/-- Whether the factories of a delivery exist. -/
def Delivery.Known (count : Nat) (d : Delivery) : Prop := ∀ x ∈ d.modules, x.2 < count

/-- All numbers lead to factories. -/
structure Supply.Known (s : Supply) : Prop where
  keyed : ∀ x ∈ s.keyed.entries, x.2 < s.count
  queues : ∀ x ∈ s.queues.entries, ∀ d ∈ x.2.delivered, d.Known s.count
  merging : ∀ d ∈ s.merging, d.Known s.count

namespace Page

variable {p : Page} {r : RuntimeId}

def supply (p : Page) : Supply where
  count := p.factories.length
  keyed := p.keyed
  queues := p.queues
  merging := p.agenda.flatMap Task.merging

/-- What is called adds the deliveries that it is going to merge. -/
theorem supply_call (p : Page) (ts : List Task) : (p.call ts).supply =
    { p.supply with merging := ts.flatMap Task.merging ++ p.supply.merging } := by
  simp [supply, call]

/-- The supply forgets which runtime merges which delivery. -/
theorem supply_eq_mail (p : Page) : p.supply = p.mail.supply := by
  have merging : p.agenda.flatMap Task.merging = (p.agenda.flatMap Task.merges).map (·.2) := by
    rw [List.map_flatMap]
    congr 1
    funext t
    cases t <;> rfl
  simp only [supply, merging]
  rfl

/-- What leaves the mail alone leaves the supply alone. -/
theorem supply_of_mail {q : Page} (same : q.mail = p.mail) : q.supply = p.supply := by
  rw [supply_eq_mail, supply_eq_mail, same]

/-! ## What changes the supply -/

/-- Factories stay where they are. -/
theorem known_of_le {count count' : Nat} {d : Delivery} (known : d.Known count)
    (le : count ≤ count') : d.Known count' :=
  fun x member => Nat.lt_of_lt_of_le (known x member) le

/-- More factories do no harm. -/
theorem known_more {s : Supply} (known : s.Known) {count : Nat} (le : s.count ≤ count)
    {keyed : Assoc String FactoryId} (numbers : ∀ x ∈ keyed.entries, x.2 < count) :
    { s with count := count, keyed := keyed }.Known := by
  refine ⟨numbers, ?_, ?_⟩
  · intro x member d delivered
    exact known_of_le (known.queues x member d delivered) le
  · intro d member
    exact known_of_le (known.merging d member) le

/-- A factory that is made or found exists. -/
theorem known_addFactory (known : p.supply.Known) (m : ModuleSpec Command) :
    (p.addFactory m).2.supply.Known ∧ p.factories.length ≤ (p.addFactory m).2.factories.length ∧
      (p.addFactory m).1 < (p.addFactory m).2.factories.length := by
  let made : List Factory := p.factories ++ [⟨m.id, m.key, m.script⟩]
  have more : p.factories.length < made.length := by
    simp [made]
  have old (x : String × FactoryId) (member : x ∈ p.keyed.entries) : x.2 < made.length :=
    Nat.lt_trans (known.keyed x member) more
  unfold addFactory
  split
  · -- A module without a key is made anew.
    exact ⟨known_more known (Nat.le_of_lt more) old, Nat.le_of_lt more, more⟩
  · rename_i key keyed
    split
    · rename_i f found
      -- A key that is taken names the factory that there is.
      exact ⟨known, Nat.le_refl _, known.keyed _ (Assoc.mem_of_get? found)⟩
    · -- The new factory is the one of its key.
      refine ⟨known_more known (Nat.le_of_lt more) ?_, Nat.le_of_lt more, more⟩
      intro x member
      rcases Assoc.mem_of_mem_set member with rfl | member
      · exact more
      · exact old x member

/-- The modules of a delivery are made before it goes anywhere. -/
theorem known_addModules (known : p.supply.Known) (ms : List (ModuleSpec Command)) :
    (p.addModules ms).2.supply.Known ∧ p.factories.length ≤ (p.addModules ms).2.factories.length ∧
      ∀ x ∈ (p.addModules ms).1, x.2 < (p.addModules ms).2.factories.length := by
  induction ms generalizing p with
  | nil => exact ⟨known, Nat.le_refl _, by simp [addModules]⟩
  | cons m ms ih =>
    obtain ⟨first, le, new⟩ := known_addFactory known m
    obtain ⟨rest, le', news⟩ := ih first
    refine ⟨rest, Nat.le_trans le le', ?_⟩
    intro x member
    rcases List.mem_cons.mp member with rfl | member
    · exact Nat.lt_of_lt_of_le new le'
    · exact news x member

/-- The deliveries of a queue have factories that exist. -/
theorem known_queue (known : p.supply.Known) (name : String) :
    ∀ d ∈ (p.queue name).delivered, d.Known p.factories.length := by
  intro d member
  cases found : p.queues.get? name with
  | none => simp [queue, found, Queue.empty] at member
  | some q =>
    simp only [queue, found, Option.getD_some] at member
    exact known.queues _ (Assoc.mem_of_get? found) d member

/-- A queue replays to a new consumer only what it has been given. -/
theorem known_install (known : p.supply.Known) (r : RuntimeId) (name : String) :
    (p.install r name).supply.Known := by
  simp only [install]
  split
  · exact known
  · rw [supply_call]
    refine ⟨known.keyed, ?_, ?_⟩
    · intro x member d delivered
      rcases Assoc.mem_of_mem_set member with rfl | member
      · exact known_queue known name d delivered
      · exact known.queues x member d delivered
    · intro d member
      rcases List.mem_append.mp member with member | member
      · -- A runtime that is installed merges what was delivered before.
        have replayed : d ∈ (p.queue name).delivered := by
          simpa [Task.merging, List.flatMap_map] using member
        exact known_queue known name d replayed
      · exact known.merging d member

/-- A delivery with known factories may be pushed. -/
theorem known_push (known : p.supply.Known) (name : String) {d : Delivery}
    (carried : d.Known p.factories.length) : (p.push name d).supply.Known := by
  unfold push
  rw [supply_call]
  refine ⟨known.keyed, ?_, ?_⟩
  · -- The queue remembers the delivery.
    intro x member d' delivered
    rcases Assoc.mem_of_mem_set member with rfl | member
    · rcases List.mem_append.mp delivered with delivered | delivered
      · exact known_queue known name d' delivered
      · exact List.mem_singleton.mp delivered ▸ carried
    · exact known.queues x member d' delivered
  · -- Its consumers merge the delivery.
    intro d' member
    rcases List.mem_append.mp member with member | member
    · obtain ⟨t, task, merged⟩ := List.mem_flatMap.mp member
      obtain ⟨r, -, rfl⟩ := List.mem_map.mp task
      exact List.mem_singleton.mp merged ▸ carried
    · exact known.merging d' member

theorem known_perform (known : p.supply.Known) (nested : Bool) (command : Command) :
    (p.perform nested command).supply.Known ∧
      p.supply.count ≤ (p.perform nested command).supply.count := by
  by_cases supplies : command.supplies
  · cases command with
    | install name queue =>
      simp only [perform, withRuntime]
      split
      · rename_i r named
        have concluding : (p.call [.conclude .done nested (some r)]).supply = p.supply := rfl
        refine ⟨known_install (concluding ▸ known) r queue, ?_⟩
        simp only [install]
        -- The runtime may be on the queue already, and then nothing is replayed.
        split
        · exact Nat.le_refl _
        · exact Nat.le_refl _
      · exact ⟨known, Nat.le_refl _⟩
    | push queue spec =>
      -- The delivery that is pushed carries the factories just made.
      obtain ⟨made, le, carried⟩ := known_addModules known spec.modules
      exact ⟨known_push (p := (p.addModules spec.modules).2.answerWith nested .done) made queue
        carried, le⟩
    | observe hot spec =>
      obtain ⟨made, le, -⟩ := known_addModules known spec.modules
      rw [supply_of_mail (mail_perform_observe p nested hot spec)]
      exact ⟨made, le⟩
    | receive hot c specs =>
      obtain ⟨made, le, -⟩ := known_addModules known specs
      rw [supply_of_mail (mail_perform_receive p nested hot c specs)]
      exact ⟨made, le⟩
    | _ => cases supplies
  · rw [supply_of_mail (mail_perform (by simpa using supplies) nested)]
    exact ⟨known, Nat.le_refl _⟩

/-! ## Along runs -/

theorem known_rest (known : p.supply.Known) : p.rest.supply.Known := by
  refine ⟨known.keyed, known.queues, fun d member => known.merging d ?_⟩
  obtain ⟨t, task, merged⟩ := List.mem_flatMap.mp member
  exact List.mem_flatMap.mpr ⟨t, List.mem_of_mem_tail task, merged⟩

theorem known_make (known : p.supply.Known) (m : Move) :
    (p.make m).supply.Known ∧ p.supply.count ≤ (p.make m).supply.count := by
  cases m with
  | call command nested => exact ⟨known, Nat.le_refl _⟩
  | poll next => exact ⟨known, Nat.le_refl _⟩
  | task =>
    cases agenda : p.agenda with
    | nil =>
      have still : p.make .task = p := by simp [make, step, agenda]
      rw [still]
      exact ⟨known, Nat.le_refl _⟩
    | cons t ts =>
      rw [make_task agenda]
      cases t with
      | perform command nested => exact known_perform (known_rest known) nested command
      | merge r d =>
        -- The delivery was in the supply before it came to be merged.
        have kept : (p.rest.act (.merge r d)).supply = p.rest.supply := by
          rw [supply_eq_mail, supply_eq_mail, act, mail_merge]
          rfl
        rw [kept]
        exact ⟨known_rest known, Nat.le_refl _⟩
      | _ =>
        rw [supply_of_mail (mail_act rfl (by simp))]
        exact ⟨known_rest known, Nat.le_refl _⟩

/-- Whatever is still to be merged has factories that exist. -/
theorem Reachable.known_supply (h : p.Reachable) : p.supply.Known := by
  induction h with
  | fresh onInject onHint => constructor <;> simp [supply, Page.fresh, Assoc.empty]
  | make m h ih => exact (known_make ih m).1

/-- **The factories in the tables of runtimes exist.** -/
theorem Reachable.known (h : p.Reachable) {r : RuntimeId} {x : ModuleId} {f : FactoryId}
    (held : (p.store r).factory? x = some f) : f < p.factories.length := by
  induction h generalizing x f with
  | fresh onInject onHint => cases held
  | make m h ih =>
    rename_i p
    have more : p.factories.length ≤ (p.make m).factories.length := (known_make h.known_supply m).2
    rcases (h.turn m).factory_source h.sound held with before | ⟨d, merging, carried⟩
    · -- The factory was in the table before.
      exact Nat.lt_of_lt_of_le (ih before) more
    · -- The delivery was on its way to be merged.
      have delivered : d ∈ p.supply.merging :=
        List.mem_flatMap.mpr ⟨_, merging, List.mem_singleton_self d⟩
      exact Nat.lt_of_lt_of_le (h.known_supply.merging d delivered _ carried) more

end Page

end ChunkLoading
