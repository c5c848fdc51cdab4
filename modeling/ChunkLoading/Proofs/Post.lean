import ChunkLoading.Page.Delivery
import Mathlib.Data.List.Induction
import Mathlib.Data.List.Nodup
import Mathlib.Logic.Function.Basic

/-!
# The post

Deliveries go through queues to runtimes. A parcel is one delivery of a queue on its way to one
runtime; a push sends a parcel to every consumer of the queue, and an installation sends the new
consumer one for every delivery that was pushed before. `Post.Exact` is the invariant of all that:
each consumer is sent each delivery of its queue once. Parcels arrive in the order in which their
deliveries were pushed exactly if no delivery is pushed while a parcel is on its way
(`Post.inOrder_after`).
-/

namespace ChunkLoading

/-- A delivery of a queue on its way to a runtime. -/
structure Parcel where
  queue : String
  /-- The number of the delivery, counted from zero in its queue. -/
  number : Nat
  runtime : RuntimeId
  delivery : Delivery
  deriving DecidableEq

/-- What the post is asked to do. -/
inductive Errand where
  | nothing
  | push (queue : String) (d : Delivery)
  | install (queue : String) (r : RuntimeId)
  /-- The parcel that comes next arrives. -/
  | arrive

namespace Errand

/-- The delivery that an errand pushes to a queue. -/
def pushed? (q : String) : Errand → Option Delivery
  | .push q' d => if q' = q then some d else none
  | _ => none

/-- The runtime that an errand installs on a queue. -/
def installed? (q : String) : Errand → Option RuntimeId
  | .install q' r => if q' = q then some r else none
  | _ => none

end Errand

structure Post where
  /-- The deliveries that were pushed to a queue, in order. -/
  delivered : String → List Delivery
  /-- The runtimes that are installed on a queue, in order. -/
  consumers : String → List RuntimeId
  /-- The parcels that are on their way, the one that comes next first. -/
  coming : List Parcel
  /-- The parcels that have arrived, in order. -/
  arrived : List Parcel

namespace Parcel

/-- What the runtime of a parcel merges when it arrives. -/
def content (y : Parcel) : RuntimeId × Delivery := (y.runtime, y.delivery)

/-- Whether a parcel goes through a queue to a runtime. -/
def goes (q : String) (r : RuntimeId) (y : Parcel) : Bool := y.queue = q && y.runtime = r

/-- The numbers of the deliveries that parcels bring through a queue to a runtime, in order. -/
def numbers (q : String) (r : RuntimeId) (ys : List Parcel) : List Nat :=
  (ys.filter (goes q r)).map number

variable {q : String} {r : RuntimeId}

@[simp] theorem numbers_append (ys zs : List Parcel) :
    numbers q r (ys ++ zs) = numbers q r ys ++ numbers q r zs := by
  simp [numbers]

/-- Parcels of one delivery bring its number to each runtime that they go to. -/
theorem numbers_push {rs : List RuntimeId} (once : rs.Nodup) (q' : String) (n : Nat)
    (d : Delivery) : numbers q r (rs.map (⟨q', n, ·, d⟩)) = if q' = q ∧ r ∈ rs then [n] else [] := by
  induction rs with
  | nil => simp [numbers]
  | cons r' rs ih =>
    obtain ⟨absent, once⟩ := List.nodup_cons.mp once
    have rest := ih once
    unfold numbers at rest ⊢
    by_cases here : q' = q ∧ r' = r
    · -- No other parcel of the push goes to this runtime.
      obtain ⟨rfl, rfl⟩ := here
      simp_all [goes]
    · have skipped : goes q r ⟨q', n, r', d⟩ = false := by simpa [goes] using here
      rw [List.map_cons, List.filter_cons_of_neg (by simp [skipped]), rest]
      by_cases queue : q' = q
      · have other : r ≠ r' := fun same => here ⟨queue, same.symm⟩
        simp [other]
      · simp [queue]

/-- Parcels of all deliveries of a queue bring their numbers in order. -/
theorem numbers_install (ds : List Delivery) (q' : String) (r' : RuntimeId) :
    numbers q r (ds.mapIdx fun n d => ⟨q', n, r', d⟩) =
      if q' = q ∧ r' = r then List.range ds.length else [] := by
  unfold numbers
  by_cases here : q' = q ∧ r' = r
  · obtain ⟨rfl, rfl⟩ := here
    rw [if_pos ⟨rfl, rfl⟩, List.filter_eq_self.mpr]
    · apply List.ext_getElem <;> simp
    · intro y member
      obtain ⟨n, inside, rfl⟩ := List.mem_mapIdx.mp member
      simp [goes]
  · rw [if_neg here, List.filter_eq_nil_iff.mpr]
    · rfl
    · intro y member
      obtain ⟨n, inside, rfl⟩ := List.mem_mapIdx.mp member
      simpa [goes] using here

/-- An installation sends what was pushed before, in order. -/
theorem content_install (ds : List Delivery) (q : String) (r : RuntimeId) :
    (ds.mapIdx fun n d => (⟨q, n, r, d⟩ : Parcel)).map content = ds.map (r, ·) := by
  apply List.ext_getElem <;> simp [content]

end Parcel

namespace Post

open Parcel

variable {x : Post} {q : String} {r : RuntimeId}

def empty : Post := ⟨fun _ => [], fun _ => [], [], []⟩

/-- Does what is asked. -/
def carry (x : Post) : Errand → Post
  | .nothing => x
  | .push q d =>
    -- The consumer that came last gets it first, and all of them get it before what is on its way.
    { x with
      delivered := Function.update x.delivered q (x.delivered q ++ [d])
      coming := (x.consumers q).reverse.map (⟨q, (x.delivered q).length, ·, d⟩) ++ x.coming }
  | .install q r =>
    -- Who is installed already gets nothing again.
    if r ∈ x.consumers q then x
    else
      { x with
        consumers := Function.update x.consumers q (x.consumers q ++ [r])
        coming := (x.delivered q).mapIdx (⟨q, ·, r, ·⟩) ++ x.coming }
  | .arrive => { x with coming := x.coming.tail, arrived := x.arrived ++ x.coming.take 1 }

/-- The post after errands. -/
def after (es : List Errand) : Post := es.foldl carry empty

/-- The last errand is carried out last. -/
@[simp] theorem after_concat (es : List Errand) (e : Errand) :
    after (es ++ [e]) = (after es).carry e := by
  simp [after]

/-- The numbers of the deliveries that a runtime was sent through a queue, in the order in which
their parcels arrive. -/
def numbers (x : Post) (q : String) (r : RuntimeId) : List Nat :=
  Parcel.numbers q r (x.arrived ++ x.coming)

/-! ## Every consumer is sent every delivery once -/

structure Exact (x : Post) : Prop where
  /-- A parcel holds the delivery that its number says. -/
  content : ∀ y ∈ x.arrived ++ x.coming, (x.delivered y.queue)[y.number]? = some y.delivery
  consumers : ∀ q, (x.consumers q).Nodup
  sent : ∀ q r, r ∈ x.consumers q → (x.numbers q r).Perm (List.range (x.delivered q).length)
  unsent : ∀ q r, r ∉ x.consumers q → x.numbers q r = []

/-- A push adds its delivery to its queue. -/
theorem delivered_push (x : Post) (q : String) (d : Delivery) (q' : String) :
    (x.carry (.push q d)).delivered q' =
      if q' = q then x.delivered q ++ [d] else x.delivered q' :=
  Function.update_apply ..

/-- A push sends its number to each consumer of the queue, before the parcels that are on their way. -/
theorem numbers_push (exact : x.Exact) (q : String) (d : Delivery) (q' : String) (r : RuntimeId) :
    (x.carry (.push q d)).numbers q' r = Parcel.numbers q' r x.arrived ++
      ((if q = q' ∧ r ∈ x.consumers q then [(x.delivered q).length] else []) ++
        Parcel.numbers q' r x.coming) := by
  have once : (x.consumers q).reverse.Nodup := List.nodup_reverse.mpr (exact.consumers q)
  simp only [numbers, carry, numbers_append, Parcel.numbers_push once, List.mem_reverse]

/-- A new consumer is sent all that its queue has got, before the parcels that are on their way. -/
theorem carry_install (new : r ∉ x.consumers q) : x.carry (.install q r) =
    { x with
      consumers := Function.update x.consumers q (x.consumers q ++ [r])
      coming := (x.delivered q).mapIdx (⟨q, ·, r, ·⟩) ++ x.coming } := by
  simp only [carry, new, if_false]

theorem carry_install_again (old : r ∈ x.consumers q) : x.carry (.install q r) = x := by
  simp only [carry, old, if_true]

/-- Afterwards the runtime is a consumer of the queue, and all others are as before. -/
theorem mem_consumers_install (q : String) (r : RuntimeId) (q' : String) (r' : RuntimeId) :
    r' ∈ (x.carry (.install q r)).consumers q' ↔ r' ∈ x.consumers q' ∨ q = q' ∧ r = r' := by
  by_cases old : r ∈ x.consumers q
  · rw [carry_install_again old, or_iff_left_of_imp]
    rintro ⟨rfl, rfl⟩
    exact old
  · rw [carry_install old]
    by_cases same : q' = q
    · subst same
      simp [eq_comm]
    · simp [same, Ne.symm same]

/-- A new consumer is sent the numbers of all deliveries so far. -/
theorem numbers_install (new : r ∉ x.consumers q) (q' : String) (r' : RuntimeId) :
    (x.carry (.install q r)).numbers q' r' = Parcel.numbers q' r' x.arrived ++
      ((if q = q' ∧ r = r' then List.range (x.delivered q).length else []) ++
        Parcel.numbers q' r' x.coming) := by
  simp only [carry_install new, numbers, numbers_append, Parcel.numbers_install]

/-- A parcel that arrives is only passed on. -/
theorem parcels_arrive (x : Post) :
    (x.carry .arrive).arrived ++ (x.carry .arrive).coming = x.arrived ++ x.coming := by
  have same : x.coming.take 1 ++ x.coming.tail = x.coming := by
    simpa using x.coming.take_append_drop 1
  unfold carry
  rw [List.append_assoc, same]

/-- A parcel that arrives keeps its place among those of its queue and runtime. -/
theorem numbers_arrive (x : Post) (q : String) (r : RuntimeId) :
    (x.carry .arrive).numbers q r = x.numbers q r := by
  unfold numbers
  rw [parcels_arrive]

namespace Exact

/-- Only deliveries that were pushed are sent. -/
theorem lt_of_mem (exact : x.Exact) {n : Nat} (member : n ∈ x.numbers q r) :
    n < (x.delivered q).length := by
  by_cases consumer : r ∈ x.consumers q
  · exact List.mem_range.mp ((exact.sent q r consumer).mem_iff.mp member)
  · rw [exact.unsent q r consumer] at member
    cases member

/-- A push keeps each delivery sent once: the consumers of its queue are sent the new one, and nobody else. -/
theorem push (exact : x.Exact) (q : String) (d : Delivery) : (x.carry (.push q d)).Exact where
  content := by
    intro y member
    have cases : y ∈ x.arrived ++ x.coming ∨ ∃ r, y = ⟨q, (x.delivered q).length, r, d⟩ := by
      simp only [carry, List.mem_append, List.mem_map] at member ⊢
      rcases member with member | ⟨r, -, rfl⟩ | member
      · exact .inl (.inl member)
      · exact .inr ⟨r, rfl⟩
      · exact .inl (.inr member)
    rw [delivered_push]
    rcases cases with member | ⟨r, rfl⟩
    · -- A parcel that was sent before holds what it held.
      have before := exact.content y member
      split
      · rename_i same
        rw [same] at before
        obtain ⟨inside, held⟩ := List.getElem?_eq_some_iff.mp before
        rw [List.getElem?_append_left inside, before]
      · exact before
    · simp
  consumers := exact.consumers
  sent := by
    intro q' r consumer
    have consumer : r ∈ x.consumers q' := consumer
    have before := exact.sent q' r consumer
    rw [numbers_push exact, delivered_push]
    by_cases same : q' = q
    · -- The new number may come in the middle of the others.
      subst same
      rw [if_pos ⟨rfl, consumer⟩, if_pos rfl, List.length_append, List.length_singleton,
        List.range_succ]
      refine (List.perm_append_comm.append_left _).trans ?_
      rw [← List.append_assoc, ← numbers_append]
      exact before.append_right _
    · rw [if_neg fun here => same here.1.symm, if_neg same]
      simpa [numbers] using before
  unsent := by
    intro q' r absent
    have absent : r ∉ x.consumers q' := absent
    rw [numbers_push exact, if_neg]
    · simpa [numbers] using exact.unsent q' r absent
    · rintro ⟨rfl, consumer⟩
      exact absent consumer

/-- So does an installation: a runtime that is not on the queue was sent nothing through it. -/
theorem install (exact : x.Exact) (q : String) (r : RuntimeId) :
    (x.carry (.install q r)).Exact := by
  by_cases old : r ∈ x.consumers q
  · rw [carry_install_again old]
    exact exact
  have delivered : (x.carry (.install q r)).delivered = x.delivered := by rw [carry_install old]
  constructor
  · intro y member
    rw [delivered]
    rw [carry_install old] at member
    simp only [List.mem_append, List.mem_mapIdx] at member
    rcases member with member | ⟨n, inside, rfl⟩ | member
    · exact exact.content y (List.mem_append_left _ member)
    · exact List.getElem?_eq_getElem inside
    · exact exact.content y (List.mem_append_right _ member)
  · intro q'
    rw [carry_install old]
    by_cases same : q' = q
    · subst same
      simpa [List.nodup_append] using
        ⟨exact.consumers q', fun r' member (same : r' = r) => old (same ▸ member)⟩
    · simpa [same] using exact.consumers q'
  · intro q' r' consumer
    rw [numbers_install old, delivered]
    by_cases here : q = q' ∧ r = r'
    · -- Nothing is sent to a runtime before it is installed.
      obtain ⟨rfl, rfl⟩ := here
      have unsent := exact.unsent q r old
      simp only [numbers, numbers_append, List.append_eq_nil_iff] at unsent
      simp [unsent]
    · have before := ((mem_consumers_install ..).mp consumer).resolve_right here
      simpa [here, numbers] using exact.sent q' r' before
  · intro q' r' absent
    have absent := not_or.mp (mt (mem_consumers_install ..).mpr absent)
    rw [numbers_install old, if_neg absent.2]
    simpa [numbers] using exact.unsent q' r' absent.1

/-- So does a parcel that arrives, since it was counted while it was on its way. -/
theorem arrive (exact : x.Exact) : (x.carry .arrive).Exact where
  content := by
    intro y member
    rw [parcels_arrive] at member
    exact exact.content y member
  consumers := exact.consumers
  sent := by
    intro q r consumer
    rw [numbers_arrive]
    exact exact.sent q r consumer
  unsent := by
    intro q r absent
    rw [numbers_arrive]
    exact exact.unsent q r absent

/-- So does every errand. -/
theorem carry (exact : x.Exact) (e : Errand) : (x.carry e).Exact := by
  cases e with
  | nothing => exact exact
  | push q d => exact exact.push q d
  | install q r => exact exact.install q r
  | arrive => exact exact.arrive

end Exact

/-- At first nothing is sent, and nobody is there to be sent anything. -/
theorem exact_empty : empty.Exact := by
  constructor <;> simp [empty, numbers, Parcel.numbers]

/-- **Every consumer of a queue is sent every delivery once.** -/
theorem exact_after (es : List Errand) : (after es).Exact := by
  induction es using List.reverseRecOn with
  | nil => exact exact_empty
  | append_singleton es e ih =>
    rw [after_concat]
    exact ih.carry e

/-- What a queue has got is what was pushed to it, in order. -/
theorem delivered_after (es : List Errand) (q : String) :
    (after es).delivered q = es.filterMap (Errand.pushed? q) := by
  induction es using List.reverseRecOn with
  | nil => rfl
  | append_singleton es e ih =>
    rw [after_concat, List.filterMap_append, ← ih]
    cases e with
    | push q' d =>
      rw [delivered_push]
      by_cases same : q' = q
      · simp [same, Errand.pushed?]
      · simp [same, Ne.symm same, Errand.pushed?]
    | install q' r =>
      by_cases old : r ∈ (after es).consumers q'
      · simp [carry_install_again old, Errand.pushed?]
      · simp [carry_install old, Errand.pushed?]
    | _ => simp [carry, Errand.pushed?]

/-- The consumers of a queue are the runtimes that were installed on it. -/
theorem mem_consumers_after (es : List Errand) (q : String) (r : RuntimeId) :
    r ∈ (after es).consumers q ↔ r ∈ es.filterMap (Errand.installed? q) := by
  induction es using List.reverseRecOn with
  | nil => rfl
  | append_singleton es e ih =>
    rw [after_concat, List.filterMap_append, List.mem_append, ← ih]
    cases e with
    | install q' r' =>
      rw [mem_consumers_install]
      by_cases same : q' = q
      · simp [same, Errand.installed?, eq_comm]
      · simp [same, Errand.installed?]
    | _ => simp [carry, Errand.installed?]

/-! ## The order of parcels -/

/-- Whether the parcels of a queue come to a runtime in the order in which their deliveries were
pushed. -/
def InOrder (x : Post) (q : String) (r : RuntimeId) : Prop :=
  (x.numbers q r).Pairwise (· < ·)

/-- Whether an errand pushes a delivery to a queue while a parcel of that queue is on its way to a
runtime. -/
def Overtakes (x : Post) (q : String) (r : RuntimeId) (e : Errand) : Prop :=
  (e.pushed? q).isSome ∧ Parcel.numbers q r x.coming ≠ []

/-- A push keeps the order at a consumer exactly if no parcel of the queue is on its way there. -/
theorem inOrder_push (exact : x.Exact) (d : Delivery) : (x.carry (.push q d)).InOrder q r ↔
    x.InOrder q r ∧ Parcel.numbers q r x.coming = [] := by
  have old (n : Nat) (member : n ∈ Parcel.numbers q r x.arrived ++ Parcel.numbers q r x.coming) :
      n < (x.delivered q).length :=
    exact.lt_of_mem (by simpa [numbers] using member)
  unfold InOrder
  rw [numbers_push exact]
  by_cases consumer : r ∈ x.consumers q
  · rw [if_pos ⟨rfl, consumer⟩, numbers, numbers_append]
    cases coming : Parcel.numbers q r x.coming with
    | nil =>
      -- Nothing is on its way, so the new delivery comes last.
      simp only [List.append_nil, and_true, List.pairwise_append, List.pairwise_singleton,
        List.mem_singleton, forall_eq, true_and]
      rw [and_iff_left_iff_imp]
      intro _ n member
      exact old n (List.mem_append_left _ member)
    | cons n ns =>
      -- The new delivery is in front of an older one.
      have older : n < (x.delivered q).length := old n (by simp [coming])
      simp only [List.pairwise_append, List.pairwise_cons, List.singleton_append, List.mem_cons]
      constructor
      · rintro ⟨-, ⟨first, -⟩, -⟩
        exact absurd (first n (.inl rfl)) (Nat.lt_asymm older)
      · rintro ⟨-, none⟩
        cases none
  · have unsent := exact.unsent q r consumer
    rw [numbers, numbers_append, List.append_eq_nil_iff] at unsent
    simp [consumer, numbers, unsent]

/-- An installation keeps every order: it sends all numbers so far, in order, to a runtime that had none. -/
theorem inOrder_install (exact : x.Exact) (q' : String) (r' : RuntimeId) :
    (x.carry (.install q' r')).InOrder q r ↔ x.InOrder q r := by
  by_cases old : r' ∈ x.consumers q'
  · rw [carry_install_again old]
  · unfold InOrder
    rw [numbers_install old]
    by_cases here : q' = q ∧ r' = r
    · -- The new consumer gets the deliveries as they were pushed.
      obtain ⟨rfl, rfl⟩ := here
      have unsent := exact.unsent q' r' old
      rw [numbers, numbers_append, List.append_eq_nil_iff] at unsent
      simp [numbers, unsent, List.pairwise_lt_range]
    · simp [here, numbers]

/-- An errand keeps the order exactly if it does not overtake. -/
theorem inOrder_carry (exact : x.Exact) (e : Errand) :
    (x.carry e).InOrder q r ↔ x.InOrder q r ∧ ¬ x.Overtakes q r e := by
  cases e with
  | nothing => simp [Post.carry, Overtakes, Errand.pushed?]
  | push q' d =>
    by_cases same : q' = q
    · subst same
      simp [inOrder_push exact, Overtakes, Errand.pushed?]
    · unfold InOrder
      rw [numbers_push exact]
      simp [same, numbers, Overtakes, Errand.pushed?]
  | install q' r' => simp [inOrder_install exact, Overtakes, Errand.pushed?]
  | arrive =>
    unfold InOrder
    rw [numbers_arrive]
    simp [Overtakes, Errand.pushed?]

/-- **Parcels come in the order of their deliveries exactly if no delivery overtakes another.** -/
theorem inOrder_after (es : List Errand) : (after es).InOrder q r ↔
    ∀ before e later, es = before ++ e :: later → ¬ (after before).Overtakes q r e := by
  induction es using List.reverseRecOn with
  | nil => simp [after, InOrder, empty, numbers, Parcel.numbers]
  | append_singleton es e ih =>
    rw [after_concat, inOrder_carry (exact_after es), ih]
    constructor
    · -- Either the errand is the last one, or it was one of the earlier ones.
      rintro ⟨earlier, last⟩ before e' later same
      cases later using List.reverseRecOn with
      | nil =>
        obtain ⟨rfl, single⟩ := List.append_inj' same rfl
        exact List.singleton_inj.mp single ▸ last
      | append_singleton later e'' =>
        have same : es ++ [e] = (before ++ e' :: later) ++ [e''] := by simpa using same
        exact earlier before e' later (List.append_inj' same rfl).1
    · intro never
      refine ⟨fun before e' later same => never before e' (later ++ [e]) ?_, never es e [] rfl⟩
      rw [same, List.append_assoc, List.cons_append]

end Post

end ChunkLoading
