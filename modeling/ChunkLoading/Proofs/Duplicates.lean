import ChunkLoading.Proofs.Deliveries
import ChunkLoading.Proofs.Entries
import ChunkLoading.Proofs.Return

/-!
# Duplicate deliveries

A delivery that is pushed again right after the first time, while nobody calls back, ends no load,
changes no state and no factory, and gives no hint (`push_again`). But its entries are registered
again: those that can run do so once more, and the others wait twice (`entered_again`).
-/

namespace ChunkLoading.Page

variable {p q : Page} {r : RuntimeId} {d : Delivery} {queue : String} {rs : List RuntimeId}

/-- Who was not disturbed by a delivery is not disturbed when it comes again. -/
theorem Undisturbed.of_absorbed (undisturbed : p.Undisturbed r d) (absorbed : p.Absorbed rs d q)
    (member : r ∈ rs) (unfailed : (p.store r).NoneFailed) : q.Undisturbed r d := by
  have same : q.runtime r = (p.runtime r).absorb d := by
    rw [absorbed.runtime, if_pos member]
  constructor
  · rw [same, absorbed.observers]
    exact undisturbed.extension
  · -- No chunk is hinted again.
    rw [same, Runtime.hinting_absorb unfailed]
    simp
  · -- The entries that run again ran the first time, with the same factories.
    have known : q.factories = p.factories := by rw [absorbed.frame]
    rw [same, known, Runtime.absorb_again unfailed]
    exact fun e run => undisturbed.factories e (Runtime.runs_subset unfailed d e run)

/-- The queue of a push keeps its consumers. -/
theorem consumers_push (p : Page) (queue : String) (d : Delivery) :
    ((p.push queue d).queue queue).consumers = (p.queue queue).consumers := by
  simp [push, Page.queue, call]

/-- A push that disturbs nobody returns, and so does the same push right after it. The consumers of
the queue absorb the delivery both times. -/
theorem push_twice (h : p.Reachable)
    (undisturbed : ∀ r ∈ (p.queue queue).consumers, p.Undisturbed r d) :
    ∃ p₁ p₂, Returns p.agenda (p.push queue d) p₁ ∧ Returns p.agenda (p₁.push queue d) p₂ ∧
      (p.push queue d).Absorbed (p.queue queue).consumers.reverse d p₁ ∧
      (p₁.push queue d).Absorbed (p.queue queue).consumers.reverse d p₂ := by
  have inRange (r : RuntimeId) (member : r ∈ (p.queue queue).consumers) : r < p.runtimes.length :=
    h.sound.inRange r (alive_of_consumer member)
  obtain ⟨p₁, first, absorbed⟩ := push_returns (h.consumers_nodup queue) undisturbed inRange
  have consumers : (p₁.queue queue).consumers = (p.queue queue).consumers := by
    rw [← consumers_push p queue d, absorbed.frame]
    rfl
  -- What the first push needs, the second one finds as well.
  obtain ⟨p₂, second, absorbed'⟩ : ∃ p₂, Returns p.agenda (p₁.push queue d) p₂ ∧
      (p₁.push queue d).Absorbed (p.queue queue).consumers.reverse d p₂ := by
    rw [← first.agenda_eq, ← consumers]
    refine push_returns (consumers ▸ h.consumers_nodup queue) ?_ ?_
    · intro r member
      rw [consumers] at member
      exact ((undisturbed r member).push queue).of_absorbed absorbed (List.mem_reverse.mpr member)
        (h.sound.unfailed r)
    · intro r member
      exact absorbed.count ▸ inRange r (consumers ▸ member)
  exact ⟨p₁, p₂, first, second, absorbed, absorbed'⟩

/-- **A delivery that comes again brings nothing but its entries again.** Take any reachable page, and
any delivery, whose push to a queue disturbs nobody. The push returns, and so does a second one right
after it. The second push settles no future and starts no load; every runtime stays as it is, its
store and the outcomes of its attempts included, except for its worklist. A runtime of the queue that
has a worklist registers the entries of the delivery once more: it runs those whose chunks are loaded,
and the others are added to its worklist. Nothing else happens to chunks, attempts and entries; so
if the delivery has no entries, all runtimes are as they were. -/
theorem push_again (h : p.Reachable)
    (undisturbed : ∀ r ∈ (p.queue queue).consumers, p.Undisturbed r d) :
    ∃ p₁ p₂, Returns p.agenda (p.push queue d) p₁ ∧ Returns p.agenda (p₁.push queue d) p₂ ∧
      p₂.futures = p₁.futures ∧ p₂.requests = p₁.requests ∧
      (∀ r, p₂.store r = p₁.store r ∧ (p₂.runtime r).outcomes = (p₁.runtime r).outcomes) ∧
      (∀ r, p₂.runtime r = if r ∈ (p.queue queue).consumers then (p₁.runtime r).enlist d
        else p₁.runtime r) ∧
      p₂.core.log = ((p.queue queue).consumers.reverse.flatMap fun r =>
        (p₁.runtime r).newsAgain r d).reverse ++ p₁.core.log ∧
      (d.entries = [] → ∀ r, p₂.runtime r = p₁.runtime r) := by
  obtain ⟨p₁, p₂, first, second, absorbed, absorbed'⟩ := push_twice h undisturbed
  have had (r : RuntimeId) (member : r ∈ (p.queue queue).consumers) :
      p₁.runtime r = (p.runtime r).absorb d := by
    rw [absorbed.runtime, if_pos (List.mem_reverse.mpr member)]
    rfl
  -- A runtime that has absorbed the delivery only gets its entries when it absorbs it again.
  have runtime (r : RuntimeId) : p₂.runtime r =
      if r ∈ (p.queue queue).consumers then (p₁.runtime r).enlist d else p₁.runtime r := by
    have same := absorbed'.runtime r
    simp only [List.mem_reverse] at same
    rw [same]
    split
    · rename_i member
      show (p₁.runtime r).absorb d = _
      rw [had r member, Runtime.absorb_again (h.sound.unfailed r)]
    · rfl
  refine ⟨p₁, p₂, first, second, ?_, ?_, ?_, runtime, ?_, ?_⟩
  · rw [absorbed'.frame]
    rfl
  · rw [absorbed'.frame]
    rfl
  · intro r
    unfold store
    rw [runtime]
    split <;> exact ⟨rfl, rfl⟩
  · have news (r : RuntimeId) (member : r ∈ (p.queue queue).consumers) :
        (p₁.runtime r).news r d = (p₁.runtime r).newsAgain r d := by
      rw [had r member, Runtime.news_absorb (h.sound.unfailed r)]
    rw [absorbed'.events]
    refine congrArg (List.reverse · ++ _) (List.flatMap_congr fun r member => ?_)
    exact news r (List.mem_reverse.mp member)
  · intro none r
    rw [runtime]
    split
    · simp [Runtime.enlist, none, Worklist.waiting]
    · rfl

/-- A page with a runtime that has a module, and that is asked for a chunk. -/
def expecting : Page :=
  (fresh [] []).giveAll
    [.create "main" (.ok .standard) none, .install "main" "chunks",
      .push "chunks" ⟨[.number 7], [⟨.number 5, none, []⟩], [], []⟩,
      .ensure "main" (.number 8) none]

/-- A delivery of that chunk, with the module, an entry that can run, one that has to wait, and a chunk
to prefetch. -/
def awaited : Delivery :=
  ⟨[.number 8], [(.number 5, 0)], [⟨.number 5, [.number 8]⟩, ⟨.number 5, [.number 9]⟩], [.number 9]⟩

theorem push_again_expecting : expecting.Undisturbed 0 awaited ∧
    ∃ p₁ p₂, Returns [] (expecting.push "chunks" awaited) p₁ ∧
      Returns [] (p₁.push "chunks" awaited) p₂ ∧ p₂.futures = p₁.futures ∧
      p₂.runtime 0 = (p₁.runtime 0).enlist awaited := by
  have reachable : expecting.Reachable := (Reachable.fresh _ _).giveAll _
  have consumers : (expecting.queue "chunks").consumers = [0] := rfl
  have factories : expecting.factories = [⟨.number 5, none, []⟩] := rfl
  have extension : (expecting.runtime 0).extension = none := rfl
  have undisturbed : expecting.Undisturbed 0 awaited := by
    refine ⟨fun x held => ?_, fun c _ => rfl, fun e _ f _ fac held => ?_⟩
    · rw [extension] at held
      cases held
    · rw [factories] at held
      obtain rfl := List.mem_singleton.mp (List.mem_of_getElem? held)
      rfl
  have all : ∀ r ∈ (expecting.queue "chunks").consumers, expecting.Undisturbed r awaited := by
    intro r member
    rw [consumers] at member
    obtain rfl := List.mem_singleton.mp member
    exact undisturbed
  have quiet : expecting.agenda = [] := rfl
  obtain ⟨p₁, p₂, first, second, futures, -, -, runtime, -⟩ := push_again reachable all
  have enlisted := runtime 0
  rw [consumers, if_pos List.mem_cons_self] at enlisted
  rw [quiet] at first second
  exact ⟨undisturbed, p₁, p₂, first, second, futures, enlisted⟩

/-- A delivery with an entry that can run and one that has to wait. -/
def doubled : Command :=
  .push "chunks" ⟨[.number 7], [⟨.number 5, some "five", []⟩],
    [⟨.number 5, [.number 7]⟩, ⟨.number 6, [.number 8]⟩], []⟩

/-- The delivery is pushed as often as told to a queue with one runtime. -/
def doubling (n : Nat) : Page :=
  (fresh [] []).giveAll
    ([.create "main" (.ok .standard) none, .install "main" "chunks"] ++ List.replicate n doubled)

/-- The second time one entry runs again, and the other one waits twice. -/
theorem entered_again :
    (doubling 2).merges = (doubling 1).merges ++ (doubling 1).merges ∧
    (doubling 1).entered 0 = [⟨.number 5, [.number 7]⟩] ∧
    (doubling 2).entered 0 = [⟨.number 5, [.number 7]⟩, ⟨.number 5, [.number 7]⟩] ∧
    ((doubling 1).runtime 0).worklist = some [⟨.number 6, [.number 8]⟩] ∧
    ((doubling 2).runtime 0).worklist = some [⟨.number 6, [.number 8]⟩, ⟨.number 6, [.number 8]⟩] :=
  ⟨rfl, rfl, rfl, rfl, rfl⟩

end ChunkLoading.Page
