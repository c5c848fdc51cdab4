import ChunkLoading.Proofs.Turn
import ChunkLoading.Proofs.Views

/-!
# The mail of a page

What a page does with deliveries: its queues, the merges that are still to be done and those that are
done, together with what is known of factories, since deliveries carry them. Few operations touch any
of that; each of the others has one equation that says so.
-/

namespace ChunkLoading

/-- The merges that a task does. -/
def Task.merges : Task → List (RuntimeId × Delivery)
  | .merge r d => [(r, d)]
  | _ => []

/-- The merge that an event tells of. -/
def Event.merge? : Event → Option (RuntimeId × Delivery)
  | .merged r d => some (r, d)
  | _ => none

@[ext] structure Mail where
  /-- The number of factories. -/
  count : Nat
  keyed : Assoc String FactoryId
  queues : Assoc String Queue
  /-- The merges that are still to be done, the next one first. -/
  coming : List (RuntimeId × Delivery)
  /-- The merges that are done, the latest one first. -/
  done : List (RuntimeId × Delivery)

namespace Page

variable {p : Page} {r : RuntimeId}

def mail (p : Page) : Mail where
  count := p.factories.length
  keyed := p.keyed
  queues := p.queues
  coming := p.agenda.flatMap Task.merges
  done := p.log.filterMap Event.merge?

/-! ## What leaves the mail alone -/

/-- Tasks that are called for merge what they merge before all else. -/
theorem mail_call (p : Page) (ts : List Task) : (p.call ts).mail =
    { p.mail with coming := ts.flatMap Task.merges ++ p.mail.coming } := by
  simp [mail, call]

theorem mail_call_beside {ts : List Task} (beside : ∀ t ∈ ts, t.merges = []) :
    (p.call ts).mail = p.mail := by
  have coming : ts.flatMap Task.merges = [] := List.flatMap_eq_nil_iff.mpr beside
  simp [mail_call, coming]

/-- The merges that were done last come first. -/
theorem mail_note (p : Page) (es : List Event) : (p.note es).mail =
    { p.mail with done := (es.filterMap Event.merge?).reverse ++ p.mail.done } := by
  simp [mail, note]

theorem mail_note_beside {es : List Event} (beside : ∀ e ∈ es, e.merge? = none) :
    (p.note es).mail = p.mail := by
  have done : es.filterMap Event.merge? = [] := List.filterMap_eq_nil_iff.mpr beside
  simp [mail_note, done]

/-- The mail sees neither what goes on in runtimes nor what is asked of handlers and hosts. -/
theorem farView_mail : FarView mail where
  call inner := mail_call_beside fun t member => by
    have inner := inner t member
    cases t <;> first | rfl | cases inner
  note inner := mail_note_beside fun e member => by
    have inner := inner e member
    cases e <;> first | rfl | cases inner
  runtime _ := rfl
  frame _ _ _ _ _ := rfl
  asks _ _ _ _ _ _ := rfl
  requests _ _ := rfl
  injected _ _ _ := rfl
  hinted _ _ _ _ _ _ _ := rfl

theorem mail_addExtension {p' : Page} {spec : ExtensionSpec Command} {x : ExtensionId}
    (h : p.addExtension spec = .ok (x, p')) : p'.mail = p.mail := by
  rw [addExtension_frame h]
  rfl

/-- A new runtime is on no queue. -/
theorem mail_addRuntime {q : Page} {name : String} {plan : Except Failure Blueprint}
    {extension : Option (ExtensionSpec Command)}
    (h : p.addRuntime name plan extension = .ok q) : q.mail = p.mail := by
  obtain ⟨b, x, rt, -, frame⟩ := addRuntime_frame h
  rw [frame]
  rfl

/-- A merge is done, and calls for no other one. -/
theorem mail_merge (p : Page) (r : RuntimeId) (d : Delivery) :
    (p.merge r d).mail = { p.mail with done := (r, d) :: p.mail.done } := by
  have loaded (cs : List ChunkId) : (cs.map (Event.loaded r ·)).filterMap Event.merge? = [] :=
    List.filterMap_eq_nil_iff.mpr fun e member => by
      obtain ⟨c, -, rfl⟩ := List.mem_map.mp member
      rfl
  simp only [merge]
  rw [mail_call_beside, mail_note, farView_mail.setStore]
  · simp [Event.merge?, loaded]
  · intro t member
    simp only [List.mem_append, List.mem_map, List.mem_cons, List.not_mem_nil, or_false] at member
    rcases member with (⟨x, -, rfl⟩ | hint) | rfl | rfl
    · rfl
    · split at hint
      · obtain ⟨c, -, rfl⟩ := List.mem_map.mp hint
        rfl
      · cases hint
    · rfl
    · rfl

/-- To show a delivery sends none; what a tap calls back comes later. -/
theorem mail_observe (p : Page) (x : ExtensionId) (d : Delivery) :
    (p.observe x d).mail = p.mail := by
  unfold observe
  split
  · rfl
  · rename_i describes script found
    refine (farView_mail.callScript ..).trans (mail_note_beside ?_)
    cases describes <;> simp [Event.merge?]
  · refine mail_call_beside fun t member => ?_
    obtain ⟨y, -, rfl⟩ := List.mem_map.mp member
    rfl

end Page

/-- Whether a command makes factories or hands on deliveries. -/
def Command.supplies : Command → Bool
  | .install .. | .push .. | .observe .. | .receive .. => true
  | _ => false

namespace Page

variable {p : Page}

/-- The commands that leave the mail alone are those that neither deliver nor install nor bring factories. -/
theorem mail_perform {command : Command} (beside : command.supplies = false) (nested : Bool) :
    (p.perform nested command).mail = p.mail := by
  -- What is inner leaves every view alone; the other commands are looked at one by one.
  by_cases inner : command.isInner
  · exact farView_mail.perform inner nested
  cases command with
  | install | push | observe | receive => cases beside
  | create name plan extension =>
    simp only [perform]
    split
    · rename_i added
      exact (farView_mail.answerWith ..).trans (mail_addRuntime added)
    · exact farView_mail.answerWith ..
  | ensure name c label => exact farView_mail.withRuntime fun r => farView_mail.ask ..
  | setExtension name spec =>
    cases spec with
    | none => exact farView_mail.withRuntime fun r => rfl
    | some spec =>
      refine farView_mail.withRuntime fun r => ?_
      split
      · rename_i added
        have kept := mail_addExtension added
        exact (farView_mail.answerWith ..).trans kept
      · exact farView_mail.answerWith ..
  | createBootstrap hot plan previous =>
    obtain ⟨xs, bs, a, frame⟩ := createBootstrap_frame p nested hot plan previous
    rw [frame]
    rfl
  | applyManifest hot manifest =>
    refine farView_mail.withBootstrap fun x b => ?_
    split <;> rfl
  | finish hot next runOn =>
    refine farView_mail.withBootstrap fun x b => (farView_mail.finishUpdate ..).trans ?_
    cases b.finish? next <;> rfl
  | _ => exact absurd rfl inner

/-- Most tasks leave the mail alone. -/
theorem mail_act {t : Task} (beside : t.merges = [])
    (other : ∀ command nested, t ≠ .perform command nested) : (p.act t).mail = p.mail := by
  cases t with
  | merge r d => cases beside
  | observe x d => exact mail_observe ..
  | _ => exact farView_mail.actFar other (by simp) (by simp)

/-! ## What changes the mail -/

/-- New modules make new factories known. -/
theorem mail_addModules (p : Page) (ms : List (ModuleSpec Command)) :
    (p.addModules ms).2.mail = { p.mail with
      count := (p.addModules ms).2.factories.length
      keyed := (p.addModules ms).2.keyed } := by
  rw [addModules_frame]
  rfl

/-- A bootstrap that is shown a delivery makes its factories known. -/
theorem mail_perform_observe (p : Page) (nested : Bool) (hot : String)
    (spec : DeliverySpec Command) : (p.perform nested (.observe hot spec)).mail =
      (p.addModules spec.modules).2.mail :=
  farView_mail.withBootstrap fun _ _ => rfl

/-- So does one that gets the modules of an update. -/
theorem mail_perform_receive (p : Page) (nested : Bool) (hot : String) (c : ChunkId)
    (specs : List (ModuleSpec Command)) : (p.perform nested (.receive hot c specs)).mail =
      (p.addModules specs).2.mail :=
  farView_mail.withBootstrap fun _ _ => rfl

/-- A runtime that is new on a queue is to merge all that was pushed before. -/
theorem mail_install {queue : String} (new : r ∉ (p.queue queue).consumers) :
    (p.install r queue).mail = { p.mail with
      queues := p.queues.set queue
        { p.queue queue with consumers := (p.queue queue).consumers ++ [r] }
      coming := (p.queue queue).delivered.map (r, ·) ++ p.mail.coming } := by
  have merges : ((p.queue queue).delivered.map (Task.merge r ·)).flatMap Task.merges =
      (p.queue queue).delivered.map (r, ·) := by
    rw [List.flatMap_map, List.map_eq_flatMap]
    rfl
  simp only [install]
  rw [if_neg (by simpa using new), mail_call, merges]
  rfl

/-- A runtime is not installed twice on a queue. -/
theorem install_again {queue : String} (old : r ∈ (p.queue queue).consumers) :
    p.install r queue = p := by
  simp [install, old]

/-- All consumers of a queue are to merge what is pushed, the newest first. -/
theorem mail_push (p : Page) (queue : String) (d : Delivery) :
    (p.push queue d).mail = { p.mail with
      queues := p.queues.set queue
        { p.queue queue with delivered := (p.queue queue).delivered ++ [d] }
      coming := (p.queue queue).consumers.reverse.map (·, d) ++ p.mail.coming } := by
  have merges : ((p.queue queue).consumers.reverse.map (Task.merge · d)).flatMap Task.merges =
      (p.queue queue).consumers.reverse.map (·, d) := by
    rw [List.flatMap_map, List.map_eq_flatMap]
    rfl
  simp only [push]
  rw [mail_call, merges]
  rfl

end Page

end ChunkLoading
