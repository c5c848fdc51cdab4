import ChunkLoading.Proofs.Agreement
import ChunkLoading.Proofs.History
import ChunkLoading.Proofs.Showings

/-!
# What a bootstrap knows

A runtime and the bootstrap that is its extension keep apart which chunks are loaded: the runtime in its
store, the bootstrap in its own list. Both lists follow from a run. A bootstrap knows what it was made with
and what it was shown (`known_follow`), so that it agrees with its runtime whenever nothing is going on
(`bootstrap_agrees`).
-/

namespace ChunkLoading

theorem Bootstrap.mem_noteLoaded {b : Bootstrap} {cs : List ChunkId} {c : ChunkId} :
    c ∈ (b.noteLoaded cs).loaded ↔ c ∈ b.loaded ∨ c ∈ cs := by
  simp [noteLoaded, List.mem_eraseDups]

namespace Page

variable {p : Page} {m : Move} {ms : List Move} {r : RuntimeId} {x : ExtensionId} {b : Bootstrap} {c : ChunkId}

/-! ## What a runtime merged -/

/-- The merge that a move does. -/
def mergings (p : Page) : Move → List (RuntimeId × Delivery)
  | .task =>
    match p.agenda with
    | [] => []
    | t :: _ => t.merges
  | .call .. | .poll .. => []

/-- Part of the mail is a view too. -/
theorem farView_done : FarView fun p => p.mail.done where
  call inner := congrArg Mail.done (farView_mail.call inner)
  note inner := congrArg Mail.done (farView_mail.note inner)
  runtime _ := rfl
  frame _ _ _ _ _ := rfl
  asks _ _ _ _ _ _ := rfl
  requests _ _ := rfl
  injected _ _ _ := rfl
  hinted _ _ _ _ _ _ _ := rfl

/-- A command merges nothing itself. -/
theorem done_perform (p : Page) (nested : Bool) (command : Command) :
    (p.perform nested command).mail.done = p.mail.done := by
  cases supplies : command.supplies with
  | false => rw [mail_perform supplies]
  | true =>
    cases command with
    | install name queue =>
      refine farView_done.withRuntime fun r => ?_
      by_cases old : r ∈ ((p.call [.conclude .done nested (some r)]).queue queue).consumers
      · rw [install_again old]
        exact farView_done.call (by simp [Task.isInner])
      · rw [mail_install old]
        exact farView_done.call (by simp [Task.isInner])
    | push queue spec =>
      simp only [perform]
      rw [mail_push]
      exact (farView_done.answerWith ..).trans (by rw [addDelivery_frame]; rfl)
    | observe hot spec => rw [mail_perform_observe, mail_addModules]
    | receive hot c specs => rw [mail_perform_receive, mail_addModules]
    | _ => cases supplies

theorem merges_make (p : Page) (m : Move) : (p.make m).merges = p.merges ++ p.mergings m := by
  have reversed (p : Page) : p.merges = p.mail.done.reverse := List.filterMap_reverse
  have still (same : (p.make m).mail.done = p.mail.done) (none : p.mergings m = []) :
      (p.make m).merges = p.merges ++ p.mergings m := by
    rw [reversed, reversed, same, none, List.append_nil]
  cases m with
  | call command nested => exact still rfl rfl
  | poll next => exact still rfl rfl
  | task =>
    cases agenda : p.agenda with
    | nil => exact still (by simp [make, step, agenda]) (by simp [mergings, agenda])
    | cons t ts =>
      have made := make_task agenda
      have mergings : p.mergings .task = t.merges := by simp [mergings, agenda]
      cases t with
      | perform command nested => exact still (by rw [made]; exact done_perform ..) mergings
      | merge r d =>
        -- Only the task of a merge is a merge.
        have done : (p.make .task).mail.done = (r, d) :: p.mail.done := by
          rw [made]
          exact congrArg Mail.done (mail_merge ..)
        rw [reversed, reversed, done, mergings, List.reverse_cons]
        rfl
      | _ =>
        refine still ?_ mergings
        rw [made, mail_act rfl (by simp)]
        rfl

/-- A runtime that merges a delivery shows it to the extension that it has then. -/
theorem mem_notices {d : Delivery} : ⟨some r, x, d⟩ ∈ p.notices m ↔
    (r, d) ∈ p.mergings m ∧ (p.runtime r).extension = some x := by
  cases m with
  | call command nested => simp [notices, mergings]
  | poll next => simp [notices, mergings]
  | task =>
    cases agenda : p.agenda with
    | nil => simp [notices, mergings, agenda]
    | cons t ts =>
      have mergings : p.mergings .task = t.merges := by simp [mergings, agenda]
      rw [notices_task agenda, mergings]
      cases t with
      | merge r' d' =>
        show _ ∈ (p.runtime r').extension.toList.map _ ↔ (r, d) ∈ [(r', d')] ∧ _
        by_cases own : r' = r
        · subst own
          simp [and_comm, eq_comm]
        · simp [own, Ne.symm own]
      | perform command nested => cases command <;> simp [notifies, Task.merges]
      | _ => simp [notifies, Task.merges]

/-- A runtime that merges something is there. -/
theorem lt_of_merging (h : p.Reachable) {d : Delivery} (merging : (r, d) ∈ p.mergings m) :
    r < p.runtimes.length := by
  cases m with
  | call command nested => cases merging
  | poll next => cases merging
  | task =>
    cases agenda : p.agenda with
    | nil => simp [mergings, agenda] at merging
    | cons t ts =>
      have merging : (r, d) ∈ t.merges := by simpa [mergings, agenda] using merging
      refine h.sound.inRange r (alive_of_task (agenda ▸ List.mem_cons_self) ?_)
      cases t with
      | merge r' d' =>
        obtain ⟨rfl, rfl⟩ := Prod.mk.inj (List.mem_singleton.mp merging)
        simp [Task.uses]
      | _ => simp [Task.merges] at merging

/-- The extension of a runtime is the same all along a run. -/
def Extended (p : Page) (r : RuntimeId) (x : ExtensionId) (ms : List Move) : Prop :=
  p.Always (fun p _ => r < p.runtimes.length → (p.runtime r).extension = some x) ms

section

variable {onInject onHint : List (ChunkId × Script)} (extended : (fresh onInject onHint).Extended r x ms)

include extended

/-- The deliveries that such a runtime merged are those that it showed to its extension. -/
theorem mem_mergedBy (d : Delivery) : d ∈ ((fresh onInject onHint).follow ms).mergedBy r ↔
    ⟨some r, x, d⟩ ∈ (fresh onInject onHint).noticed ms := by
  induction ms using List.reverseRecOn with
  | nil => simp [mergedBy, merges, fresh, noticed, along]
  | append_singleton ms m ih =>
    obtain ⟨before, last⟩ := always_concat.mp extended
    have reached : ((fresh onInject onHint).follow ms).Reachable := (Reachable.fresh onInject onHint).follow ms
    have merged : d ∈ ((fresh onInject onHint).follow (ms ++ [m])).mergedBy r ↔
        d ∈ ((fresh onInject onHint).follow ms).mergedBy r ∨
          (r, d) ∈ ((fresh onInject onHint).follow ms).mergings m := by
      rw [follow_append]
      show d ∈ (((fresh onInject onHint).follow ms).make m).mergedBy r ↔ _
      rw [mergedBy_append (merges_make ..)]
      simp
    rw [merged, ih before, noticed_concat, List.mem_append, mem_notices]
    exact or_congr_right (iff_self_and.mpr fun merging => last (lt_of_merging reached merging))

theorem extension_of_noticed {n : Notice} (member : n ∈ (fresh onInject onHint).noticed ms)
    (own : n.source = some r) : n.extension = x := by
  obtain ⟨source, y, d⟩ := n
  obtain rfl : source = some r := own
  obtain ⟨before, m, later, split, notice⟩ := mem_along.mp member
  obtain ⟨merging, installed⟩ := mem_notices.mp notice
  have reached : ((fresh onInject onHint).follow before).Reachable :=
    (Reachable.fresh onInject onHint).follow before
  have same := extended.at split (lt_of_merging reached merging)
  exact Option.some.inj (installed.symm.trans same)

end

/-! ## What a bootstrap was shown -/

/-- The chunks that an extension knows when a move makes it. -/
def seedsAt (x : ExtensionId) (p : Page) (m : Move) : List ChunkId :=
  if p.extensions.length ≤ x then
    match (p.make m).extensions[x]? with
    | some (.bootstrap b) => b.loaded
    | _ => []
  else []

/-- The chunks that an extension was made with in a run. -/
def seeds (p : Page) (x : ExtensionId) (ms : List Move) : List ChunkId := p.along (seedsAt x) ms

/-- A bootstrap that is there is told about what it is shown, and keeps the rest unless its update ends. -/
structure Learns (p : Page) (m : Move) (x : ExtensionId) (b b' : Bootstrap) : Prop where
  before : p.extensions[x]? = some (.bootstrap b)
  loaded : p.finishes? m = some x ∨
    ∀ c, c ∈ b'.loaded ↔ c ∈ b.loaded ∨ ∃ d, (x, d) ∈ p.showings m ∧ c ∈ d.chunks

theorem Sight.learns (sight : p.Sight m) {b' : Bootstrap}
    (found : (p.make m).extensions[x]? = some (.bootstrap b')) :
    (p.extensions.length ≤ x ∧ ∀ d, (x, d) ∉ p.showings m) ∨ ∃ b, p.Learns m x b b' := by
  have found : (p.make m).watch.extensions[x]? = some (.bootstrap b') := found
  have same (extensions : (p.make m).watch.extensions[x]? = p.watch.extensions[x]?)
      (none : ∀ d, (x, d) ∉ p.showings m) : ∃ b, p.Learns m x b b' :=
    ⟨b', extensions.symm.trans found, .inr fun c => by simp [none]⟩
  cases sight with
  | shown x' d coming pending showings notices watch =>
    right
    -- Only the extension that the delivery is shown to learns of it, and it is a bootstrap afterwards.
    by_cases own : x' = x
    · subst own
      rw [watch] at found
      unfold Watch.deliver at found
      split at found
      · rename_i absent
        rw [absent] at found
        cases found
      · rename_i tap
        rw [tap] at found
        cases found
      · rename_i b there
        have there : p.watch.extensions[x']? = some (.bootstrap b) := there
        obtain ⟨inRange, -⟩ := List.getElem?_eq_some_iff.mp there
        simp only [List.getElem?_set_self inRange, Option.some.injEq, Extension.bootstrap.injEq] at found
        subst found
        refine ⟨b, there, .inr fun c => ?_⟩
        rw [Bootstrap.mem_noteLoaded, showings]
        simp
    · refine same ?_ (by simp [showings, Ne.symm own])
      rw [watch]
      unfold Watch.deliver
      split
      · rfl
      · rfl
      · exact List.getElem?_set_ne own
  | noticed n showings notices known watch => exact .inr (same (by rw [watch]) (by simp [showings]))
  | told x' b b'' showings notices there previous loaded watch =>
    right
    by_cases own : x' = x
    · subst own
      rw [watch] at found
      -- What a call tells a bootstrap, no other one learns.
      obtain ⟨inRange, -⟩ := List.getElem?_eq_some_iff.mp there
      simp only [List.getElem?_set_self inRange, Option.some.injEq, Extension.bootstrap.injEq] at found
      subst found
      refine ⟨b, there, loaded.imp_right fun loaded c => ?_⟩
      simp [loaded, showings]
    · refine same ?_ (by simp [showings])
      rw [watch]
      exact List.getElem?_set_ne own
  | grown showings notices grows =>
    by_cases old : x < p.watch.extensions.length
    · -- New extensions come after the ones that are there.
      obtain ⟨new, more⟩ := grows.extensions
      exact .inr (same (by rw [← more, List.getElem?_append_left old]) (by simp [showings]))
    · exact .inl ⟨Nat.le_of_not_lt old, by simp [showings]⟩

theorem length_follow (h : p.Reachable) (ms : List Move) :
    p.extensions.length ≤ (p.follow ms).extensions.length := by
  induction ms generalizing p with
  | nil => exact Nat.le_refl _
  | cons m ms ih =>
    have first : p.watch.roles.length ≤ (p.make m).watch.roles.length := (h.sight m).roles.length_le
    rw [Watch.length_roles, Watch.length_roles] at first
    exact Nat.le_trans first (ih (.make m h))

/-- Only extensions that are there were made with something. -/
theorem seeds_inRange (h : p.Reachable) (seeded : c ∈ p.seeds x ms) :
    x < (p.follow ms).extensions.length := by
  obtain ⟨before, m, later, rfl, member⟩ := mem_along.mp seeded
  have made : x < ((p.follow before).make m).extensions.length := by
    unfold seedsAt at member
    split at member
    · split at member
      · rename_i found
        exact (List.getElem?_eq_some_iff.mp found).1
      · cases member
    · cases member
  rw [follow_append, follow_cons]
  exact Nat.lt_of_lt_of_le made (length_follow (.make m (h.follow before)) later)

/-- **A bootstrap knows what it was made with and what it was shown,** unless an update of it ended. -/
theorem known_follow {onInject onHint : List (ChunkId × Script)} (run : (fresh onInject onHint).follow ms = p)
    (found : p.extensions[x]? = some (.bootstrap b))
    (unfinished : (fresh onInject onHint).Always (fun p m => p.finishes? m ≠ some x) ms) (c : ChunkId) :
    c ∈ b.loaded ↔ c ∈ (fresh onInject onHint).seeds x ms ∨
      ∃ d, (x, d) ∈ (fresh onInject onHint).shown ms ∧ c ∈ d.chunks := by
  induction ms using List.reverseRecOn generalizing p b with
  | nil =>
    subst run
    simp [fresh] at found
  | append_singleton ms m ih =>
    obtain ⟨before, last⟩ := always_concat.mp unfinished
    have reached : ((fresh onInject onHint).follow ms).Reachable := (Reachable.fresh onInject onHint).follow ms
    have made : ((fresh onInject onHint).follow ms).make m = p := by rw [← run, follow_append]; rfl
    rw [seeds, along_concat, List.mem_append, shown_concat]
    rw [← made] at found
    rcases (reached.sight m).learns found with ⟨new, none⟩ | ⟨b', there, loaded⟩
    · -- The bootstrap is new, so that it knows what it is made with.
      have seeded : c ∉ (fresh onInject onHint).along (seedsAt x) ms := fun member =>
        Nat.not_lt_of_le new (seeds_inRange (.fresh onInject onHint) member)
      have unshown (d : Delivery) : (x, d) ∉ (fresh onInject onHint).shown ms := fun member =>
        Nat.not_lt_of_le new ((showings_follow onInject onHint ms).placed _ member)
      simp [seeded, unshown, none, seedsAt, new, found]
    · -- The bootstrap was there, and knows what the move has told it besides.
      have old : ¬ ((fresh onInject onHint).follow ms).extensions.length ≤ x :=
        Nat.not_le_of_lt (List.getElem?_eq_some_iff.mp there).1
      rw [(loaded.resolve_left last) c, ih rfl there before]
      simp only [seedsAt, old, if_false, List.not_mem_nil, or_false, List.mem_append, or_and_right,
        exists_or, or_assoc]
      rfl

/-! ## Runtime and bootstrap -/

section

variable {onInject onHint : List (ChunkId × Script)} (run : (fresh onInject onHint).follow ms = p)
  (quiet : p.agenda = [])

include run quiet

/-- When nothing is going on, an extension was shown what somebody called for in a chain that it is in. -/
theorem mem_shown (d : Delivery) : (x, d) ∈ (fresh onInject onHint).shown ms ↔
    ∃ n ∈ (fresh onInject onHint).noticed ms, x ∈ p.watch.chain n.extension ∧ n.delivery = d := by
  have shows := (showings_follow onInject onHint ms).perm.mem_iff (a := (x, d))
  have coming : p.watch.coming = [] := by simp [watch, quiet]
  rw [run, coming] at shows
  simpa [Watch.spread] using shows

variable (found : p.extensions[x]? = some (.bootstrap b))
  (extended : (fresh onInject onHint).Extended r x ms)
  (seeded : ∀ c, c ∈ (fresh onInject onHint).seeds x ms ↔ (fresh onInject onHint).BuiltWith ms r c)
  (unfinished : (fresh onInject onHint).Always (fun p m => p.finishes? m ≠ some x) ms)

include found extended seeded unfinished

/-- A bootstrap that was made with the chunks of its runtime knows those that are loaded, and those that
somebody else showed to it. -/
theorem known_iff (c : ChunkId) : c ∈ b.loaded ↔ (p.store r).isLoaded c ∨
    ∃ n ∈ (fresh onInject onHint).noticed ms, n.source ≠ some r ∧ x ∈ p.watch.chain n.extension ∧
      c ∈ n.delivery.chunks := by
  have merged (d : Delivery) : d ∈ p.mergedBy r ↔ ⟨some r, x, d⟩ ∈ (fresh onInject onHint).noticed ms := by
    rw [← run]
    exact mem_mergedBy extended d
  rw [known_follow run found unfinished, (history_follow run r).1, seeded]
  constructor
  · rintro (shipped | ⟨d, shown, brought⟩)
    · exact .inl (.inl shipped)
    · -- The delivery was merged by the runtime, or somebody else showed it.
      obtain ⟨n, member, passed, rfl⟩ := (mem_shown run quiet d).mp shown
      by_cases own : n.source = some r
      · obtain rfl := extension_of_noticed extended member own
        refine .inl (.inr ⟨n.delivery, (merged _).mpr ?_, brought⟩)
        rwa [← own]
      · exact .inr ⟨n, member, own, passed, brought⟩
  · rintro ((shipped | ⟨d, member, brought⟩) | ⟨n, member, -, passed, brought⟩)
    · exact .inl shipped
    · refine .inr ⟨d, (mem_shown run quiet d).mpr ⟨_, (merged d).mp member, ?_, rfl⟩, brought⟩
      rw [Watch.chain]
      exact List.mem_cons_self
    · exact .inr ⟨n.delivery, (mem_shown run quiet _).mpr ⟨n, member, passed, rfl⟩, brought⟩

end

variable {onInject onHint : List (ChunkId × Script)}

/-- **A bootstrap agrees with its runtime.** Take a runtime whose extension is one bootstrap all along a run,
made with the chunks that ship with the runtime, in front of other extensions or alone. If nobody else shows
deliveries to it and no update of it ends, then whenever nothing is going on it knows exactly the chunks that
are loaded in the runtime. So a manifest is answered with the addresses of exactly its chunks that are loaded
there, and refused only if one of them is and its address cannot be rendered. -/
theorem bootstrap_agrees (run : (fresh onInject onHint).follow ms = p) (quiet : p.agenda = [])
    (found : p.extensions[x]? = some (.bootstrap b))
    (extended : (fresh onInject onHint).Extended r x ms)
    (seeded : ∀ c, c ∈ (fresh onInject onHint).seeds x ms ↔ (fresh onInject onHint).BuiltWith ms r c)
    (unfinished : (fresh onInject onHint).Always (fun p m => p.finishes? m ≠ some x) ms)
    (alone : ∀ n ∈ (fresh onInject onHint).noticed ms, x ∈ p.watch.chain n.extension → n.source = some r) :
    (∀ c, c ∈ b.loaded ↔ (p.store r).isLoaded c) ∧
    ∀ s m, Manifest.ofText? s = some m →
      ((∃ e, b.applyText s = .error e) ↔
        (b.chunkTemplate.uses .name = true ∨ b.chunkTemplate.uses .contentHash = true) ∧
          ∃ c ∈ m.chunks, (p.store r).isLoaded c) ∧
      ∀ addresses b', b.applyText s = .ok (addresses, b') → addresses.Pairwise (· ≤ ·) ∧
        ∀ order : List ChunkId, order.Nodup → (∀ c, c ∈ order ↔ c ∈ m.chunks ∧ (p.store r).isLoaded c) →
          ∃ as, order.mapM b.chunkAddress = .ok as ∧ as.Perm addresses := by
  have known (c : ChunkId) : c ∈ b.loaded ↔ (p.store r).isLoaded c := by
    rw [known_iff run quiet found extended seeded unfinished]
    refine or_iff_left ?_
    -- A delivery that somebody else shows does not come this way.
    rintro ⟨n, member, other, passed, -⟩
    exact other (alone n member passed)
  refine ⟨known, fun s m read => ⟨?_, fun addresses b' applied => ?_⟩⟩
  · -- What is refused is the manifest; reading its text adds nothing.
    have refused : (∃ e, b.applyText s = .error e) ↔ ∃ e, b.apply m = .error e := by
      rw [Bootstrap.applyText_of_read read]
      cases b.apply m <;> simp [Except.mapError]
    simp only [refused, Bootstrap.apply_refused, known]
  · rw [Bootstrap.applyText_of_read read] at applied
    obtain ⟨sorted, -, each⟩ := Bootstrap.addresses_of_apply (mapError_ok.mp applied)
    exact ⟨sorted, fun order once members => each order once fun c => by rw [members, known]⟩

/-- A bootstrap in front of a tap, made with the chunk that ships with its runtime. A delivery comes twice,
with a chunk that nobody asked for; a load of another chunk fails. -/
def watched : List Move :=
  List.flatMap (fun x => .call x.1 false :: List.replicate x.2 .task)
    [(.createBootstrap "hot" (.ok { Bootstrap.fresh with loaded := [.name "main"] })
        (some (.tap "seen" false [])), 2),
      (.create "main" (.ok { Blueprint.standard with initialChunks := [.name "main"] })
        (some (.bootstrap "hot")), 2),
      (.install "main" "chunks", 2), (.ensure "main" (.number 7) none, 4),
      (.push "chunks" ⟨[.number 7, .number 8], [], [], []⟩, 7),
      (.push "chunks" ⟨[.number 7], [], [], []⟩, 7), (.ensure "main" (.number 9) none, 4),
      (.complete (.newest (.number 9)) .error, 2)]

theorem bootstrap_agrees_watched : ((fresh [] []).follow watched).agenda = [] ∧
    (∀ c, c ∈ [.name "main", .number 7, .number 8] ↔ (((fresh [] []).follow watched).store 0).isLoaded c) ∧
    ((fresh [] []).follow watched).merges.length = 2 := by
  have quiet : ((fresh [] []).follow watched).agenda = [] := rfl
  have found : ((fresh [] []).follow watched).extensions[1]? = some (.bootstrap { Bootstrap.fresh with
      previous := some 0, loaded := [.name "main", .number 7, .number 8] }) := rfl
  have extended : (fresh [] []).Extended 0 1 watched := by
    unfold Extended
    decide +kernel
  have seeds : (fresh [] []).seeds 1 watched = [.name "main"] := by decide +kernel
  have shipped : (fresh [] []).along (shippedAt 0) watched = [.name "main"] := by decide +kernel
  have unfinished : (fresh [] []).Always (fun p m => p.finishes? m ≠ some 1) watched := by decide +kernel
  have alone : ∀ n ∈ (fresh [] []).noticed watched, n.source = some 0 := by decide +kernel
  obtain ⟨known, -⟩ := bootstrap_agrees rfl quiet found extended
    (fun c => by rw [builtWith_iff, seeds, shipped]) unfinished fun n member _ => alone n member
  exact ⟨quiet, known, rfl⟩

end Page

end ChunkLoading
