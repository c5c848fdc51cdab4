import ChunkLoading.Proofs.Frame
import ChunkLoading.Proofs.Plainness

/-!
# Commands without extensions

A command does to the plain page, apart from answers, what it does to the page (`plain_perform`): on a bare
page, what it does without the extensions that it brings. That asks of a command that what it does to runtimes
does not depend on extensions (`unobtrusive`).
-/

namespace ChunkLoading.Page

variable {bare : Bool} {p q : Page}

/-- Whether what a command does to runtimes does not depend on extensions: the one that a new runtime is to have
is there, and no update that a bootstrap collected is run on a runtime. -/
def unobtrusive (p : Page) : Command → Bool
  | .create _ _ (some spec) => (p.addExtension spec).isOk
  | .finish hot next (some name) =>
    !((p.bootstrap? hot).any fun xb => (xb.2.finish? next).isSome) || !p.names.contains name
  | _ => true

/-! ## Answers -/

/-- An answer is blank on the plain page. -/
@[simp] theorem plain_answerWith (p : Page) (nested : Bool) (a : Answer) :
    (p.answerWith nested a).plain bare = (p.plain bare).answerWith nested .done :=
  plain_call ..

/-- A name that no runtime goes by is answered for, and the answer is blank. -/
theorem plain_withRuntime {nested : Bool} {name : String} {act act' : RuntimeId → Page}
    (same : ∀ r, (act r).plain bare = (act' r).plain false) :
    (p.withRuntime nested name act).plain bare =
      ((p.plain bare).withRuntime nested name act').plain false := by
  unfold withRuntime
  rw [plain_names]
  split
  · exact same _
  · simp

/-- A bare page has no bootstrap to do something with, and otherwise the same one. -/
theorem plain_withBootstrap {nested : Bool} {hot : String} {act act' : ExtensionId → Bootstrap → Page}
    (alone : bare = true → ∀ x b, p.bootstrap? hot = some (x, b) →
      (act x b).plain true = (p.plain true).answerWith nested .done)
    (same : bare = false → ∀ x b, (act x b).plain false = (act' x b).plain false) :
    (p.withBootstrap nested hot act).plain bare =
      ((p.plain bare).withBootstrap nested hot act').plain false := by
  unfold withBootstrap
  cases bare with
  | false =>
    have found : (p.plain false).bootstrap? hot = p.bootstrap? hot := rfl
    rw [found]
    split
    · exact same rfl ..
    · simp
  | true =>
    -- What is done to a bootstrap leaves no trace but a blank answer, as does the call to none.
    have none : (p.plain true).bootstrap? hot = none := rfl
    rw [none]
    split
    · rename_i found
      rw [alone rfl _ _ found]
      simp
    · simp

/-! ## Making things -/

/-- An extension is made on a page with blank answers as on the page. -/
theorem addExtension_plain (p : Page) (spec : ExtensionSpec Command) :
    (p.plain false).addExtension spec = (p.addExtension spec).map fun xp => (xp.1, xp.2.plain false) := by
  cases spec with
  | tap name describes script => rfl
  | bootstrap name =>
    have named : (p.plain false).bootstraps = p.bootstraps := rfl
    simp only [addExtension, named]
    split <;> rfl

/-- An extension that is made leaves no trace on the bare page. -/
theorem bare_of_addExtension {spec : ExtensionSpec Command} {x : ExtensionId}
    (added : p.addExtension spec = .ok (x, q)) : q.plain true = p.plain true := by
  rw [addExtension_frame added]
  rfl

/-- So is the extension of a new runtime. -/
theorem newExtension_plain (p : Page) (b : Blueprint) (extension : Option (ExtensionSpec Command)) :
    (p.plain false).newExtension b extension =
      (p.newExtension b extension).map fun xp => (xp.1, xp.2.plain false) := by
  cases extension with
  | some spec =>
    simp only [newExtension, addExtension_plain]
    cases p.addExtension spec <;> rfl
  | none =>
    simp only [newExtension]
    split <;> rfl

/-- And neither does that of a new runtime. -/
theorem bare_of_newExtension {b : Blueprint} {extension : Option (ExtensionSpec Command)}
    {x : Option ExtensionId} (made : p.newExtension b extension = .ok (x, q)) :
    q.plain true = p.plain true := by
  rw [newExtension_frame made]
  rfl

/-- A runtime is built in two steps, its extension and the runtime itself, and either may fail. -/
theorem addRuntime_ok (p : Page) (name : String) (b : Blueprint) (extension : Option (ExtensionSpec Command)) :
    p.addRuntime name (.ok b) extension = (p.newExtension b extension).bind fun xp =>
      ((b.build xp.1).mapError Failure.load).bind fun rt => .ok { xp.2 with
        runtimes := xp.2.runtimes ++ [rt]
        names := xp.2.names.set name xp.2.runtimes.length } := rfl

/-- A runtime is made in the same way with an extension and without one. -/
theorem build_unwatched (b : Blueprint) (x : Option ExtensionId) :
    b.unwatched.build none = (b.build x).map (Runtime.plain true) := by
  unfold Blueprint.build
  show (if b.onDemand && b.allHandlers.isEmpty then _ else _) = _
  split <;> rfl

/-- The newest runtime is plain on the plain page. -/
theorem plain_appendRuntime (p : Page) (name : String) (rt : Runtime) :
    ({ p with runtimes := p.runtimes ++ [rt], names := p.names.set name p.runtimes.length } : Page).plain bare =
      { p.plain bare with
        runtimes := (p.plain bare).runtimes ++ [rt.plain bare]
        names := (p.plain bare).names.set name (p.plain bare).runtimes.length } := by
  simp [plain]

/-- A runtime is built on a page with blank answers as on the page. -/
theorem addRuntime_plain (name : String) (plan : Except Failure Blueprint)
    (extension : Option (ExtensionSpec Command)) : (p.plain false).addRuntime name plan extension =
      (p.addRuntime name plan extension).map (Page.plain false) := by
  cases plan with
  | error e => rfl
  | ok b =>
    rw [addRuntime_ok, addRuntime_ok, newExtension_plain]
    cases p.newExtension b extension with
    | error e => rfl
    | ok xp =>
      simp only [Except.map, Except.bind]
      cases b.build xp.1 with
      | error e => rfl
      | ok rt => exact congrArg Except.ok (plain_appendRuntime ..).symm

/-- On the bare page it is built without an extension, if the one that it was to have can be made. -/
theorem addRuntime_bare {name : String} {plan : Except Failure Blueprint}
    {extension : Option (ExtensionSpec Command)}
    (there : ∀ spec, extension = some spec → (p.addExtension spec).isOk) :
    (p.plain true).addRuntime name (plan.map Blueprint.unwatched) none =
      (p.addRuntime name plan extension).map (Page.plain true) := by
  cases plan with
  | error e => rfl
  | ok b =>
    -- Without an extension the call cannot fail for one, so it must not with one.
    obtain ⟨⟨x, p'⟩, made⟩ : ∃ xp, p.newExtension b extension = .ok xp := by
      cases extension with
      | some spec =>
        have added := there spec rfl
        simp only [newExtension]
        revert added
        cases p.addExtension spec with
        | ok xp => exact fun _ => ⟨_, rfl⟩
        | error e => exact fun added => Bool.noConfusion added
      | none =>
        simp only [newExtension]
        split <;> exact ⟨_, rfl⟩
    show (p.plain true).addRuntime name (.ok b.unwatched) none = _
    have bare : (p.plain true).newExtension b.unwatched none = .ok (none, p.plain true) := rfl
    rw [addRuntime_ok, addRuntime_ok, made, bare]
    simp only [Except.bind, build_unwatched b x, ← bare_of_newExtension made]
    cases b.build x with
    | error e => rfl
    | ok rt => exact congrArg Except.ok (plain_appendRuntime ..).symm

/-! ## Parts of commands -/

/-- A new consumer is called for the same deliveries. -/
theorem plain_install (p : Page) (r : RuntimeId) (queue : String) :
    (p.install r queue).plain bare = (p.plain bare).install r queue := by
  unfold install
  rw [queue_plain]
  simp only
  split
  · rfl
  · rw [plain_call, plain?_map fun _ => rfl]
    rfl

/-- A push reaches the same consumers. -/
theorem plain_push (p : Page) (queue : String) (d : Delivery) :
    (p.push queue d).plain bare = (p.plain bare).push queue d := by
  unfold push
  rw [queue_plain, plain_call, plain?_map fun _ => rfl]
  rfl

/-- A load that the host settles is settled on the plain page. -/
theorem plain_settleManual (p : Page) (nested : Bool) (key : String × ChunkId) (result : LoadResult) :
    (p.settleManual nested key result).plain bare =
      ((p.plain bare).settleManual nested key result).plain false := by
  have set : ({ p.plain bare with manual := p.manual.set key (some result) } : Page).plain false =
    { (p.plain bare).plain false with manual := p.manual.set key (some result) } := rfl
  rw [plain_plain] at set
  unfold settleManual
  rw [plain_manual]
  split
  · rw [plain_answerWith, plain_answerWith, set]
    rfl
  · simp

theorem plain_setSink (p : Page) (r : RuntimeId) (sink : String) :
    (p.modifyRuntime r ({ · with sink := some sink })).plain bare =
      (p.plain bare).modifyRuntime r ({ · with sink := some sink }) :=
  plain_modifyRuntime fun _ => rfl

@[simp] theorem plain_setBootstrap (p : Page) (x : ExtensionId) (b : Bootstrap) :
    (p.setBootstrap x b).plain false = (p.plain false).setBootstrap x b := rfl

/-- An update ends in the same way, up to answers. -/
theorem plain_finishUpdate (p : Page) (nested : Bool) (x : ExtensionId) (b : Bootstrap) (next : String)
    (runOn : Option String) : (p.finishUpdate nested x b next runOn).plain false =
      ((p.plain false).finishUpdate nested x b next runOn).plain false := by
  have names (p : Page) (b : Bootstrap) : (p.setBootstrap x b).names = p.names := rfl
  unfold finishUpdate
  split
  · simp
  · simp only [names, plain_names]
    split
    · simp
    · simp only [plain_call, plain_setBootstrap, plain_plain]

/-- An update that is not run on a runtime changes nothing but its bootstrap. -/
theorem bare_finishUpdate {nested : Bool} {x : ExtensionId} {b : Bootstrap} {next : String}
    {runOn : Option String} (alone : (b.finish? next).isSome → runOn.bind p.names.get? = none) :
    (p.finishUpdate nested x b next runOn).plain true = (p.plain true).answerWith nested .done := by
  unfold finishUpdate
  split
  · exact plain_answerWith ..
  · rename_i u b' finished
    have names : (p.setBootstrap x b').names = p.names := rfl
    simp only [names, alone (Option.isSome_of_eq_some finished)]
    exact plain_answerWith ..

/-- On the bare page a runtime that gets an extension gets none. -/
theorem plain_giveExtension (p : Page) (r : RuntimeId) (x : Option ExtensionId) :
    (p.modifyRuntime r ({ · with extension := x })).plain bare =
      (p.plain bare).modifyRuntime r ({ · with extension := if bare then none else x }) :=
  plain_modifyRuntime fun _ => rfl

/-- The runtimes of a bare page have no extension to be cleared. -/
theorem clear_bare (p : Page) (r : RuntimeId) :
    (p.plain true).modifyRuntime r ({ · with extension := none }) = p.plain true := by
  have cleared : (p.modifyRuntime r id).plain true =
      (p.plain true).modifyRuntime r ({ · with extension := none }) := plain_modifyRuntime fun _ => rfl
  rw [← cleared, modifyRuntime, List.modify_id]

/-! ## Commands about extensions -/

/-- A runtime is created in the same way: on the bare page without its extension, if nothing fails for it. -/
theorem plain_create (name : String) (plan : Except Failure Blueprint)
    (extension : Option (ExtensionSpec Command)) (nested : Bool)
    (unobtrusive : bare = true → p.unobtrusive (.create name plan extension)) :
    (p.perform nested (.create name plan extension)).plain bare =
      ((p.plain bare).perform nested ((Command.create name plan extension).plain bare)).plain false := by
  cases bare with
  | false =>
    simp only [Command.plain_false, perform, addRuntime_plain]
    cases p.addRuntime name plan extension <;> simp [Except.map]
  | true =>
    have there (spec : ExtensionSpec Command) (asked : extension = some spec) :
        (p.addExtension spec).isOk := by
      subst asked
      exact unobtrusive rfl
    simp only [Command.plain_true, Command.unwatched, perform, addRuntime_bare there]
    cases p.addRuntime name plan extension <;> simp [Except.map]

/-- A runtime gets the same extension: on the bare page none, whatever is set. -/
theorem plain_setExtension (name : String) (extension : Option (ExtensionSpec Command)) (nested : Bool) :
    (p.perform nested (.setExtension name extension)).plain bare =
      ((p.plain bare).perform nested ((Command.setExtension name extension).plain bare)).plain false := by
  -- A page with blank answers has all extensions, a bare one has none.
  cases bare with
  | false =>
    cases extension with
    | none =>
      refine plain_withRuntime fun r => ?_
      rw [plain_answerWith, plain_answerWith, plain_giveExtension, plain_giveExtension, plain_plain]
    | some spec =>
      refine plain_withRuntime fun r => ?_
      rw [addExtension_plain]
      cases p.addExtension spec with
      | error e => simp [Except.map]
      | ok xp =>
        simp only [Except.map]
        rw [plain_answerWith, plain_answerWith, plain_giveExtension, plain_giveExtension, plain_plain]
  | true =>
    cases extension with
    | none =>
      refine plain_withRuntime fun r => ?_
      rw [clear_bare, plain_answerWith, plain_answerWith, plain_plain, plain_giveExtension]
      exact congrArg (·.answerWith nested .done) (clear_bare p r)
    | some spec =>
      refine plain_withRuntime fun r => ?_
      rw [clear_bare, plain_answerWith, plain_plain]
      split
      · rename_i added
        rw [plain_answerWith, plain_giveExtension, bare_of_addExtension added]
        exact congrArg (·.answerWith nested .done) (clear_bare p r)
      · exact plain_answerWith ..

/-- Makes a bootstrap under a name. -/
def addNamed (p : Page) (hot : String) (b : Bootstrap) : Page :=
  { (p.addBootstrap b).2 with bootstraps := p.bootstraps.set hot (p.addBootstrap b).1 }

theorem plain_addNamed (p : Page) (hot : String) (b : Bootstrap) :
    (p.addNamed hot b).plain false = (p.plain false).addNamed hot b := rfl

/-- To make a bootstrap that passes deliveries on takes the other extension first. -/
theorem createBootstrap_some (p : Page) (nested : Bool) (hot : String) (b : Bootstrap)
    (spec : ExtensionSpec Command) : p.perform nested (.createBootstrap hot (.ok b) (some spec)) =
      match p.addExtension spec with
      | .error e => p.answerWith nested (.failed e)
      | .ok xp => (xp.2.addNamed hot { b with previous := some xp.1 }).answerWith nested .done := by
  simp only [perform, bind, Except.bind, Except.map]
  cases p.addExtension spec <;> rfl

/-- A bootstrap is made in the same way; on the bare page none is left of it but a blank answer. -/
theorem plain_createBootstrap (hot : String) (plan : Except Failure Bootstrap)
    (previous : Option (ExtensionSpec Command)) (nested : Bool) :
    (p.perform nested (.createBootstrap hot plan previous)).plain bare =
      ((p.plain bare).perform nested ((Command.createBootstrap hot plan previous).plain bare)).plain false := by
  cases bare with
  | false =>
    have failed (p : Page) (e : Failure) : (p.answerWith nested (.failed e)).plain false =
        ((p.plain false).answerWith nested (.failed e)).plain false := by simp
    have answered (p : Page) (b : Bootstrap) : (p.addNamed hot b |>.answerWith nested .done).plain false =
        ((p.plain false).addNamed hot b |>.answerWith nested .done).plain false := by
      rw [plain_answerWith, plain_answerWith, plain_addNamed, plain_addNamed, plain_plain]
    rw [Command.plain_false]
    cases plan with
    | error e => exact failed p e
    | ok b =>
      cases previous with
      | none => exact answered p _
      | some spec =>
        rw [createBootstrap_some, createBootstrap_some, addExtension_plain]
        cases p.addExtension spec with
        | error e => exact failed p e
        | ok xp => exact answered xp.2 _
  | true =>
    -- Whatever is made, it is extensions and names of bootstraps, and these are not on the bare page.
    obtain ⟨xs, bs, a, made⟩ := createBootstrap_frame p nested hot plan previous
    rw [made, plain_answerWith]
    simp only [Command.plain_true, Command.unwatched, perform]
    exact ((plain_answerWith ..).trans (by rw [plain_plain]; rfl)).symm

/-! ## Acting -/

/-- **A command does the same to the plain page,** apart from answers. -/
theorem plain_perform (command : Command) (nested : Bool) (unobtrusive : bare = true → p.unobtrusive command) :
    (p.perform nested command).plain bare =
      ((p.plain bare).perform nested (command.plain bare)).plain false := by
  -- Most commands bring no extension, so that both pages get the same one.
  have kept (other : command.unwatched = command) : command.plain bare = command := by
    cases bare with
    | false => rfl
    | true => exact other
  cases command with
  | create name plan extension => exact plain_create name plan extension nested unobtrusive
  | drop name =>
    -- Names of runtimes are the same on both pages.
    rw [kept rfl]
    have renamed : ({ p.plain bare with names := p.names.erase name } : Page).plain false =
      { (p.plain bare).plain false with names := p.names.erase name } := rfl
    rw [plain_plain] at renamed
    exact congrArg (·.answerWith nested .done) renamed.symm
  | install name queue =>
    rw [kept rfl]
    refine plain_withRuntime fun r => ?_
    simp only [plain_install, plain_call, plain_plain]
    rfl
  | push queue spec =>
    -- The scripts of the factories that come with the delivery are made plain as well.
    rw [Command.plain_push]
    simp only [perform, addDelivery_plain, plain_push, plain_answerWith, plain_plain]
  | ensure name c label =>
    rw [kept rfl]
    refine plain_withRuntime fun r => ?_
    simp
  | load name cs module label =>
    rw [kept rfl]
    refine plain_withRuntime fun r => ?_
    simp [addFuture_plain]
  | poll =>
    rw [kept rfl]
    simp only [perform, plain_call, plain_answerWith, plain_plain]
    rfl
  | hint name c kind =>
    rw [kept rfl]
    refine plain_withRuntime fun r => ?_
    simp only [plain_call, plain_plain]
    rfl
  | complete ref event =>
    -- Requests are the same, and so is what their ends do to stores and attempts.
    rw [kept rfl]
    simp only [perform, request?_plain]
    split <;> simp
  | settle handler c result =>
    rw [kept rfl]
    exact plain_settleManual ..
  | execute name module =>
    -- Stores are the same, so the module is there on both pages or on neither.
    rw [kept rfl]
    refine plain_withRuntime fun r => ?_
    rw [store_plain]
    split
    · simp only [plain_call, plain_plain]
      rfl
    · simp
  | startup name entries =>
    rw [kept rfl]
    refine plain_withRuntime fun r => ?_
    cases entries with
    | ok es =>
      simp only [plain_startup, plain_call, plain_plain]
      rfl
    | error e => simp
  | runSatisfied name =>
    rw [kept rfl]
    refine plain_withRuntime fun r => ?_
    simp only [plain_runReady, plain_call, plain_plain]
    rfl
  | states name cs | hasModule name m | address name c | describe name =>
    -- These only answer, and answers are blank.
    rw [kept rfl]
    exact plain_withRuntime fun r => by simp
  | setExtension name extension => exact plain_setExtension name extension nested
  | setSink name sink =>
    rw [kept rfl]
    refine plain_withRuntime fun r => ?_
    rw [plain_answerWith, plain_answerWith, plain_setSink, plain_setSink, plain_plain]
  | report name result =>
    rw [kept rfl]
    refine plain_withRuntime fun r => ?_
    cases result <;> simp
  | createBootstrap hot plan previous => exact plain_createBootstrap hot plan previous nested
  | observe hot spec =>
    -- On a bare page nobody is shown the delivery, but its factories are made known.
    rw [Command.plain_observe]
    simp only [perform, addDelivery_plain]
    refine plain_withBootstrap (fun _ x b _ => ?_) fun blank x b => ?_
    · rw [plain_call, plain_answerWith]
      rfl
    · subst blank
      simp
  | manifestAddress hot | updateAddress hot c =>
    -- What bootstraps are asked for are answers.
    rw [kept rfl]
    refine plain_withBootstrap (fun _ x b _ => plain_answerWith ..) fun blank x b => ?_
    subst blank
    simp
  | applyManifest hot manifest =>
    -- An update that begins changes its bootstrap, which a bare page has not.
    rw [kept rfl]
    refine plain_withBootstrap (fun _ x b _ => ?_) fun blank x b => ?_
    · split <;> exact plain_answerWith ..
    · subst blank
      split <;> simp
  | receive hot c modules =>
    -- The factories of an updated chunk are made known also if there is no bootstrap to take it in.
    rw [Command.plain_receive]
    simp only [perform, addModules_plain]
    refine plain_withBootstrap (fun _ x b _ => plain_answerWith ..) fun blank x b => ?_
    subst blank
    simp
  | finish hot next runOn =>
    -- Here the command has to be unobtrusive: on a bare page no update is run.
    rw [kept rfl]
    refine plain_withBootstrap (fun whole x b found => bare_finishUpdate fun finished => ?_)
      fun blank x b => ?_
    · cases runOn with
      | none => rfl
      | some name =>
        have apart := unobtrusive whole
        simpa [Page.unobtrusive, found, finished, Assoc.contains] using apart
    · subst blank
      exact plain_finishUpdate ..

/-- A showing does the same whatever was answered before. -/
theorem blank_observe (p : Page) (x : ExtensionId) (d : Delivery) :
    (p.observe x d).plain false = ((p.plain false).observe x d).plain false := by
  have extensions : (p.plain false).extensions = p.extensions := rfl
  unfold observe
  rw [extensions]
  split <;> simp

/-- **A task that stays does the same to the plain page,** apart from answers. -/
theorem plain_act {t t' : Task} (stays : t.plain? bare = some t')
    (unobtrusive : bare = true → ∀ command nested, t = .perform command nested → p.unobtrusive command) :
    (p.act t).plain bare = ((p.plain bare).act t').plain false := by
  cases t with
  | perform command nested =>
    obtain rfl := Option.some.inj stays
    exact plain_perform command nested fun whole => unobtrusive whole command nested rfl
  | conclude a nested inUse =>
    obtain rfl := Option.some.inj stays
    exact (plain_conclude ..).trans ((plain_conclude ..).trans (plain_plain p)).symm
  | gather r c handlers got caller =>
    obtain rfl := Option.some.inj stays
    exact plain_gather ..
  | observe x d =>
    cases bare with
    | false =>
      obtain rfl := Option.some.inj stays
      exact blank_observe ..
    | true => cases stays
  | _ =>
    obtain rfl := Option.some.inj stays
    simp [act]

end ChunkLoading.Page
