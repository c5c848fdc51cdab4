import ChunkLoading.Proofs.Run

/-!
# What the operations of a page leave alone

Making factories touches the factories of a page and nothing else, and adding an extension the
extensions. Both are used inside commands, so that they are said once here.
-/

namespace ChunkLoading.Page

/-- Making factories changes the factories of a page only. -/
theorem addModules_frame (p : Page) (ms : List (ModuleSpec Command)) :
    (p.addModules ms).2 = { p with
      factories := (p.addModules ms).2.factories
      keyed := (p.addModules ms).2.keyed } := by
  induction ms generalizing p with
  | nil => rfl
  | cons m ms ih =>
    have first : (p.addFactory m).2 = { p with
        factories := (p.addFactory m).2.factories
        keyed := (p.addFactory m).2.keyed } := by
      unfold addFactory
      split
      · rfl
      · split <;> rfl
    have rest := ih (p.addFactory m).2
    simp only [addModules]
    rw [rest, first]

theorem addDelivery_frame (p : Page) (d : DeliverySpec Command) :
    (p.addDelivery d).2 = { p with
      factories := (p.addDelivery d).2.factories
      keyed := (p.addDelivery d).2.keyed } :=
  p.addModules_frame d.modules

/-- Adding an extension changes the extensions of a page only. -/
theorem addExtension_frame {p p' : Page} {spec : ExtensionSpec Command} {x : ExtensionId}
    (h : p.addExtension spec = .ok (x, p')) : p' = { p with extensions := p'.extensions } := by
  cases spec with
  | tap name describes script =>
    simp only [addExtension, Except.ok.injEq, Prod.mk.injEq] at h
    rw [← h.2]
  | bootstrap name =>
    simp only [addExtension] at h
    split at h
    · simp only [Except.ok.injEq, Prod.mk.injEq] at h
      rw [← h.2]
    · cases h

theorem newExtension_frame {p p' : Page} {b : Blueprint} {spec : Option (ExtensionSpec Command)}
    {x : Option ExtensionId} (h : p.newExtension b spec = .ok (x, p')) :
    p' = { p with extensions := p'.extensions } := by
  cases spec with
  | some spec =>
    simp only [newExtension] at h
    cases added : p.addExtension spec with
    | error e => simp [added, Except.map] at h
    | ok xp =>
      simp only [added, Except.map, Except.ok.injEq, Prod.mk.injEq] at h
      rw [← h.2]
      exact addExtension_frame added
  | none =>
    simp only [newExtension] at h
    split at h
    · simp only [Except.ok.injEq, Prod.mk.injEq] at h
      rw [← h.2]
      rfl
    · simp only [Except.ok.injEq, Prod.mk.injEq] at h
      rw [← h.2]

/-- What building a runtime comes to: it has an extension, and is the newest one. -/
theorem addRuntime_eq_ok {p q : Page} {name : String} {plan : Except Failure Blueprint}
    {extension : Option (ExtensionSpec Command)} (h : p.addRuntime name plan extension = .ok q) :
    ∃ b x p' rt, plan = .ok b ∧ p.newExtension b extension = .ok (x, p') ∧ b.build x = .ok rt ∧
      q = { p' with
        runtimes := p'.runtimes ++ [rt]
        names := p'.names.set name p'.runtimes.length } := by
  unfold addRuntime at h
  cases plan with
  | error e => simp [bind, Except.bind] at h
  | ok b =>
    cases added : p.newExtension b extension with
    | error e => simp [bind, Except.bind, added] at h
    | ok xp =>
      obtain ⟨x, p'⟩ := xp
      cases built : b.build x with
      | error e =>
        have failed : (b.build x).mapError Failure.load = .error (.load e) := by rw [built]; rfl
        simp [bind, Except.bind, added, failed] at h
      | ok rt =>
        have made : (b.build x).mapError Failure.load = .ok rt := by rw [built]; rfl
        simp only [bind, Except.bind, added, made, pure, Except.pure, Except.ok.injEq] at h
        exact ⟨b, x, p', rt, rfl, added, built, h.symm⟩

/-- A runtime that is created is built from a blueprint, and is the newest one. -/
theorem addRuntime_frame {p q : Page} {name : String} {plan : Except Failure Blueprint}
    {extension : Option (ExtensionSpec Command)} (h : p.addRuntime name plan extension = .ok q) :
    ∃ b x rt, Blueprint.build b x = .ok rt ∧ q = { p with
      extensions := q.extensions
      runtimes := p.runtimes ++ [rt]
      names := p.names.set name p.runtimes.length } := by
  obtain ⟨b, x, p', rt, -, added, built, made⟩ := addRuntime_eq_ok h
  refine ⟨b, x, rt, built, ?_⟩
  rw [made, newExtension_frame added]

/-- Making a bootstrap changes the extensions of a page and their names only. -/
theorem createBootstrap_frame (p : Page) (nested : Bool) (hot : String)
    (plan : Except Failure Bootstrap) (previous : Option (ExtensionSpec Command)) :
    ∃ xs bs a, p.perform nested (.createBootstrap hot plan previous) =
      { p with extensions := xs, bootstraps := bs }.answerWith nested a := by
  simp only [perform]
  cases plan with
  | error e => exact ⟨p.extensions, p.bootstraps, .failed e, rfl⟩
  | ok b =>
    cases previous with
    | none => exact ⟨_, _, .done, rfl⟩
    | some spec =>
      simp only [bind, Except.bind, Except.map, pure, Except.pure]
      cases added : p.addExtension spec with
      | error e => exact ⟨p.extensions, p.bootstraps, .failed e, rfl⟩
      | ok xp =>
        obtain ⟨x, p'⟩ := xp
        obtain ⟨xs, rfl⟩ : ∃ xs, p' = { p with extensions := xs } := ⟨_, addExtension_frame added⟩
        exact ⟨_, _, .done, rfl⟩

end ChunkLoading.Page
