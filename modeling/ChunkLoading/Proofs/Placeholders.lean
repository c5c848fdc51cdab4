import ChunkLoading.Proofs.Fallible
import ChunkLoading.Template

/-!
# Placeholders and values

When a template can be rendered or compiled: exactly when every placeholder that it uses has a value.
-/

namespace ChunkLoading

namespace Template

variable {t : Template} {p : Placeholder}

/-- A placeholder is used when it has a slot. -/
theorem uses_iff : t.uses p = true ↔ ∃ limit, Segment.slot p limit ∈ t.segments := by
  constructor
  · intro used
    obtain ⟨segment, member, slot⟩ := List.any_eq_true.mp used
    cases segment with
    | literal chars => cases slot
    | slot q limit =>
      have same : q = p := by simpa using slot
      exact ⟨limit, same ▸ member⟩
  · rintro ⟨limit, member⟩
    exact List.any_eq_true.mpr ⟨_, member, by simp⟩

/-- All slots of a template pass a test of their placeholders when all placeholders that it uses do. -/
theorem all_slots (ok : Segment → Bool) (given : Placeholder → Bool)
    (literal : ∀ chars, ok (.literal chars) = true)
    (slot : ∀ p limit, ok (.slot p limit) = given p) :
    t.segments.all ok = true ↔ ∀ p, t.uses p = true → given p = true := by
  rw [List.all_eq_true]
  constructor
  · intro all p used
    obtain ⟨limit, member⟩ := uses_iff.mp used
    rw [← slot p limit]
    exact all _ member
  · intro all segment member
    cases segment with
    | literal chars => exact literal chars
    | slot p limit =>
      rw [slot]
      exact all p (uses_iff.mpr ⟨limit, member⟩)

/-- **A template can be rendered exactly when each placeholder that it uses has a value.** -/
theorem isOk_render (value : Placeholder → Option String) :
    (t.render value).isOk = true ↔ ∀ p, t.uses p = true → (value p).isSome = true := by
  unfold render
  rw [isOk_bind_pure, isOk_mapM]
  refine all_slots _ _ (fun _ => rfl) fun p limit => ?_
  dsimp only
  cases value p <;> rfl

/-- **A template can be compiled exactly when each placeholder that it uses has an expression.** -/
theorem isOk_expression (expr : Placeholder → Option String) :
    (t.expression expr).isOk = true ↔ ∀ p, t.uses p = true → (expr p).isSome = true := by
  unfold expression operands
  rw [isOk_bind_pure, isOk_bind, isOk_mapM]
  · refine all_slots _ _ (fun _ => rfl) fun p limit => ?_
    dsimp only
    cases expr p <;> rfl
  · -- An empty literal may come first; that changes nothing here.
    intro ops
    split <;> rfl

/-- Whether the text of a template uses a placeholder. -/
def mentions (source : String) (p : Placeholder) : Bool :=
  match parse source with
  | .ok t => t.uses p
  | .error _ => false

theorem mentions_eq {source : String} (read : parse source = .ok t) : mentions source p = t.uses p := by
  simp [mentions, read]

end Template

end ChunkLoading
