import Mathlib.Data.List.Forall2
import Mathlib.Data.List.Perm.Basic

/-!
# Computations that may fail

What a sequence of computations comes to: it gives a result if each of its parts does, and its first fault
otherwise. A computation along a list gives the results at the members, in their order (`mapM_ok_iff`), so that
its success, its results and what becomes of them in another order are facts about single members.
-/

namespace ChunkLoading

variable {α β γ ε ε' : Type}

/-! ## One after the other -/

theorem isOk_iff {result : Except ε α} : result.isOk = true ↔ ∃ a, result = .ok a := by
  cases result <;> simp [Except.isOk, Except.toBool]

/-- Two computations in sequence give a result if the first one does, and the second one with what it gave. -/
theorem bind_ok {first : Except ε α} {next : α → Except ε β} {b : β} :
    first >>= next = .ok b ↔ ∃ a, first = .ok a ∧ next a = .ok b := by
  cases first <;> simp [bind, Except.bind]

theorem then_ok {first second : Except ε Unit} :
    (do first; second) = .ok () ↔ first = .ok () ∧ second = .ok () := by
  rw [bind_ok]
  exact ⟨fun ⟨_, passed, rest⟩ => ⟨passed, rest⟩, fun ⟨passed, rest⟩ => ⟨(), passed, rest⟩⟩

/-- The fault of the second computation comes out if the first one succeeds. -/
theorem bind_error {first : Except ε α} {next : α → Except ε β} {e : ε}
    (ok : first.isOk = true) (failed : ∀ a, next a = .error e) : first >>= next = .error e := by
  obtain ⟨a, made⟩ := isOk_iff.mp ok
  rw [made]
  exact failed a

theorem mapError_ok {f : ε → ε'} {x : Except ε α} {a : α} : x.mapError f = .ok a ↔ x = .ok a := by
  cases x <;> simp [Except.mapError]

/-- A computation that cannot fail leaves it to the one before it whether the sequence succeeds. -/
theorem isOk_bind {first : Except ε α} {next : α → Except ε β}
    (ok : ∀ a, (next a).isOk = true) : (first >>= next).isOk = first.isOk := by
  cases first with
  | error e => rfl
  | ok a => exact ok a

theorem isOk_bind_pure (first : Except ε α) (f : α → β) :
    (first >>= fun a => pure (f a)).isOk = first.isOk :=
  isOk_bind fun _ => rfl

theorem isOk_bind_bind_pure (first : Except ε α) (second : Except ε β) (f : α → β → γ) :
    (first >>= fun a => second >>= fun b => pure (f a b)).isOk = (first.isOk && second.isOk) := by
  cases first with
  | error e => rfl
  | ok a => exact isOk_bind_pure second (f a)

/-! ## Along a list -/

variable {f : α → Except ε β} {xs order : List α} {ys : List β}

/-- A check of all members of a list passes if it passes at each of them. -/
theorem forM_ok {check : α → Except ε Unit} : xs.forM check = .ok () ↔ ∀ x ∈ xs, check x = .ok () := by
  induction xs with
  | nil => simp [pure, Except.pure]
  | cons x xs ih =>
    have first : (x :: xs).forM check = (do check x; xs.forM check) := rfl
    rw [first, then_ok, ih]
    simp

/-- **A computation along a list** gives its results at the members, in their order. -/
theorem mapM_ok_iff : xs.mapM f = .ok ys ↔ List.Forall₂ (fun x y => f x = .ok y) xs ys := by
  constructor
  · intro made
    induction xs generalizing ys with
    | nil =>
      obtain rfl : ys = [] := by simpa [pure, Except.pure, eq_comm] using made
      exact .nil
    | cons x xs ih =>
      rw [List.mapM_cons] at made
      obtain ⟨y, first, made⟩ := bind_ok.mp made
      obtain ⟨rest, later, made⟩ := bind_ok.mp made
      obtain rfl : y :: rest = ys := by simpa [pure, Except.pure] using made
      exact .cons first (ih later)
  · intro each
    induction each with
    | nil => rfl
    | cons first _ ih =>
      rw [List.mapM_cons, first, ih]
      rfl

/-- Its results are those at the members of the list, and each member has one. -/
theorem mem_of_mapM (made : xs.mapM f = .ok ys) :
    (∀ y ∈ ys, ∃ x ∈ xs, f x = .ok y) ∧ ∀ x ∈ xs, ∃ y ∈ ys, f x = .ok y := by
  have each := mapM_ok_iff.mp made
  clear made
  induction each with
  | nil => simp
  | cons first _ ih =>
    rw [List.forall_mem_cons, List.forall_mem_cons]
    exact ⟨⟨List.exists_mem_cons_of _ first, fun y member => List.exists_mem_cons_of_exists (ih.1 y member)⟩,
      List.exists_mem_cons_of _ first, fun x member => List.exists_mem_cons_of_exists (ih.2 x member)⟩

theorem mapM_eq_ok (f : α → Except ε β) (result : α → β) (each : ∀ x ∈ xs, f x = .ok (result x)) :
    xs.mapM f = .ok (xs.map result) :=
  mapM_ok_iff.mpr (List.forall₂_map_right_iff.mpr (List.forall₂_same.mpr each))

/-- It succeeds exactly if it does at every member. -/
theorem isOk_mapM (f : α → Except ε β) (xs : List α) : (xs.mapM f).isOk = xs.all fun x => (f x).isOk := by
  induction xs with
  | nil => rfl
  | cons x xs ih =>
    rw [List.mapM_cons, List.all_cons, ← ih]
    cases f x with
    | error e => rfl
    | ok y => cases xs.mapM f <;> rfl

/-- It gives the same results when it takes the list in another order. -/
theorem mapM_perm (perm : order.Perm xs) (made : xs.mapM f = .ok ys) :
    ∃ zs, order.mapM f = .ok zs ∧ zs.Perm ys := by
  -- The results are permuted as the list is.
  obtain ⟨zs, each, same⟩ := List.perm_comp_forall₂ perm (mapM_ok_iff.mp made)
  exact ⟨zs, mapM_ok_iff.mpr each, same⟩

end ChunkLoading
