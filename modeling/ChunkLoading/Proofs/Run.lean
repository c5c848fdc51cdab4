import ChunkLoading.Page.Run

/-!
# Runs of a page

A run is made of moves. At every move the task at hand is done, or somebody calls in with a command,
or somebody polls futures. A call may come at any time: from outside when nothing is going on, and
from the code of a host, a handler, an extension or a factory while another call is in progress. So
the `Reachable` pages are those of every order of calls, whatever callbacks do; `reachable_give`
shows that the pages that `give` makes are among them.
-/

namespace ChunkLoading

/-- What happens next on a page. -/
inductive Move where
  /-- The task at hand is done. -/
  | task
  /-- Somebody calls in; what was going on waits until that call is over. -/
  | call (command : Command) (nested : Bool)
  /-- Somebody polls the futures from one on. -/
  | poll (next : FutureId)

namespace Page

def make (p : Page) : Move → Page
  | .task => p.step
  | .call command nested => p.call [.perform command nested]
  | .poll next => p.call [.pass next false]

/-- The page after a run. -/
def follow (p : Page) (ms : List Move) : Page := ms.foldl make p

/-- The pages that runs from a fresh page lead to. -/
inductive Reachable : Page → Prop where
  | fresh (onInject onHint : List (ChunkId × Script)) : Reachable (fresh onInject onHint)
  | make {p : Page} (m : Move) (h : Reachable p) : Reachable (p.make m)

/-- A run without moves. -/
@[simp] theorem follow_nil (p : Page) : p.follow [] = p := rfl

/-- The first move comes first. -/
@[simp] theorem follow_cons (p : Page) (m : Move) (ms : List Move) :
    p.follow (m :: ms) = (p.make m).follow ms := rfl

/-- Runs may be joined. -/
theorem follow_append (p : Page) (ms ms' : List Move) :
    p.follow (ms ++ ms') = (p.follow ms).follow ms' :=
  List.foldl_append

/-- A run from a reachable page leads to one. -/
theorem Reachable.follow {p : Page} (h : p.Reachable) (ms : List Move) :
    (p.follow ms).Reachable := by
  induction ms generalizing p with
  | nil => exact h
  | cons m ms ih => exact ih (.make m h)

/-- Every reachable page is that of a run from a fresh one. -/
theorem Reachable.exists_run {p : Page} (h : p.Reachable) :
    ∃ onInject onHint ms, (Page.fresh onInject onHint).follow ms = p := by
  induction h with
  | fresh onInject onHint => exact ⟨onInject, onHint, [], rfl⟩
  | make m h ih =>
    obtain ⟨onInject, onHint, ms, rfl⟩ := ih
    exact ⟨onInject, onHint, ms ++ [m], follow_append _ ms [m]⟩

/-- To run tasks is to make moves. -/
theorem reachable_run {p : Page} (n : Nat) (h : p.Reachable) : (run n p).Reachable := by
  induction n generalizing p with
  | zero => exact h
  | succ n ih =>
    rw [run]
    split
    · exact h
    · exact ih (.make .task h)

/-- A command that is given to a page leads along a run. -/
theorem reachable_give {p : Page} (h : p.Reachable) (autopoll : Bool) (command : Command) :
    (p.give autopoll command).Reachable := by
  have given : (run patience (p.call [.perform command false])).Reachable :=
    reachable_run _ (.make (.call command false) h)
  rw [give]
  split
  · exact reachable_run _ (.make (.poll 0) given)
  · exact given

/-- The page after commands from outside, each of them done before the next one is given. -/
def giveAll (p : Page) (commands : List Command) : Page := commands.foldl (give · false) p

/-- So are the pages after any number of commands. -/
theorem Reachable.giveAll {p : Page} (h : p.Reachable) (commands : List Command) :
    (p.giveAll commands).Reachable := by
  induction commands generalizing p with
  | nil => exact h
  | cons command commands ih => exact ih (reachable_give h false command)

/-! ## Along runs -/

/-- What the moves of a run give, one after the other. -/
def along {α : Type} (f : Page → Move → List α) (p : Page) : List Move → List α
  | [] => []
  | m :: ms => f p m ++ (p.make m).along f ms

variable {p : Page} {m : Move} {ms : List Move}

/-- What the last move contributes comes last. -/
theorem along_concat {α : Type} (f : Page → Move → List α) (p : Page) (ms : List Move) (m : Move) :
    p.along f (ms ++ [m]) = p.along f ms ++ f (p.follow ms) m := by
  induction ms generalizing p with
  | nil => simp [along]
  | cons m' ms ih => simp [along, ih]

/-- What is contributed along a run is contributed by one of its moves. -/
theorem mem_along {α : Type} {f : Page → Move → List α} {a : α} : a ∈ p.along f ms ↔
    ∃ before m later, ms = before ++ m :: later ∧ a ∈ f (p.follow before) m := by
  -- A contribution is that of the first move, or one along the moves after it.
  induction ms generalizing p with
  | nil => simp [along]
  | cons m ms ih =>
    rw [along, List.mem_append, ih]
    constructor
    · rintro (first | ⟨before, m', later, rfl, member⟩)
      · exact ⟨[], m, ms, rfl, first⟩
      · exact ⟨m :: before, m', later, rfl, member⟩
    · rintro ⟨before, m', later, split, member⟩
      cases before with
      | nil =>
        obtain ⟨rfl, rfl⟩ := List.cons.inj split
        exact .inl member
      | cons m'' before =>
        obtain ⟨rfl, rfl⟩ := List.cons.inj split
        exact .inr ⟨before, m', later, rfl, member⟩

/-- Something holds whenever a move of a run is made. -/
def Always (P : Page → Move → Prop) (p : Page) : List Move → Prop
  | [] => True
  | m :: ms => P p m ∧ (p.make m).Always P ms

instance decidableAlways {P : Page → Move → Prop} [∀ p m, Decidable (P p m)] (p : Page) :
    (ms : List Move) → Decidable (p.Always P ms)
  | [] => .isTrue trivial
  | m :: ms =>
    have := decidableAlways (P := P) (p.make m) ms
    inferInstanceAs (Decidable (P p m ∧ (p.make m).Always P ms))

/-- What always holds along a run holds at each of its moves. -/
theorem Always.at {P : Page → Move → Prop} (always : p.Always P ms) {before later : List Move}
    (split : ms = before ++ m :: later) : P (p.follow before) m := by
  subst split
  induction before generalizing p with
  | nil => exact always.1
  | cons m' before ih => exact ih always.2

theorem always_concat {P : Page → Move → Prop} :
    p.Always P (ms ++ [m]) ↔ p.Always P ms ∧ P (p.follow ms) m := by
  induction ms generalizing p with
  | nil => simp [Always]
  | cons m' ms ih => simp [Always, ih, and_assoc]

end Page

end ChunkLoading
