import ChunkLoading.Page.Performing

/-!
# Running a page

A page runs by doing the first task of its agenda until none is left. Scripts can make a run go on
forever, so a run is given a number of steps; a run that is finished stays so with more of them.
-/

namespace ChunkLoading.Page

/-- Gives the answer to a command: that of a script's command is reported, that of a command from
outside is kept. -/
def conclude (p : Page) (a : Answer) (nested : Bool) : Page :=
  if nested then p.note [.answered a] else { p with answer := a }

/-- Does one task. -/
def act (p : Page) : Task → Page
  | .perform command nested => p.perform nested command
  | .conclude a nested _ => p.conclude a nested
  | .gather r c handlers got caller => p.gather r c handlers got caller
  | .hint r c kind => p.hint r c kind
  | .merge r d => p.merge r d
  | .observe x d => p.observe x d
  | .resolve r d waiting clashes => p.resolve r d waiting clashes
  | .defer r es => p.defer r es
  | .enter r e => p.enter r e
  | .execute r f => p.execute r f
  | .pass next settledAny => p.pass next settledAny
  | .load f r rest loads module => p.load f r rest loads module
  | .settle f _ result => p.settleFuture f result
  | .polled f settledAny => p.polled f settledAny

/-- Does the task at hand; a page without one stays as it is. -/
def step (p : Page) : Page :=
  match p.agenda with
  | [] => p
  | t :: rest => { p with agenda := rest }.act t

/-- Does at most the given number of tasks. -/
def run : Nat → Page → Page
  | 0, p => p
  | n + 1, p =>
    match p.agenda with
    | [] => p
    | _ :: _ => run n p.step

/-- The number of tasks that one command may take. -/
def patience : Nat := 1000000

/-- Gives a command to a page and runs it; then polls all futures, if that is wished. -/
def give (p : Page) (autopoll : Bool) (command : Command) : Page :=
  let p := run patience (p.call [.perform command false])
  if autopoll then run patience (p.call [.pass 0 false]) else p

/-- The events since an earlier time, in order, given the length of the log then. -/
def since (p : Page) (length : Nat) : List Event :=
  (p.log.take (p.log.length - length)).reverse

end ChunkLoading.Page
