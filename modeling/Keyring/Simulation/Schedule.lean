import Keyring.Simulation.Turn

/-!
# The schedule

Who has a turn when, and when time passes. The task of the current step goes first; the others have
their turns in the order in which they were woken. Between the turns, the timers that are due go off
in their order. Time passes by itself only if nobody can go on.

* `Simulation.round` is one round of turns.
* `Simulation.runForeground` lets rounds follow one another until a task has ended.
* `Simulation.settle` does so at a standing clock.
-/

namespace Keyring.Simulation

/-! ## Time -/

/-- A timer and its task. -/
structure Alarm where
  timer : Timer
  task : Nat

def alarms (sim : Simulation) : List Alarm :=
  sim.tasks.filterMap fun t => t.timer.map fun timer => ⟨timer, t.id⟩

/-- The alarms that are due, in their order. -/
def dueAlarms (sim : Simulation) : List Alarm :=
  (sim.alarms.filter fun a => a.timer.due ≤ sim.now).mergeSort fun a b =>
    a.timer.due < b.timer.due || (a.timer.due == b.timer.due && a.timer.order ≤ b.timer.order)

/-- Takes the timer away if it is due. -/
def Task.expire (now : Nat) (t : Task) : Task :=
  if t.timer.any fun timer => timer.due ≤ now then { t with timer := none } else t

/-- Wakes the tasks whose timers are due. -/
def fireDue (sim : Simulation) : Simulation :=
  sim.dueAlarms.foldl (fun sim a => sim.wake a.task)
    { sim with tasks := sim.tasks.map (Task.expire sim.now) }

/-- Wakes the tasks that let all others go on first. -/
def wakePaused (sim : Simulation) : Simulation :=
  sim.paused.foldl wake { sim with paused := [] }

/-- Moves the clock to the time at which the next timer is due. -/
def jump (sim : Simulation) : Simulation :=
  match (sim.alarms.map (·.timer.due)).min? with
  | some due => { sim with now := max sim.now due }
  | none => sim

/-! ## Rounds -/

/-- The number of turns after which the timers are looked at even if tasks can go on. -/
def burst : Nat := 61

/-- Gives turns to at most `n` of the tasks that were woken. -/
def runReady : Nat → Simulation → Simulation
  | 0, sim => sim
  | n + 1, sim =>
    match sim.ready with
    | [] => sim
    | id :: ready => runReady n (turn id { sim with ready })

/-- Whether no task was woken. -/
def isIdle (sim : Simulation) : Bool := sim.ready.isEmpty && sim.paused.isEmpty && !sim.isCalled

/-- Gives turns, and lets the timers go off that are due then; `passes` tells whether time may
pass. -/
def round (passes : Bool) (sim : Simulation) : Simulation :=
  let sim := runReady burst sim
  let sim := if passes && sim.isIdle then sim.jump else sim
  sim.fireDue.wakePaused

/-- A bound on the rounds to come. Each step takes a few turns and two for each call that it makes,
which are as many as there can be keys and hooks by then, and a few more; the others may settle
after it. -/
def roundsLeft (sim : Simulation) : Nat :=
  let steps := sim.tasks.foldl (fun n t => n + t.size) 0
  let calls := sim.service.repository.store.size + sim.service.hooks.length + 2 * steps + 7
  steps * (4 * calls + settleRounds) + 2

/-- Gives the task of the current step its turn whenever it was woken, until it has ended; `fuel`
bounds the rounds. -/
def runForeground (id : Nat) : Nat → Simulation → Simulation
  | 0, sim => sim
  | fuel + 1, sim =>
    let sim := if sim.isCalled then turn id { sim with isCalled := false } else sim
    if (sim.result? id).isSome then sim else runForeground id fuel (sim.round true)

/-- Whether no task can go on before time passes. -/
def isSettled (sim : Simulation) : Bool := sim.isIdle && sim.dueAlarms.isEmpty

/-- Lets all tasks go on without time passing, for at most so many rounds. -/
def settle : Nat → Simulation → Simulation
  | 0, sim => sim
  | rounds + 1, sim => if sim.isSettled then sim else settle rounds (sim.round false)

end Keyring.Simulation
