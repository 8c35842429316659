import Keyring.Simulation.Schedule

/-!
# Running a simulation

* `Simulation.perform` performs a step and gives its result.
* `Simulation.report` tells what was logged since the step before, too.
-/

namespace Keyring.Simulation

/-- Begins a step as the current one. -/
def enter (step : Step) (sim : Simulation) : Nat × Simulation :=
  let id := sim.nextTask
  (id, { sim with
    tasks := sim.tasks ++ [⟨id, .step step, [], none⟩]
    nextTask := id + 1
    foreground := some id
    isCalled := true })

/-- Performs a step, and lets the tasks go on that are left behind it. -/
def perform (step : Step) (sim : Simulation) : Result × Simulation :=
  let (id, sim) := sim.enter step
  let sim := runForeground id sim.roundsLeft sim
  let result := (sim.result? id).getD .stuck
  let sim := { sim with foreground := none, isCalled := false }
  (result, settle settleRounds sim)

/-- What came of a step, what was logged meanwhile, and the simulation behind it. -/
structure Report where
  result : Result
  log : List Event
  after : Simulation

def report (step : Step) (sim : Simulation) : Report :=
  let (result, after) := perform step sim
  ⟨result, after.service.log.drop sim.service.log.length, after⟩

/-- Performs steps one after another, and reports on each. -/
def run (sim : Simulation) : List Step → List Report
  | [] => []
  | step :: steps =>
    let r := report step sim
    r :: run r.after steps

end Keyring.Simulation
