import Keyring.Simulation.Immediate
import Keyring.Simulation.Request

/-!
# Turns

A task has its turn when it is woken. It runs until it stops: it begins steps, performs steps within
its own, and passes results on to what they were performed for.

* `Simulation.begin` begins a step; most steps end with that.
* `Simulation.proceed` goes on with an activity, `Simulation.deliver` with what is behind it.
* `Simulation.turn` is the turn of a task.
-/

namespace Keyring.Simulation

/-! ## Steps -/

/-- A step that has ended with a result. -/
def ended (step : Result × Simulation) : Stop × Simulation := (.ended step.1, step.2)

/-- Waits for a task. -/
def awaitTask (sim : Simulation) (id : Nat) : Stop :=
  match sim.result? id with
  | some result => .ended result
  | none => .waiting (.join id) [] none

/-- Waits for tasks, of which those before `left` have ended. -/
def awaitAll (sim : Simulation) (ids left : List Nat) : Stop :=
  match left.dropWhile fun id => (sim.result? id).isSome with
  | [] => .ended (.all (ids.filterMap sim.result?))
  | left => .waiting (.all ids left) [] none

/-- Begins a step in a task. -/
def begin (id : Nat) (sim : Simulation) : Step → Stop × Simulation
  | .request request cancel => sim.beginRequest request cancel
  | .insert record => ended (sim.insert record)
  | .size => (.ended (.size sim.service.repository.store.size), sim)
  | .fail call error => (.ended .done, sim.withRepository (setFault call error))
  | .failDeleteOf name error =>
    (.ended .done, sim.withRepository fun r => { r with faults.delete := some (some name, error) })
  | .delay call ms => (.ended .done, { sim with delays := sim.delays.set ms call })
  | .listOldestFirst on =>
    (.ended .done, sim.withRepository fun r => { r with oldestFirst := on })
  | .failBeforeList f => (.ended .done, { sim with service.failBeforeList := f })
  | .failAfterWrite f => (.ended .done, { sim with service.failAfterWrite := f })
  | .failKeys on => (.ended .done, { sim with service.keysFail := on })
  | .failUsers on => (.ended .done, { sim with usersFail := on })
  | .codec mode => (.ended .done, { sim with codec := mode })
  | .register hook => ended (sim.register hook)
  | .snapshot => (.ended (.snapshot sim.service.snapshot), sim)
  | .overview => (.ended (.overview sim.overview), sim)
  | .login credentials now name => ended (sim.login credentials now name)
  | .authenticate token autoRenew now name => ended (sim.authenticate token autoRenew now name)
  | .check token now => ended (sim.check token now)
  | .advance ms => (.waiting (.pause 1) [] none, pause { sim with now := sim.now + ms } id)
  | .many steps =>
    let (ids, sim) := sim.spawnAll steps
    (sim.awaitAll ids ids, sim)
  | .spawn name step =>
    let (task, sim) := sim.spawn (.step step)
    (.ended .done, { sim with spawned := (name, task) :: sim.spawned })
  | .join name =>
    match sim.spawned.find? fun s => s.1 == name with
    | some (_, task) => (sim.awaitTask task, sim)
    | none => (.ended .stuck, sim)
  | .gated step others =>
    let (task, sim) := sim.spawn (.step step)
    (.waiting (.hold task others false) [] none, { sim with holder := some id })

/-- Lets all others settle before the next step is performed for which a listing is held. -/
def settleOthers (id task : Nat) (others : List Step) (results : List Result) (frames : List Frame)
    (sim : Simulation) : Stop × Simulation :=
  (.waiting (.pause settleRounds) (.settling task others results :: frames) none, sim.pause id)

/-- Performs the next of the steps for which a listing is held for `id`. Behind the last of them the
listing is let go, and `task` is awaited. -/
def performOthers (id task : Nat) (results : List Result) (sim : Simulation) :
    List Step → Stop × Simulation
  | [] =>
    let sim := sim.release id
    match sim.result? task with
    | some result => (.ended (.gated results result), sim)
    | none => (.waiting (.join task) [.closing results] none, sim)
  | step :: others =>
    match begin id sim step with
    | (.ended result, sim) => settleOthers id task others (results ++ [result]) [] sim
    | (.waiting activity frames timer, sim) =>
      (.waiting activity (frames ++ [.performing task others results]) timer, sim)

/-- Passes a result on to what it is for. -/
def deliver (id : Nat) (result : Result) (sim : Simulation) : List Frame → Stop × Simulation
  | [] => (.ended result, sim)
  | .closing results :: frames => deliver id (.gated results result) sim frames
  | .performing task others results :: frames =>
    settleOthers id task others (results ++ [result]) frames sim
  | .settling task others results :: frames =>
    match performOthers id task results sim others with
    | (.ended result, sim) => deliver id result sim frames
    | (.waiting activity inner timer, sim) => (.waiting activity (inner ++ frames) timer, sim)

/-! ## Activities -/

/-- Goes on with the activity of a task. -/
def proceed (sim : Simulation) (task : Task) : Stop × Simulation :=
  match task.activity with
  | .step step => begin task.id sim step
  | .request p => sim.pursue p task.timer
  | .pause rounds =>
    if rounds ≤ 1 then (.ended .done, sim)
    else (.waiting (.pause (rounds - 1)) [] none, sim.pause task.id)
  | .all ids left => (sim.awaitAll ids left, sim)
  | .join id => (sim.awaitTask id, sim)
  | .hold id others isReached =>
    if isReached || (sim.result? id).isSome then
      performOthers task.id id [] (sim.disarm task.id) others
    else (.waiting (.hold id others false) [] none, sim)
  | .patience 0 => (.ended .done, sim.giveUp task.id)
  | .patience ms =>
    let (timer, sim) := sim.timer ms
    (.waiting .giveUp [] (some timer), sim)
  | .giveUp =>
    match task.timer with
    | some timer => (.waiting .giveUp [] (some timer), sim)
    | none => (.ended .done, sim.giveUp task.id)

/-- Lets a task run until it stops. -/
def turn (id : Nat) (sim : Simulation) : Simulation :=
  match sim.task? id with
  | none => sim
  | some task =>
    let (stop, sim) :=
      match (sim.remove id).proceed task with
      | (.ended result, sim) => deliver id result sim task.frames
      | (.waiting activity frames timer, sim) =>
        (.waiting activity (frames ++ task.frames) timer, sim)
    match stop with
    | .ended result => sim.finish id result
    | .waiting activity frames timer =>
      { sim with tasks := sim.tasks ++ [⟨id, activity, frames, timer⟩] }

end Keyring.Simulation
