import Keyring.Simulation.Task

/-!
# The state of a simulation

A service, a clock that moves by jumps, and the tasks that go on. Time is counted in milliseconds.

* `Simulation.start` is the state before the first step.
* `Simulation.spawn`, `Simulation.wake` and `Simulation.finish` are the life of a task.
-/

namespace Keyring

namespace Simulation

/-- How long calls to the repository take. -/
structure Delays where
  write : Nat
  list : Nat
  delete : Nat
  deriving DecidableEq, Repr

def Delays.of (d : Delays) : StoreCall → Nat
  | .write => d.write
  | .list => d.list
  | .delete => d.delete

def Delays.set (d : Delays) (ms : Nat) : StoreCall → Delays
  | .write => { d with write := ms }
  | .list => { d with list := ms }
  | .delete => { d with delete := ms }

end Simulation

structure Simulation where
  env : Environment
  users : CredentialVerifier
  service : Service
  now : Nat
  delays : Simulation.Delays
  codec : Simulation.CodecMode
  usersFail : Bool
  /-- The tasks that have not ended. -/
  tasks : List Simulation.Task
  /-- The tasks that were woken, in this order. -/
  ready : List Nat
  /-- The tasks that let all others go on first. -/
  paused : List Nat
  /-- The task that performs the current step. It goes before all others. -/
  foreground : Option Nat
  /-- Whether that task was woken. -/
  isCalled : Bool
  /-- The task for which the next listing is held. -/
  holder : Option Nat
  /-- The results of the tasks that have ended. -/
  results : List (Nat × Simulation.Result)
  nextTask : Nat
  waits : Nat
  spawned : List (String × Nat)
  tokens : List (String × String)

namespace Simulation

def start (env : Environment) (users : CredentialVerifier) : Simulation where
  env
  users
  service := .initial
  now := 0
  delays := ⟨0, 0, 0⟩
  codec := .signed
  usersFail := false
  tasks := []
  ready := []
  paused := []
  foreground := none
  isCalled := false
  holder := none
  results := []
  nextTask := 0
  waits := 0
  spawned := []
  tokens := []

/-- Keys that show their number: counted from one, it is written four times. -/
def countedKey (n : Nat) : Bytes := (List.replicate 4 (Bytes.bigEndian 8 (n + 1))).flatten

/-- The second from which the times of written keys are counted, one for each write. -/
def firstWrite : Int := 1767225600

/-- The clocks of the service. Each write has a later time than those before. -/
def moment (sim : Simulation) : Moment where
  elapsed := sim.now * 1000000
  time := Instant.ofSecond (firstWrite + sim.service.repository.writes)

/-! ## Tasks -/

/-- Lets a task go on, behind those that were woken before. -/
def wake (sim : Simulation) (id : Nat) : Simulation :=
  if sim.foreground = some id then { sim with isCalled := true }
  else if id ∈ sim.ready then sim
  else { sim with ready := sim.ready ++ [id] }

/-- Starts a task. It does not run before its turn has come. -/
def spawn (sim : Simulation) (activity : Activity) : Nat × Simulation :=
  let id := sim.nextTask
  (id, wake { sim with tasks := sim.tasks ++ [⟨id, activity, [], none⟩], nextTask := id + 1 } id)

/-- Starts a task for each step. -/
def spawnAll (sim : Simulation) : List Step → List Nat × Simulation
  | [] => ([], sim)
  | step :: steps =>
    let (id, sim) := sim.spawn (.step step)
    let (ids, sim) := sim.spawnAll steps
    (id :: ids, sim)

def task? (sim : Simulation) (id : Nat) : Option Task := sim.tasks.find? fun t => t.id == id

/-- Takes a task out of those that have not ended. -/
def remove (sim : Simulation) (id : Nat) : Simulation :=
  { sim with tasks := sim.tasks.filter fun t => t.id != id }

/-- Puts a task in the place of the one of its number. -/
def replace (sim : Simulation) (task : Task) : Simulation :=
  { sim with tasks := sim.tasks.map fun (t : Task) => if t.id = task.id then task else t }

def result? (sim : Simulation) (id : Nat) : Option Result :=
  (sim.results.find? fun r => r.1 == id).map (·.2)

/-- Ends a task, and wakes the one that waits for it. -/
def finish (sim : Simulation) (id : Nat) (result : Result) : Simulation :=
  let sim := { sim with results := (id, result) :: sim.results }
  (sim.tasks.filter fun t => t.awaits id).foldl (fun sim t => sim.wake t.id) sim

/-- The number of times that all others go first before they count as settled. -/
def settleRounds : Nat := 64

/-- Lets all others go on first. -/
def pause (sim : Simulation) (id : Nat) : Simulation := { sim with paused := sim.paused ++ [id] }

/-- Sets a timer. -/
def timer (sim : Simulation) (ms : Nat) : Timer × Simulation :=
  (⟨sim.now + ms, sim.waits⟩, { sim with waits := sim.waits + 1 })

end Simulation

end Keyring
