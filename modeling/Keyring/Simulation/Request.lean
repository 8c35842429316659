import Keyring.Simulation.State

/-!
# Requests in a simulation

A request goes from call to call. A call may take time, and a listing may be held open before that;
a call that does neither happens at once.

* `Simulation.beginRequest` starts a request, `Simulation.pursue` goes on with one.
* `Simulation.giveUp` gives a request up, `Simulation.release` lets a held listing go on.
-/

namespace Keyring.Simulation

/-- The result of a request that has ended. -/
def resultOf (service : Service) : Answer → Result
  | .rotation (.ok outcome) =>
    .rotated outcome <| service.repository.store.list.any fun r =>
      r.name == outcome.name && r.createdAt == outcome.createdAt
  | .response ran => .responded ran service.hooks.isEmpty
  | answer => .answer answer

/-! ## Calls -/

/-- Tells a task that a listing is held for it. No other will be. -/
def reach (sim : Simulation) (holder : Nat) : Simulation :=
  let tasks := sim.tasks.map fun (t : Task) =>
    match t.activity with
    | .hold id others _ => if t.id = holder then { t with activity := .hold id others true } else t
    | _ => t
  wake { sim with tasks, holder := none } holder

/-- Sets the timer of a call, if it takes time. -/
def takeTime (sim : Simulation) (call : StoreCall) : Option Timer × Simulation :=
  let ms := sim.delays.of call
  if ms = 0 then (none, sim)
  else
    let (timer, sim) := sim.timer ms
    (some timer, sim)

/-- Begins the call that an operation awaits; `none` if there is nothing to wait for. -/
def beginCall (sim : Simulation) (operation : Operation) (cancelled : Bool) :
    Option (Call × Option Timer) × Simulation :=
  if operation.canCancel && cancelled then (none, sim)
  else
    match operation.awaits, sim.holder with
    | .list, some holder => (some (.held holder, none), sim.reach holder)
    | call, _ =>
      let (timer, sim) := sim.takeTime call
      (timer.map fun t => (.underWay, some t), sim)

/-- The call that a request awaits happens; the request goes on until it has to wait. -/
def carryOn (sim : Simulation) (p : Pending) : Stop × Simulation :=
  match _h : sim.service.resume sim.env sim.moment p.cancelled p.operation with
  | (.ended answer, service) => (.ended (resultOf service answer), { sim with service })
  | (.awaiting operation, service) =>
    match beginCall { sim with service } operation p.cancelled with
    | (some (call, timer), sim) => (.waiting (.request { p with operation, call }) [] timer, sim)
    | (none, sim) => sim.carryOn { p with operation }
termination_by p.operation.rank
decreasing_by exact Service.rank_lt_of_resume (congrArg Prod.fst _h)

/-! ## Callers -/

/-- Starts the task that gives a request up, if its caller will. -/
def startCanceller (sim : Simulation) : Cancel → Option Nat × Simulation
  | .after ms =>
    let (id, sim) := sim.spawn (.patience ms)
    (some id, sim)
  | _ => (none, sim)

/-- Starts a request. -/
def beginRequest (sim : Simulation) (request : Request) (cancel : Cancel) : Stop × Simulation :=
  let (canceller, sim) := sim.startCanceller cancel
  let cancelled := decide (cancel = .before)
  match sim.service.begin sim.env sim.moment cancelled request with
  | (.ended answer, service) => (.ended (resultOf service answer), { sim with service })
  | (.awaiting operation, service) =>
    match beginCall { sim with service } operation cancelled with
    | (some (call, timer), sim) =>
      (.waiting (.request ⟨operation, cancelled, canceller, call⟩) [] timer, sim)
    | (none, sim) => sim.carryOn ⟨operation, cancelled, canceller, .entered⟩

/-- Goes on with a request, if it was given up or its call has taken its time. -/
def pursue (sim : Simulation) (p : Pending) (timer : Option Timer) : Stop × Simulation :=
  if p.operation.canCancel && p.cancelled then sim.carryOn p
  else
    match p.call, timer with
    | .entered, _ =>
      match sim.takeTime p.operation.awaits with
      | (some timer, sim) => (.waiting (.request { p with call := .underWay }) [] (some timer), sim)
      | (none, sim) => sim.carryOn p
    | .underWay, none => sim.carryOn p
    | _, timer => (.waiting (.request p) [] timer, sim)

/-- A request for which a condition holds, and its task. -/
def findRequest? (sim : Simulation) (holds : Pending → Bool) : Option (Task × Pending) :=
  sim.tasks.findSome? fun t =>
    match t.activity with
    | .request p => if holds p then some (t, p) else none
    | _ => none

/-- Gives up the request of a canceller. -/
def giveUp (sim : Simulation) (canceller : Nat) : Simulation :=
  match sim.findRequest? fun p => p.canceller == some canceller with
  | none => sim
  | some (task, p) =>
    let sim := sim.replace { task with activity := .request { p with cancelled := true } }
    if p.operation.canCancel then sim.wake task.id else sim

/-! ## Held listings -/

/-- Holds no listing any more for a task. -/
def disarm (sim : Simulation) (holder : Nat) : Simulation :=
  if sim.holder = some holder then { sim with holder := none } else sim

/-- Lets the listing go on that is held for a task; it has yet to take its time. -/
def release (sim : Simulation) (holder : Nat) : Simulation :=
  match sim.findRequest? fun p => p.call == .held holder with
  | none => sim
  | some (task, p) =>
    (sim.replace { task with activity := .request { p with call := .entered } }).wake task.id

end Keyring.Simulation
