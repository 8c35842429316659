import Keyring.Simulation.Step

/-!
# Tasks

What goes on in a simulation. A task performs a step, or gives up a request when its time has come.
It runs until it has to stop, and goes on from there once something wakes it.

* `Activity` is what a task is about, `Frame` what it returns to.
* `Stop` is where a task stops: it has ended, or it waits.
-/

namespace Keyring.Simulation

/-- When a wait ends, and its place in the order of all waits. -/
structure Timer where
  due : Nat
  order : Nat
  deriving DecidableEq, Repr

/-- How far a call to the repository is. -/
inductive Call where
  /-- A listing that is held open for a task. -/
  | held (holder : Nat)
  /-- It has yet to take its time. -/
  | entered
  /-- It takes its time, for as long as its task has a timer. -/
  | underWay
  deriving DecidableEq, Repr

/-- A request that awaits a call to the repository. -/
structure Pending where
  operation : Operation
  /-- Whether its caller has given up. -/
  cancelled : Bool
  /-- The task that gives it up. -/
  canceller : Option Nat
  call : Call
  deriving DecidableEq

inductive Activity where
  /-- A step that has not begun. -/
  | step (step : Step)
  | request (pending : Pending)
  /-- Lets all others go on first, so many times. -/
  | pause (rounds : Nat)
  /-- Waits for the tasks `ids`, one after another; `left` begins with the one that is awaited. -/
  | all (ids left : List Nat)
  | join (id : Nat)
  /-- Waits until a listing is held or a task has ended, and then performs steps; `isReached` tells
  whether one was held. -/
  | hold (id : Nat) (others : List Step) (isReached : Bool)
  /-- Begins to wait for the time at which a request is given up. -/
  | patience (ms : Nat)
  /-- Gives up a request when its timer has gone off. -/
  | giveUp

/-- What a task returns to, with the result of a step that it performed within another. -/
inductive Frame where
  /-- Performs steps while a listing is held for a task. -/
  | performing (id : Nat) (others : List Step) (results : List Result)
  /-- Lets all others settle before the next of them. -/
  | settling (id : Nat) (others : List Step) (results : List Result)
  /-- Has performed them, and waits for that task. -/
  | closing (results : List Result)

structure Task where
  id : Nat
  activity : Activity
  frames : List Frame
  timer : Option Timer

inductive Stop where
  | ended (result : Result)
  | waiting (activity : Activity) (frames : List Frame) (timer : Option Timer)

/-- Whether the end of task `id` is what a task waits for. -/
def Task.awaits (t : Task) (id : Nat) : Bool :=
  match t.activity with
  | .all _ (first :: _) => first == id
  | .join other | .hold other _ _ => other == id
  | _ => false

/-- The number of steps that a task still has to perform, its own included. -/
def Task.size (t : Task) : Nat :=
  let own :=
    match t.activity with
    | .step step => step.count
    | .hold _ others _ => Step.counts others + 1
    | _ => 1
  let frameSize : Frame → Nat
    | .performing _ others _ | .settling _ others _ => Step.counts others + 1
    | .closing _ => 1
  t.frames.foldl (fun n frame => n + frameSize frame) own

end Keyring.Simulation
