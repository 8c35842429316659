import Mathlib.Logic.Function.Basic
import Keyring.Proofs.Moves
import Keyring.Simulation.Run

/-!
# Simulations are worlds

A simulation has tasks, turns, timers and held listings; a world knows single moves only. Whatever
the schedule, each turn of a task comes down to moves of a world: a request begins, or the call
happens that it awaits. So what holds of all runs of worlds holds of simulated services.

* `Step.IsPlain` leaves out what no move does: to turn the order of listings round, or to replace
  the codec.
* `Mirrors` says that a world has come to what a simulation has come to. Each request that a task
  awaits is one of the world's; which one is told by the owners of the numbers, as a task may have
  one request after another.
* `mirrored_turn` is the turn of a task, `mirrored_perform` a step with all that it sets going, and
  `exists_run_of_mem_run` a simulation from its start.
-/

namespace Keyring

namespace Simulation

/-! ## Plain steps -/

mutual

/-- Whether neither a step nor one within it turns listings round or replaces the codec. -/
def Step.IsPlain : Step → Prop
  | .listOldestFirst _ | .codec _ => False
  | .many steps => Step.ArePlain steps
  | .spawn _ step => step.IsPlain
  | .gated step others => step.IsPlain ∧ Step.ArePlain others
  | _ => True

def Step.ArePlain : List Step → Prop
  | [] => True
  | step :: steps => step.IsPlain ∧ Step.ArePlain steps

end

def Activity.IsPlain : Activity → Prop
  | .step begun => begun.IsPlain
  | .hold _ others _ => Step.ArePlain others
  | _ => True

def Frame.IsPlain : Frame → Prop
  | .performing _ others _ | .settling _ others _ => Step.ArePlain others
  | .closing _ => True

/-! ## Worlds of simulations -/

/-- The operation that an activity awaits a call for. -/
def Activity.operation? : Activity → Option Operation
  | .request p => some p.operation
  | _ => none

/-- A world in which the request that an activity awaits is in progress, under a number that belongs
to `place`: to the task of the activity, or to none while the task has its turn. -/
structure Shows (owner : Nat → Option Nat) (w : World) (place : Option Nat) (activity : Activity)
    (frames : List Frame) : Prop where
  plain : activity.IsPlain
  plainFrames : ∀ frame ∈ frames, frame.IsPlain
  awaited : ∀ operation, activity.operation? = some operation →
    ∃ number, owner number = place ∧ w.operation? number = some operation

/-- A world that has come to what a simulation has come to. -/
structure Mirrors (env : Environment) (owner : Nat → Option Nat) (w : World) (sim : Simulation) :
    Prop where
  env : sim.env = env
  codec : sim.codec = .signed
  service : sim.service = w.service
  ordered : w.Ordered
  tasks : ∀ task ∈ sim.tasks, Shows owner w (some task.id) task.activity task.frames

/-- What a task stops with. -/
def Stop.Shown (owner : Nat → Option Nat) (w : World) : Stop → Prop
  | .ended _ => True
  | .waiting activity frames _ => Shows owner w none activity frames

/-- A simulation that has come to what a run from `u` leads to. -/
def Mirrored (env : Environment) (u : World) (sim : Simulation) : Prop :=
  ∃ w, Run env (fun _ _ => True) u w ∧ ∃ owner, Mirrors env owner w sim

/-- The same, while a task has its turn and is about to stop. -/
def Stopped (env : Environment) (u : World) (stop : Stop × Simulation) : Prop :=
  ∃ w, Run env (fun _ _ => True) u w ∧ ∃ owner, Mirrors env owner w stop.2 ∧ stop.1.Shown owner w

section

variable {env : Environment} {owner : Nat → Option Nat} {u w : World} {sim : Simulation}
  {place : Option Nat} {activity : Activity} {frames : List Frame} {id number : Nat}
  {operation : Operation}

/-! ### Activities -/

theorem Shows.of_idle (plain : activity.IsPlain) (idle : activity.operation? = none) :
    Shows owner w place activity [] where
  plain := plain
  plainFrames := by simp
  awaited := by simp [idle]

theorem Shows.append {behind : List Frame} (h : Shows owner w place activity frames)
    (plain : ∀ frame ∈ behind, frame.IsPlain) :
    Shows owner w place activity (frames ++ behind) where
  plain := h.plain
  plainFrames := List.forall_mem_append.mpr ⟨h.plainFrames, plain⟩
  awaited := h.awaited

theorem Shows.of_request {p : Pending} (owned : owner number = place)
    (awaited : w.operation? number = some p.operation) :
    Shows owner w place (.request p) [] where
  plain := trivial
  plainFrames := by simp
  awaited := by
    rintro _ ⟨⟩
    exact ⟨number, owned, awaited⟩

/-- An activity about the same request is shown as well. -/
theorem Shows.of_operation?_eq {activity' : Activity} (h : Shows owner w place activity frames)
    (plain : activity'.IsPlain) (same : activity'.operation? = activity.operation?) :
    Shows owner w place activity' frames where
  plain := plain
  plainFrames := h.plainFrames
  awaited := by
    rw [same]
    exact h.awaited

/-- It goes on being shown as long as the numbers of its place keep their operations. -/
theorem Shows.carry {owner' : Nat → Option Nat} {w' : World}
    (h : Shows owner w place activity frames)
    (kept : ∀ number operation, owner number = place → w.operation? number = some operation →
      owner' number = place ∧ w'.operation? number = some operation) :
    Shows owner' w' place activity frames where
  plain := h.plain
  plainFrames := h.plainFrames
  awaited operation about := by
    obtain ⟨number, owned, awaited⟩ := h.awaited operation about
    exact ⟨number, kept number operation owned awaited⟩

/-- A request is given another place; those in other places keep theirs. -/
theorem Shows.move (h : Shows owner w place activity frames) (place' : Option Nat) :
    ∃ owner', Shows owner' w place' activity frames ∧
      ∀ other activity' frames', other ≠ place → Shows owner w other activity' frames' →
        Shows owner' w other activity' frames' := by
  cases about : activity.operation? with
  | none =>
    refine ⟨owner, ⟨h.plain, h.plainFrames, by simp [about]⟩, ?_⟩
    intro _ _ _ _ shown
    exact shown
  | some operation =>
    obtain ⟨number, owned, awaited⟩ := h.awaited operation about
    refine ⟨Function.update owner number place', ⟨h.plain, h.plainFrames, ?_⟩, ?_⟩
    · intro operation' about'
      rw [about] at about'
      cases about'
      exact ⟨number, Function.update_self .., awaited⟩
    · intro other activity' frames' apart shown
      refine shown.carry fun number' operation' owned' awaited' => ?_
      have differ : number' ≠ number := by
        rintro rfl
        exact apart (owned'.symm.trans owned)
      exact ⟨by rw [Function.update_of_ne differ, owned'], awaited'⟩

/-! ### Mirrors -/

/-- Where service and settings stay as they are, only the tasks need to be looked at. -/
theorem Mirrors.of_tasks {owner' : Nat → Option Nat} {sim' : Simulation}
    (h : Mirrors env owner w sim)
    (settings : sim'.env = sim.env ∧ sim'.codec = sim.codec ∧ sim'.service = sim.service)
    (tasks : ∀ task ∈ sim'.tasks, Shows owner' w (some task.id) task.activity task.frames) :
    Mirrors env owner' w sim' where
  env := settings.1.trans h.env
  codec := settings.2.1.trans h.codec
  service := settings.2.2.trans h.service
  ordered := h.ordered
  tasks := tasks

/-- A task has its turn: the number of its request belongs to no task meanwhile. -/
theorem Mirrors.take (h : Mirrors env owner w sim) {task : Task} (mem : task ∈ sim.tasks) :
    ∃ owner', Mirrors env owner' w (sim.remove task.id) ∧
      Shows owner' w none task.activity task.frames := by
  obtain ⟨owner', taken, others⟩ := (h.tasks task mem).move none
  refine ⟨owner', h.of_tasks ⟨rfl, rfl, rfl⟩ ?_, taken⟩
  intro t ht
  obtain ⟨mem', apart⟩ : t ∈ sim.tasks ∧ t.id ≠ task.id := by simpa [remove] using ht
  exact others _ _ _ (fun same => apart (Option.some.inj same)) (h.tasks t mem')

/-- A task waits again: the number of its request belongs to it. -/
theorem Mirrors.put (h : Mirrors env owner w sim) (shown : Shows owner w none activity frames)
    (id : Nat) (timer : Option Timer) : ∃ owner', Mirrors env owner' w
      { sim with tasks := sim.tasks ++ [⟨id, activity, frames, timer⟩] } := by
  obtain ⟨owner', kept, others⟩ := shown.move (some id)
  refine ⟨owner', h.of_tasks ⟨rfl, rfl, rfl⟩ (List.forall_mem_append.mpr ⟨?_, ?_⟩)⟩
  · intro t ht
    exact others _ _ _ (Option.some_ne_none _) (h.tasks t ht)
  · rw [List.forall_mem_singleton]
    exact kept

/-! ## What a schedule does -/

theorem Mirrors.wake (h : Mirrors env owner w sim) (id : Nat) :
    Mirrors env owner w (sim.wake id) := by
  unfold Simulation.wake
  split
  · exact h.of_tasks ⟨rfl, rfl, rfl⟩ h.tasks
  · split
    · exact h
    · exact h.of_tasks ⟨rfl, rfl, rfl⟩ h.tasks

theorem Mirrors.foldl_wake {α : Type} (task : α → Nat) (woken : List α)
    (h : Mirrors env owner w sim) :
    Mirrors env owner w (woken.foldl (fun sim a => sim.wake (task a)) sim) := by
  induction woken generalizing sim with
  | nil => exact h
  | cons a rest ih => exact ih (h.wake (task a))

theorem Mirrors.spawn (h : Mirrors env owner w sim) (activity : Activity)
    (plain : activity.IsPlain) (idle : activity.operation? = none) :
    Mirrors env owner w (sim.spawn activity).2 := by
  have entered : Mirrors env owner w { sim with
      tasks := sim.tasks ++ [⟨sim.nextTask, activity, [], none⟩]
      nextTask := sim.nextTask + 1 } := by
    refine h.of_tasks ⟨rfl, rfl, rfl⟩ (List.forall_mem_append.mpr ⟨h.tasks, ?_⟩)
    rw [List.forall_mem_singleton]
    exact .of_idle plain idle
  exact entered.wake _

theorem Mirrors.spawnAll {steps : List Step} (h : Mirrors env owner w sim)
    (plain : Step.ArePlain steps) : Mirrors env owner w (sim.spawnAll steps).2 := by
  induction steps generalizing sim with
  | nil => exact h
  | cons step rest ih =>
    obtain ⟨first, others⟩ := plain
    have spawned : Mirrors env owner w (sim.spawn (.step step)).2 := h.spawn _ first rfl
    exact ih spawned others

theorem Mirrors.finish (h : Mirrors env owner w sim) (id : Nat) (result : Result) :
    Mirrors env owner w (sim.finish id result) :=
  foldl_wake _ _ (h.of_tasks ⟨rfl, rfl, rfl⟩ h.tasks)

theorem Mirrors.timer (h : Mirrors env owner w sim) (ms : Nat) :
    Mirrors env owner w (sim.timer ms).2 :=
  h.of_tasks ⟨rfl, rfl, rfl⟩ h.tasks

theorem Mirrors.takeTime (h : Mirrors env owner w sim) (call : StoreCall) :
    Mirrors env owner w (sim.takeTime call).2 := by
  unfold Simulation.takeTime
  dsimp only
  split
  · exact h
  · exact h.timer (sim.delays.of call)

theorem Mirrors.reach (h : Mirrors env owner w sim) (holder : Nat) :
    Mirrors env owner w (sim.reach holder) := by
  apply Mirrors.wake
  refine h.of_tasks ⟨rfl, rfl, rfl⟩ ?_
  intro t' ht'
  obtain ⟨t, ht, rfl⟩ := List.mem_map.mp ht'
  have shown := h.tasks t ht
  split
  · rename_i others reached about
    split
    · rw [about] at shown
      exact shown.of_operation?_eq shown.plain rfl
    · exact shown
  · exact shown

theorem Mirrors.beginCall (h : Mirrors env owner w sim) (operation : Operation)
    (cancelled : Bool) : Mirrors env owner w (sim.beginCall operation cancelled).2 := by
  unfold Simulation.beginCall
  split
  · exact h
  · split
    · exact h.reach _
    · exact h.takeTime _

theorem Mirrors.startCanceller (h : Mirrors env owner w sim) (cancel : Cancel) :
    Mirrors env owner w (sim.startCanceller cancel).2 := by
  cases cancel with
  | never | before => exact h
  | after ms => exact h.spawn (.patience ms) trivial rfl

/-- A request that is looked for is one that a task awaits. -/
theorem exists_of_findRequest? {holds : Pending → Bool} {task : Task} {p : Pending}
    (found : sim.findRequest? holds = some (task, p)) :
    task ∈ sim.tasks ∧ task.activity = .request p := by
  obtain ⟨t, ht, same⟩ := List.exists_of_findSome?_eq_some found
  split at same
  · rename_i q about
    split at same
    · cases same
      exact ⟨ht, about⟩
    · cases same
  · cases same

/-- A request may be marked, as long as its operation stays. -/
theorem Mirrors.replace (h : Mirrors env owner w sim) {task : Task} {p q : Pending}
    (mem : task ∈ sim.tasks) (about : task.activity = .request p)
    (same : q.operation = p.operation) :
    Mirrors env owner w (sim.replace { task with activity := .request q }) := by
  refine h.of_tasks ⟨rfl, rfl, rfl⟩ ?_
  intro t' ht'
  obtain ⟨t, ht, rfl⟩ := List.mem_map.mp ht'
  split
  · refine (h.tasks task mem).of_operation?_eq trivial ?_
    rw [about]
    exact congrArg some same
  · exact h.tasks t ht

theorem Mirrors.giveUp (h : Mirrors env owner w sim) (canceller : Nat) :
    Mirrors env owner w (sim.giveUp canceller) := by
  unfold Simulation.giveUp
  split
  · exact h
  · rename_i task p found
    obtain ⟨mem, about⟩ := exists_of_findRequest? found
    have marked := h.replace mem about (q := { p with cancelled := true }) rfl
    dsimp only
    split
    · exact marked.wake _
    · exact marked

theorem Mirrors.release (h : Mirrors env owner w sim) (holder : Nat) :
    Mirrors env owner w (sim.release holder) := by
  unfold Simulation.release
  split
  · exact h
  · rename_i task p found
    obtain ⟨mem, about⟩ := exists_of_findRequest? found
    exact (h.replace mem about (q := { p with call := .entered }) rfl).wake _

theorem Mirrors.disarm (h : Mirrors env owner w sim) (holder : Nat) :
    Mirrors env owner w (sim.disarm holder) := by
  unfold Simulation.disarm
  split
  · exact h.of_tasks ⟨rfl, rfl, rfl⟩ h.tasks
  · exact h

theorem Mirrors.fireDue (h : Mirrors env owner w sim) : Mirrors env owner w sim.fireDue := by
  refine Mirrors.foldl_wake _ _ (h.of_tasks ⟨rfl, rfl, rfl⟩ ?_)
  intro t' ht'
  obtain ⟨t, ht, rfl⟩ := List.mem_map.mp ht'
  unfold Task.expire
  split <;> exact h.tasks t ht

theorem Mirrors.wakePaused (h : Mirrors env owner w sim) : Mirrors env owner w sim.wakePaused :=
  foldl_wake (fun id => id) _ (h.of_tasks ⟨rfl, rfl, rfl⟩ h.tasks)

theorem Mirrors.jump (h : Mirrors env owner w sim) : Mirrors env owner w sim.jump := by
  unfold Simulation.jump
  split
  · exact h.of_tasks ⟨rfl, rfl, rfl⟩ h.tasks
  · exact h

/-! ## Moves -/

/-- The world makes a move that leaves alone what the tasks await. -/
theorem Mirrors.step (h : Mirrors env owner w sim) (move : Move)
    (kept : ∀ number task, owner number = some task → number < w.begun →
      (w.step env move).operation? number = w.operation? number) :
    Mirrors env owner (w.step env move) { sim with service := (w.step env move).service } where
  env := h.env
  codec := h.codec
  service := rfl
  ordered := World.ordered_step h.ordered move
  tasks t ht := by
    refine (h.tasks t ht).carry fun number operation owned progress => ⟨owned, ?_⟩
    have begun := h.ordered.pending_lt _ (World.mem_pending_of_operation? progress)
    exact (kept number t.id owned begun).trans progress

/-- The number of the request to come belongs to no task. -/
theorem Mirrors.exists_free_begun (h : Mirrors env owner w sim) :
    ∃ owner', owner' w.begun = none ∧ Mirrors env owner' w sim := by
  refine ⟨Function.update owner w.begun none, Function.update_self .., ?_⟩
  refine h.of_tasks ⟨rfl, rfl, rfl⟩ ?_
  intro t ht
  refine (h.tasks t ht).carry fun number operation owned progress => ⟨?_, progress⟩
  have begun := h.ordered.pending_lt _ (World.mem_pending_of_operation? progress)
  rw [Function.update_of_ne (Nat.ne_of_lt begun), owned]

/-- The world in which a request has begun. -/
theorem Mirrors.begin (h : Mirrors env owner w sim) (request : Request) (cancelled : Bool)
    {progress : Progress} {service : Service}
    (came : sim.service.begin sim.env sim.moment cancelled request = (progress, service)) :
    Mirrors env owner (w.step env (.begin request cancelled sim.moment)) { sim with service } ∧
      ∀ next, progress = .awaiting next →
        (w.step env (.begin request cancelled sim.moment)).operation? w.begun = some next := by
  rw [h.env, h.service] at came
  have stepped : w.step env (.begin request cancelled sim.moment) =
      World.settle w.begun { w with begun := w.begun + 1 } (progress, service) := by
    rw [World.step, World.begin, came]
  have moved := h.step (.begin request cancelled sim.moment) (by
    intro other task owned begun
    rw [stepped, World.operation?_settle_of_ne (Nat.ne_of_lt begun)]
    rfl)
  rw [stepped, World.service_settle] at moved
  rw [stepped]
  refine ⟨moved, ?_⟩
  rintro next rfl
  exact World.operation?_settle_self ..

/-- The world in which the call has happened that the request of a number awaits. -/
theorem Mirrors.resume (h : Mirrors env owner w sim) (free : owner number = none)
    (awaited : w.operation? number = some operation) (cancelled : Bool)
    {progress : Progress} {service : Service}
    (came : sim.service.resume sim.env sim.moment cancelled operation = (progress, service)) :
    Mirrors env owner (w.step env (.resume number cancelled sim.moment)) { sim with service } ∧
      ∀ next, progress = .awaiting next →
        (w.step env (.resume number cancelled sim.moment)).operation? number = some next := by
  rw [h.env, h.service] at came
  have stepped : w.step env (.resume number cancelled sim.moment) =
      (World.settle number (w.remove number) (progress, service)).enter w.store (some number) := by
    simp only [World.step, World.resume, awaited, came]
  have moved := h.step (.resume number cancelled sim.moment) (by
    intro other task owned _
    have apart : other ≠ number := by
      rintro rfl
      rw [free] at owned
      cases owned
    rw [stepped, World.operation?_enter, World.operation?_settle_of_ne apart,
      World.operation?_remove_of_ne apart])
  rw [stepped, World.service_enter, World.service_settle] at moved
  rw [stepped]
  refine ⟨moved, ?_⟩
  rintro next rfl
  rw [World.operation?_enter, World.operation?_settle_self]

/-! ## Turns -/

theorem Stopped.mirrored {stop : Stop × Simulation} (h : Stopped env u stop) :
    Mirrored env u stop.2 := by
  obtain ⟨w, run, owner, mirrors, -⟩ := h
  exact ⟨w, run, owner, mirrors⟩

theorem Mirrored.ended (h : Mirrored env u sim) (result : Result) :
    Stopped env u (.ended result, sim) := by
  obtain ⟨w, run, owner, mirrors⟩ := h
  exact ⟨w, run, owner, mirrors, trivial⟩

theorem Mirrored.waiting (h : Mirrored env u sim) (activity : Activity) (plain : activity.IsPlain)
    (idle : activity.operation? = none) (plainFrames : ∀ frame ∈ frames, frame.IsPlain)
    (timer : Option Timer) : Stopped env u (.waiting activity frames timer, sim) := by
  obtain ⟨w, run, owner, mirrors⟩ := h
  exact ⟨w, run, owner, mirrors, plain, plainFrames, by simp [idle]⟩

/-! ### Requests -/

theorem stopped_carryOn {w : World} {sim : Simulation} (run : Run env (fun _ _ => True) u w)
    (h : Mirrors env owner w sim) (p : Pending) (free : owner number = none)
    (awaited : w.operation? number = some p.operation) :
    Stopped env u (sim.carryOn p) := by
  rw [carryOn]
  split
  · rename_i answer service came
    obtain ⟨moved, -⟩ := h.resume free awaited p.cancelled came
    exact ⟨_, run.next trivial, owner, moved, trivial⟩
  · rename_i next service came
    obtain ⟨moved, goesOn⟩ := h.resume free awaited p.cancelled came
    have begun := moved.beginCall next p.cancelled
    split
    · rename_i call timer sim' heq
      rw [heq] at begun
      exact ⟨_, run.next trivial, owner, begun, .of_request free (goesOn next rfl)⟩
    · rename_i sim' heq
      rw [heq] at begun
      exact stopped_carryOn (run.next trivial) begun { p with operation := next } free
        (goesOn next rfl)
termination_by p.operation.rank
decreasing_by
  exact Service.rank_lt_of_resume (congrArg Prod.fst
    ‹sim.service.resume sim.env sim.moment p.cancelled p.operation = _›)

theorem Mirrored.beginRequest (h : Mirrored env u sim) (request : Request) (cancel : Cancel) :
    Stopped env u (sim.beginRequest request cancel) := by
  obtain ⟨w, run, owner, mirrors⟩ := h
  obtain ⟨owner', free, mirrors⟩ := (mirrors.startCanceller cancel).exists_free_begun
  unfold Simulation.beginRequest
  dsimp only
  split
  · rename_i answer service came
    obtain ⟨moved, -⟩ := mirrors.begin request _ came
    exact ⟨_, run.next trivial, owner', moved, trivial⟩
  · rename_i next service came
    obtain ⟨moved, goesOn⟩ := mirrors.begin request _ came
    have begun := moved.beginCall next (decide (cancel = .before))
    split
    · rename_i call timer sim' heq
      rw [heq] at begun
      exact ⟨_, run.next trivial, owner', begun, .of_request free (goesOn next rfl)⟩
    · rename_i sim' heq
      rw [heq] at begun
      exact stopped_carryOn (run.next trivial) begun _ free (goesOn next rfl)

theorem stopped_pursue (run : Run env (fun _ _ => True) u w) (h : Mirrors env owner w sim)
    (p : Pending) (free : owner number = none) (awaited : w.operation? number = some p.operation)
    (timer : Option Timer) : Stopped env u (sim.pursue p timer) := by
  have carriedOn := stopped_carryOn run h p free awaited
  unfold Simulation.pursue
  split
  · exact carriedOn
  · split
    · have taken := h.takeTime p.operation.awaits
      split
      · rename_i timer sim' heq
        rw [heq] at taken
        exact ⟨w, run, owner, taken, .of_request free awaited⟩
      · rename_i sim' heq
        rw [heq] at taken
        exact stopped_carryOn run taken p free awaited
    · exact carriedOn
    · exact ⟨w, run, owner, h, .of_request free awaited⟩

/-! ### Steps that end at once -/

/-- Whatever is neither setting nor task nor service, such as the clock, does not count. -/
theorem Mirrored.of_eq {sim' : Simulation} (h : Mirrored env u sim)
    (same : sim'.env = sim.env ∧ sim'.codec = sim.codec ∧ sim'.service = sim.service)
    (tasks : sim'.tasks = sim.tasks) : Mirrored env u sim' := by
  obtain ⟨w, run, owner, mirrors⟩ := h
  exact ⟨w, run, owner, mirrors.of_tasks same (tasks ▸ mirrors.tasks)⟩

/-- A move that no request in progress has to do with. -/
theorem Mirrored.step (h : Mirrored env u sim) (move : Move) {service : Service}
    (kept : ∀ w : World, (w.step env move).pending = w.pending)
    (came : ∀ w : World, w.service = sim.service → (w.step env move).service = service) :
    Mirrored env u { sim with service } := by
  obtain ⟨w, run, owner, mirrors⟩ := h
  have moved := mirrors.step move (fun number _ _ _ => by
    rw [World.operation?, kept, World.operation?])
  rw [came w mirrors.service.symm] at moved
  exact ⟨_, run.next trivial, owner, moved⟩

theorem Mirrored.change (h : Mirrored env u sim) (change : Change) :
    Mirrored env u { sim with service := change.apply sim.service } := by
  refine h.step (.change change) ?_ ?_
  · intro w
    exact World.pending_enter _ _ _
  · intro w same
    rw [World.step, World.service_enter, same]

theorem Mirrored.activeCodec_eq (h : Mirrored env u sim) :
    sim.env = env ∧ sim.activeCodec = .signed env.scheme := by
  obtain ⟨w, -, owner, mirrors⟩ := h
  refine ⟨mirrors.env, ?_⟩
  rw [activeCodec, mirrors.codec, mirrors.env]
  rfl

theorem Mirrored.save (h : Mirrored env u sim) (name : Option String) (token : String) :
    Mirrored env u (sim.save name token) := by
  cases name with
  | none => exact h
  | some name => exact h.of_eq ⟨rfl, rfl, rfl⟩ rfl

theorem Mirrored.login (h : Mirrored env u sim) (credentials : Credentials) (now : Instant)
    (name : Option String) : Mirrored env u (sim.login credentials now name).2 := by
  obtain ⟨rfl, signed⟩ := h.activeCodec_eq
  have moved := h.step (.login sim.verify credentials now) (fun _ => rfl) (fun w same => by
    rw [World.step, same])
  unfold Simulation.login
  rw [signed]
  split
  · rename_i e service came
    rw [came] at moved
    exact moved
  · rename_i issued service came
    rw [came] at moved
    exact moved.save name issued.token

theorem Mirrored.authenticate (h : Mirrored env u sim) (token : Presented) (autoRenew : Bool)
    (now : Instant) (name : Option String) :
    Mirrored env u (sim.authenticate token autoRenew now name).2 := by
  obtain ⟨rfl, signed⟩ := h.activeCodec_eq
  unfold Simulation.authenticate
  split
  · exact h
  · rename_i text _
    have moved := h.step (.authenticate text autoRenew now) (fun _ => rfl) (fun w same => by
      rw [World.step, same])
    rw [signed]
    split
    · rename_i e service came
      rw [came] at moved
      exact moved
    · rename_i a service came
      rw [came] at moved
      exact moved.save name a.token

theorem Mirrored.check (h : Mirrored env u sim) (token : Presented) (now : Instant) :
    Mirrored env u (sim.check token now).2 := by
  obtain ⟨rfl, signed⟩ := h.activeCodec_eq
  unfold Simulation.check
  split
  · exact h
  · rename_i text _
    have moved := h.step (.check text now) (fun _ => rfl) (fun w same => by
      rw [World.step, same])
    rw [signed]
    split <;> rename_i came <;> rw [came] at moved <;> exact moved

theorem Mirrored.insert (h : Mirrored env u sim) (record : Record) :
    Mirrored env u (sim.insert record).2 := by
  have moved := h.change (.insert record)
  unfold Simulation.insert
  unfold Change.apply at moved
  dsimp only at moved
  split
  · exact h
  · rename_i store inserted
    rw [inserted] at moved
    exact moved

theorem Mirrored.setFault (h : Mirrored env u sim) (call : StoreCall) (error : Option StoreError) :
    Mirrored env u (sim.withRepository (setFault call error)) := by
  cases call with
  | write => exact h.change (.faults { sim.service.repository.faults with write := error })
  | list => exact h.change (.faults { sim.service.repository.faults with list := error })
  | delete =>
    exact h.change (.faults
      { sim.service.repository.faults with delete := error.map fun e => (none, e) })

/-! ### Waiting -/

theorem Mirrored.of_mirrors {sim' : Simulation} (h : Mirrored env u sim)
    (each : ∀ owner w, Mirrors env owner w sim → Mirrors env owner w sim') :
    Mirrored env u sim' := by
  obtain ⟨w, run, owner, mirrors⟩ := h
  exact ⟨w, run, owner, each owner w mirrors⟩

theorem Mirrored.awaitTask (h : Mirrored env u sim) (id : Nat) :
    Stopped env u (sim.awaitTask id, sim) := by
  unfold Simulation.awaitTask
  split
  · exact h.ended _
  · exact h.waiting (.join id) trivial rfl (by simp) none

theorem Mirrored.awaitAll (h : Mirrored env u sim) (ids left : List Nat) :
    Stopped env u (sim.awaitAll ids left, sim) := by
  unfold Simulation.awaitAll
  split
  · exact h.ended _
  · exact h.waiting (.all ids _) trivial rfl (by simp) none

/-- A task begins a step. -/
theorem Mirrored.begin {step : Step} (h : Mirrored env u sim) (plain : step.IsPlain) (id : Nat) :
    Stopped env u (begin id sim step) := by
  cases step with
  | request request cancel => exact h.beginRequest request cancel
  | insert record => exact (h.insert record).ended _
  | size | snapshot | overview => exact h.ended _
  | fail call error => exact (h.setFault call error).ended _
  | failDeleteOf name error =>
    have moved := h.change
      (.faults { sim.service.repository.faults with delete := some (some name, error) })
    exact moved.ended _
  | delay | failUsers =>
    apply Mirrored.ended
    exact h.of_eq ⟨rfl, rfl, rfl⟩ rfl
  | listOldestFirst | codec => exact plain.elim
  | failBeforeList f => exact (h.change (.failBeforeList f)).ended _
  | failAfterWrite f => exact (h.change (.failAfterWrite f)).ended _
  | failKeys on => exact (h.change (.failKeys on)).ended _
  | register hook => exact (h.change (.register hook)).ended _
  | login credentials now name => exact (h.login credentials now name).ended _
  | authenticate token autoRenew now name =>
    exact (h.authenticate token autoRenew now name).ended _
  | check token now => exact (h.check token now).ended _
  | advance ms =>
    have later : Mirrored env u (pause { sim with now := sim.now + ms } id) :=
      h.of_eq ⟨rfl, rfl, rfl⟩ rfl
    exact later.waiting (.pause 1) trivial rfl (by simp) none
  | many steps =>
    have spawned := h.of_mirrors fun _ _ mirrors => mirrors.spawnAll plain
    exact spawned.awaitAll _ _
  | spawn name step =>
    have spawned := h.of_mirrors fun _ _ mirrors => mirrors.spawn (.step step) plain rfl
    apply Mirrored.ended
    exact spawned.of_eq ⟨rfl, rfl, rfl⟩ rfl
  | join name =>
    simp only [Simulation.begin]
    split
    · exact h.awaitTask _
    · exact h.ended _
  | gated step others =>
    have spawned := h.of_mirrors fun _ _ mirrors => mirrors.spawn (.step step) plain.1 rfl
    have held : Mirrored env u { (sim.spawn (.step step)).2 with holder := some id } :=
      spawned.of_eq ⟨rfl, rfl, rfl⟩ rfl
    exact held.waiting (.hold _ others false) plain.2 rfl (by simp) none

/-! ### Steps within steps -/

theorem Mirrored.settleOthers (h : Mirrored env u sim) (id task : Nat) {others : List Step}
    (plain : Step.ArePlain others) (results : List Result)
    (plainFrames : ∀ frame ∈ frames, frame.IsPlain) :
    Stopped env u (settleOthers id task others results frames sim) := by
  have paused : Mirrored env u (sim.pause id) := h.of_eq ⟨rfl, rfl, rfl⟩ rfl
  have settling : (Frame.settling task others results).IsPlain := plain
  exact paused.waiting (.pause settleRounds) trivial rfl
    (List.forall_mem_cons.mpr ⟨settling, plainFrames⟩) none

/-- What a task waits for goes on with what is behind it. -/
theorem Stopped.append {timer : Option Timer} {behind : List Frame}
    (h : Stopped env u (.waiting activity frames timer, sim))
    (plain : ∀ frame ∈ behind, frame.IsPlain) :
    Stopped env u (.waiting activity (frames ++ behind) timer, sim) := by
  obtain ⟨w, run, owner, mirrors, shown⟩ := h
  exact ⟨w, run, owner, mirrors, shown.append plain⟩

theorem Mirrored.performOthers {others : List Step} (h : Mirrored env u sim)
    (plain : Step.ArePlain others) (id task : Nat) (results : List Result) :
    Stopped env u (performOthers id task results sim others) := by
  cases others with
  | nil =>
    have released := h.of_mirrors fun _ _ mirrors => mirrors.release id
    simp only [Simulation.performOthers]
    split
    · exact released.ended _
    · exact released.waiting (.join task) trivial rfl (by simp [Frame.IsPlain]) none
  | cons step others =>
    obtain ⟨first, rest⟩ := plain
    have begun := h.begin first id
    simp only [Simulation.performOthers]
    split
    · rename_i result sim' heq
      rw [heq] at begun
      exact begun.mirrored.settleOthers id task rest _ (by simp)
    · rename_i activity frames timer sim' heq
      rw [heq] at begun
      exact begun.append (List.forall_mem_singleton.mpr rest)

/-- A result is passed on to what it is for. -/
theorem Mirrored.deliver (h : Mirrored env u sim) (id : Nat) (result : Result)
    (plain : ∀ frame ∈ frames, frame.IsPlain) :
    Stopped env u (deliver id result sim frames) := by
  induction frames generalizing result sim with
  | nil => exact h.ended result
  | cons frame frames ih =>
    obtain ⟨first, rest⟩ := List.forall_mem_cons.mp plain
    cases frame with
    | closing results => exact ih h _ rest
    | performing task others results => exact h.settleOthers id task first _ rest
    | settling task others results =>
      have performed := h.performOthers first id task results
      rw [Simulation.deliver]
      split
      · rename_i result' sim' heq
        rw [heq] at performed
        exact ih performed.mirrored result' rest
      · rename_i activity inner timer sim' heq
        rw [heq] at performed
        exact performed.append rest

/-! ### Tasks -/

/-- A task goes on with its activity. -/
theorem stopped_proceed (run : Run env (fun _ _ => True) u w) (h : Mirrors env owner w sim)
    (task : Task) (shown : Shows owner w none task.activity task.frames) :
    Stopped env u (sim.proceed task) := by
  have mirrored : Mirrored env u sim := ⟨w, run, owner, h⟩
  obtain ⟨id, activity, frames, timer⟩ := task
  obtain ⟨plain, -, awaited⟩ := shown
  cases activity with
  | step step => exact mirrored.begin plain id
  | request p =>
    obtain ⟨number, free, progress⟩ := awaited p.operation rfl
    exact stopped_pursue run h p free progress timer
  | pause rounds =>
    simp only [Simulation.proceed]
    split
    · exact mirrored.ended _
    · have paused : Mirrored env u (sim.pause id) := mirrored.of_eq ⟨rfl, rfl, rfl⟩ rfl
      exact paused.waiting (.pause (rounds - 1)) trivial rfl (by simp) none
  | all ids left => exact mirrored.awaitAll ids left
  | join other => exact mirrored.awaitTask other
  | hold other others isReached =>
    simp only [Simulation.proceed]
    split
    · have disarmed := mirrored.of_mirrors fun _ _ mirrors => mirrors.disarm id
      exact disarmed.performOthers plain id other []
    · exact mirrored.waiting (.hold other others false) plain rfl (by simp) none
  | patience ms =>
    cases ms with
    | zero => exact (mirrored.of_mirrors fun _ _ mirrors => mirrors.giveUp id).ended _
    | succ ms =>
      have timed := mirrored.of_mirrors fun _ _ mirrors => mirrors.timer (ms + 1)
      exact timed.waiting .giveUp trivial rfl (by simp) _
  | giveUp =>
    simp only [Simulation.proceed]
    split
    · exact mirrored.waiting .giveUp trivial rfl (by simp) _
    · exact (mirrored.of_mirrors fun _ _ mirrors => mirrors.giveUp id).ended _

/-- **The turn of a task**: whatever the task is about, its turn comes down to moves of a world. -/
theorem mirrored_turn (h : Mirrored env u sim) (id : Nat) : Mirrored env u (turn id sim) := by
  unfold turn
  split
  · exact h
  · rename_i task found
    obtain ⟨w, run, owner, mirrors⟩ := h
    obtain rfl : task.id = id := by simpa using List.find?_some found
    obtain ⟨owner', taken, shown⟩ := mirrors.take (List.mem_of_find?_eq_some found)
    have proceeded := stopped_proceed run taken task shown
    split
    rename_i stop sim' stops
    have stopped : Stopped env u (stop, sim') := by
      rw [← stops]
      split
      · rename_i result sim' heq
        rw [heq] at proceeded
        exact proceeded.mirrored.deliver task.id result shown.plainFrames
      · rename_i activity frames timer sim' heq
        rw [heq] at proceeded
        exact proceeded.append shown.plainFrames
    obtain ⟨w', run', owner, mirrors, waits⟩ := stopped
    cases stop with
    | ended result => exact ⟨w', run', owner, mirrors.finish task.id result⟩
    | waiting activity frames timer => exact ⟨w', run', mirrors.put waits task.id timer⟩

/-! ## Schedules -/

theorem Mirrored.runReady (h : Mirrored env u sim) (n : Nat) : Mirrored env u (runReady n sim) := by
  induction n generalizing sim with
  | zero => exact h
  | succ n ih =>
    rw [Simulation.runReady]
    split
    · exact h
    · rename_i id ready _
      have called : Mirrored env u { sim with ready } := h.of_eq ⟨rfl, rfl, rfl⟩ rfl
      exact ih (mirrored_turn called id)

theorem Mirrored.round (h : Mirrored env u sim) (passes : Bool) :
    Mirrored env u (round passes sim) := by
  have ran := h.runReady burst
  have passed := ran.of_mirrors fun _ _ mirrors => mirrors.jump
  unfold Simulation.round
  dsimp only
  split
  · exact passed.of_mirrors fun _ _ mirrors => mirrors.fireDue.wakePaused
  · exact ran.of_mirrors fun _ _ mirrors => mirrors.fireDue.wakePaused

theorem Mirrored.runForeground (h : Mirrored env u sim) (id fuel : Nat) :
    Mirrored env u (runForeground id fuel sim) := by
  induction fuel generalizing sim with
  | zero => exact h
  | succ fuel ih =>
    have goesOn : ∀ sim : Simulation, Mirrored env u sim → Mirrored env u
        (if (sim.result? id).isSome then sim else runForeground id fuel (sim.round true)) := by
      intro sim h
      split
      · exact h
      · exact ih (h.round true)
    rw [Simulation.runForeground]
    refine goesOn _ ?_
    split
    · have noted : Mirrored env u { sim with isCalled := false } := h.of_eq ⟨rfl, rfl, rfl⟩ rfl
      exact mirrored_turn noted id
    · exact h

theorem Mirrored.settle (h : Mirrored env u sim) (rounds : Nat) :
    Mirrored env u (settle rounds sim) := by
  induction rounds generalizing sim with
  | zero => exact h
  | succ rounds ih =>
    rw [Simulation.settle]
    split
    · exact h
    · exact ih (h.round false)

/-! ## Runs -/

/-- **A simulated step makes moves of a world**, together with all that it sets going. -/
theorem mirrored_perform {step : Step} (h : Mirrored env u sim) (plain : step.IsPlain) :
    Mirrored env u (perform step sim).2 := by
  have entered : Mirrored env u (sim.enter step).2 := by
    refine h.of_mirrors fun owner w mirrors => ?_
    refine mirrors.of_tasks ⟨rfl, rfl, rfl⟩ (List.forall_mem_append.mpr ⟨mirrors.tasks, ?_⟩)
    exact List.forall_mem_singleton.mpr (.of_idle plain rfl)
  have ran := entered.runForeground (sim.enter step).1 (sim.enter step).2.roundsLeft
  apply Mirrored.settle
  exact ran.of_eq ⟨rfl, rfl, rfl⟩ rfl

theorem mirrored_of_mem_run {steps : List Step} (h : Mirrored env u sim)
    (plain : Step.ArePlain steps) {r : Report} (mem : r ∈ run sim steps) :
    Mirrored env u r.after := by
  induction steps generalizing sim with
  | nil => cases mem
  | cons step steps ih =>
    obtain ⟨first, rest⟩ := plain
    have performed := mirrored_perform h first
    rcases List.mem_cons.mp mem with rfl | mem
    · exact performed
    · exact ih performed rest mem

/-- **Simulations are worlds**: the service behind each step of a simulation is one to which moves
lead from the start. -/
theorem exists_run_of_mem_run (env : Environment) (users : CredentialVerifier) {steps : List Step}
    (plain : Step.ArePlain steps) {r : Report} (mem : r ∈ run (start env users) steps) :
    ∃ w, Run env (fun _ _ => True) (World.start .initial) w ∧ r.after.service = w.service := by
  have mirrors : Mirrors env (fun _ => none) (World.start .initial) (start env users) :=
    ⟨rfl, rfl, rfl, World.ordered_start _, by simp [start]⟩
  obtain ⟨w, run, owner, mirrors⟩ := mirrored_of_mem_run ⟨_, .refl _, _, mirrors⟩ plain mem
  exact ⟨w, run, mirrors.service⟩

end

end Simulation

end Keyring
