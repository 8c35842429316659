import Keyring.Proofs.Chronicle

/-!
# A listing and its keys are apart

A refresh gets a listing, makes keys of it on its own and then puts them into use; only the last of
this is done under a lock. On several threads anything may come in between. In a move of a world a
refresh does all of it at once, so threads are a world together with the listings that refreshes have
got and not put into use yet.

* `Threads.step`: a refresh gets its listing, or a move of the world is made, in which a refresh goes
  on with the listing it has. `Threads.Acts` lists what a step may do (`acts_step`), and `moves_step`
  says that to the world it does what a move of the world may do.
* `world_step_of_held_nil`, `world_step_of_listed`: where nothing comes in between, threads are worlds.
* `Traced` says where the listings come from (`traced_of_run`), and `keys_of_latest_listing` is the
  result about runs: the keys in use are those of one listing as a whole.
-/

namespace Keyring

/-- A listing that a refresh has got. -/
structure Held where
  number : Nat
  answer : Except StoreError (List Record)
  /-- How many steps came before it. -/
  listed : Nat
  /-- What had been put into the store by then, from the newest on. -/
  known : List Record

/-- A refresh that has put keys into use. -/
structure Serving where
  number : Nat
  records : List Record
  /-- How many steps came before its listing. -/
  listed : Nat
  /-- How many steps came before its keys were put into use. -/
  installed : Nat
  deriving DecidableEq

structure Threads where
  world : World
  /-- The listings that are not in use yet. -/
  held : List Held
  /-- The refreshes that have succeeded, the latest first. -/
  served : List Serving
  /-- How many steps were made. -/
  clock : Nat

namespace Threads

/-- What happens next. -/
inductive Action where
  /-- A refresh gets its listing, unless its caller has given up, and does not go on yet. -/
  | list (number : Nat) (cancelled : Bool)
  | move (move : Move)

/-- A service that nothing has been asked of. -/
def start (service : Service) : Threads := ⟨.start service, [], [], 0⟩

/-- The listing that a refresh has got. -/
def held? (t : Threads) (number : Nat) : Option Held := t.held.find? fun h => h.number == number

/-- The listing that a refresh would get now. -/
def listing (number : Nat) (cancelled : Bool) (t : Threads) : Held where
  number
  answer := t.world.service.takeListing cancelled
  listed := t.clock
  known := t.world.records

/-- A refresh keeps the listing that it has got. -/
def hold (listing : Held) (t : Threads) : Threads :=
  { t with held := listing :: t.held, clock := t.clock + 1 }

/-- The listing that a refresh goes on with, which it gets now unless it has got it before. -/
def source (number : Nat) (cancelled : Bool) (t : Threads) : Held :=
  (t.held? number).getD (t.listing number cancelled)

/-- A refresh puts the keys of its listing into use, if it can, and goes on with what is behind. -/
def install (env : Environment) (number : Nat) (purpose : Purpose) (cancelled : Bool) (now : Moment)
    (t : Threads) : Threads where
  world := World.settle number (t.world.remove number)
    (t.world.service.finishRefresh env now cancelled purpose (t.source number cancelled).answer)
  held := t.held.filter fun h => h.number != number
  served := ((Snapshot.usable? (t.source number cancelled).answer).map fun records =>
    ⟨number, records, (t.source number cancelled).listed, t.clock⟩).toList ++ t.served
  clock := t.clock + 1

/-- A move of the world in which no refresh goes on. -/
def pass (env : Environment) (move : Move) (t : Threads) : Threads :=
  { t with world := t.world.step env move, clock := t.clock + 1 }

def resume (env : Environment) (number : Nat) (cancelled : Bool) (now : Moment) (t : Threads) :
    Threads :=
  match t.world.operation? number with
  | some (.refresh purpose) => t.install env number purpose cancelled now
  | _ => t.pass env (.resume number cancelled now)

/-- The threads after an action. -/
def step (env : Environment) (t : Threads) : Action → Threads
  | .list number cancelled =>
    match t.world.operation? number, t.held? number with
    | some (.refresh _), none => t.hold (t.listing number cancelled)
    | _, _ => { t with clock := t.clock + 1 }
  | .move (.resume number cancelled now) => t.resume env number cancelled now
  | .move move => t.pass env move

/-- The threads after actions, one after the other. -/
def after (env : Environment) (t : Threads) (actions : List Action) : Threads :=
  actions.foldl (step env) t

/-- The threads that come of threads by actions that are allowed where they are made. -/
abbrev Run (env : Environment) (Allowed : Threads → Action → Prop) : Threads → Threads → Prop :=
  Steps (step env) Allowed

/-- Actions that are allowed make a run. -/
theorem Run.of_admits {env : Environment} {Allowed : Threads → Action → Prop} {t : Threads}
    (actions : List Action) (h : Steps.Admits (step env) Allowed t actions) :
    Run env Allowed t (t.after env actions) := Steps.of_admits actions h

variable {env : Environment} {Allowed : Threads → Action → Prop} {service : Service}
  {b c t : Threads} {number : Nat} {purpose : Purpose} {cancelled : Bool} {now : Moment} {h : Held}

/-! ## What an action does -/

theorem source_of_held (held : t.held? number = some h) : t.source number cancelled = h := by
  rw [source, held]
  rfl

theorem source_of_free (free : t.held? number = none) :
    t.source number cancelled = t.listing number cancelled := by
  rw [source, free]
  rfl

theorem mem_of_held? (held : t.held? number = some h) : h ∈ t.held ∧ h.number = number :=
  ⟨List.mem_of_find?_eq_some held, by simpa using List.find?_some held⟩

/-- What an action may do. -/
inductive Acts (env : Environment) (t : Threads) : Action → Threads → Prop where
  /-- Nobody is there to do it. -/
  | waits (number : Nat) (cancelled : Bool) :
    Acts env t (.list number cancelled) { t with clock := t.clock + 1 }
  | lists (number : Nat) (purpose : Purpose) (cancelled : Bool)
    (awaiting : t.world.operation? number = some (.refresh purpose))
    (free : t.held? number = none) :
    Acts env t (.list number cancelled) (t.hold (t.listing number cancelled))
  | installs (number : Nat) (purpose : Purpose) (cancelled : Bool) (now : Moment)
    (awaiting : t.world.operation? number = some (.refresh purpose)) :
    Acts env t (.move (.resume number cancelled now)) (t.install env number purpose cancelled now)
  | passes (move : Move)
    (other : ∀ number cancelled now, move = .resume number cancelled now →
      ∀ purpose, t.world.operation? number ≠ some (.refresh purpose)) :
    Acts env t (.move move) (t.pass env move)

theorem acts_step (env : Environment) (t : Threads) (action : Action) :
    Acts env t action (t.step env action) := by
  cases action with
  | list number cancelled =>
    simp only [step]
    split
    · rename_i awaiting free
      exact .lists number _ cancelled awaiting free
    · exact .waits number cancelled
  | move move =>
    cases move with
    | resume number cancelled now =>
      simp only [step, resume]
      split
      · rename_i awaiting
        exact .installs number _ cancelled now awaiting
      · rename_i other
        refine .passes _ fun _ _ _ same purpose => ?_
        cases same
        exact other purpose
    | begin | login | authenticate | check | change =>
      exact .passes _ fun _ _ _ same => (nomatch same)

theorem step_list (awaiting : t.world.operation? number = some (.refresh purpose))
    (free : t.held? number = none) :
    t.step env (.list number cancelled) = t.hold (t.listing number cancelled) := by
  simp only [step, awaiting, free]

theorem step_resume_refresh (awaiting : t.world.operation? number = some (.refresh purpose)) :
    t.step env (.move (.resume number cancelled now)) =
      t.install env number purpose cancelled now := by
  simp only [step, resume, awaiting]

@[simp] theorem clock_step (action : Action) : (t.step env action).clock = t.clock + 1 := by
  have acts := acts_step env t action
  generalize t.step env action = t' at acts
  cases acts <;> rfl

/-- To the world an action does what its move may do. -/
theorem moves_step (env : Environment) (t : Threads) (move : Move) :
    World.Moves env t.world move (t.step env (.move move)).world := by
  have acts := acts_step env t (.move move)
  generalize t.step env (.move move) = t' at acts
  cases acts with
  | passes => exact World.moves_step env t.world move
  | installs number purpose cancelled now awaiting =>
    have resumed := Service.resumes_finishRefresh env now cancelled purpose
      (t.source number cancelled).answer t.world.service
    have moves : World.Moves env t.world (.resume number cancelled now) _ :=
      .resumes number cancelled now _ _ _ none (World.mem_pending_of_operation? awaiting) resumed
    rwa [World.settled_none] at moves

/-- What is put into the store does not depend on the listings. -/
theorem history_step (env : Environment) (t : Threads) (move : Move) :
    (t.step env (.move move)).world.history = (t.world.step env move).history := by
  have acts := acts_step env t (.move move)
  generalize t.step env (.move move) = t' at acts
  cases acts with
  | passes => rfl
  | installs number purpose cancelled now awaiting =>
    rw [World.step_resume_refresh awaiting]
    exact (World.history_settle ..).trans (World.history_settle ..).symm

theorem snapshot_install :
    (t.install env number purpose cancelled now).world.service.snapshot =
      (t.world.service.install (t.source number cancelled).answer).2.snapshot := by
  rw [install, World.service_settle]
  exact (Service.alike_settleRefresh env now cancelled purpose _ _).snapshot

/-- What an action may do to the keys in use. -/
inductive Serves (env : Environment) (t : Threads) (action : Action) : Prop where
  /-- A refresh succeeds: the keys of all records that it got replace those in use. -/
  | succeeds (number : Nat) (purpose : Purpose) (cancelled : Bool) (now : Moment)
    (records : List Record) (goesOn : action = .move (.resume number cancelled now))
    (awaiting : t.world.operation? number = some (.refresh purpose))
    (answer : (t.source number cancelled).answer = .ok records)
    (taken : Snapshot.usable? (t.source number cancelled).answer = some records)
    (count : (t.world.service.install (.ok records)).1 = .ok records.length)
    (served : (t.step env action).served =
      ⟨number, records, (t.source number cancelled).listed, t.clock⟩ :: t.served)
    (keys : (t.step env action).world.service.snapshot.Of records)
  | fails (number : Nat) (purpose : Purpose) (cancelled : Bool) (now : Moment) (e : Error)
    (goesOn : action = .move (.resume number cancelled now))
    (awaiting : t.world.operation? number = some (.refresh purpose))
    (failed : (t.world.service.install (t.source number cancelled).answer).1 = .error e)
    (served : (t.step env action).served = t.served)
    (snapshot : (t.step env action).world.service.snapshot = t.world.service.snapshot)
  /-- No refresh goes on. -/
  | passes
    (other : ∀ number purpose cancelled now, action = .move (.resume number cancelled now) →
      t.world.operation? number ≠ some (.refresh purpose))
    (served : (t.step env action).served = t.served)
    (snapshot : (t.step env action).world.service.snapshot = t.world.service.snapshot)

theorem serves_step (env : Environment) (t : Threads) (action : Action) :
    Serves env t action := by
  have acts := acts_step env t action
  generalize came : t.step env action = t' at acts
  cases acts with
  | waits | lists =>
    exact .passes (fun _ _ _ _ same => (nomatch same)) (came ▸ rfl) (came ▸ rfl)
  | passes move other =>
    refine .passes ?_ (came ▸ rfl) ?_
    · rintro number purpose cancelled now ⟨⟩
      exact other number cancelled now rfl purpose
    · rw [came]
      rcases t.world.served_step env move with ⟨-, same⟩ | ⟨e, records, ended, -⟩
      · exact same
      · obtain ⟨_, _, _, purpose, same, awaiting⟩ := World.refreshing_of_ending? ended
        exact absurd awaiting (other _ _ _ same purpose)
  | installs number purpose cancelled now awaiting =>
    rcases t.world.service.install_eq_ok_or_error (t.source number cancelled).answer with
      ⟨taken, ⟨e, failed⟩, same⟩ | ⟨records, answer, taken, count, keys⟩
    · refine .fails number purpose cancelled now e rfl awaiting failed ?_ ?_
      · simp [came, install, taken]
      · rw [came, snapshot_install, same]
    · refine .succeeds number purpose cancelled now records rfl awaiting answer taken ?_ ?_ ?_
      · rwa [answer] at count
      · simp [came, install, taken]
      · rwa [came, snapshot_install]

/-! ## Where nothing comes in between -/

theorem install_of_free (free : t.held? number = none)
    (awaiting : t.world.operation? number = some (.refresh purpose)) :
    (t.install env number purpose cancelled now).world =
      t.world.step env (.resume number cancelled now) := by
  rw [World.step_resume_refresh awaiting, install, source_of_free free]
  rfl

/-- As long as no listing is held, threads make the moves of the world. -/
theorem world_step_of_held_nil (env : Environment) (free : t.held = []) (move : Move) :
    (t.step env (.move move)).world = t.world.step env move ∧
      (t.step env (.move move)).held = [] := by
  have acts := acts_step env t (.move move)
  generalize t.step env (.move move) = t' at acts
  cases acts with
  | passes => exact ⟨rfl, free⟩
  | installs number purpose cancelled now awaiting =>
    have unheld : t.held? number = none := by rw [held?, free, List.find?_nil]
    exact ⟨install_of_free unheld awaiting, by rw [install, free, List.filter_nil]⟩

/-- A refresh that goes on at once with its listing makes the move of the world. -/
theorem world_step_of_listed (awaiting : t.world.operation? number = some (.refresh purpose))
    (free : t.held? number = none) :
    ((t.step env (.list number cancelled)).step env (.move (.resume number cancelled now))).world =
      t.world.step env (.resume number cancelled now) := by
  have held : (t.hold (t.listing number cancelled)).held? number =
      some (t.listing number cancelled) := List.find?_cons_of_pos (beq_self_eq_true number)
  have awaiting' : (t.hold (t.listing number cancelled)).world.operation? number =
      some (.refresh purpose) := awaiting
  rw [step_list awaiting free, step_resume_refresh awaiting', install, source_of_held held,
    World.step_resume_refresh awaiting]
  rfl

/-- A run of worlds is one of threads in which no listing is held. -/
theorem exists_run_of_world {Allowed : World → Move → Prop} {w : World}
    (run : Keyring.Run env Allowed (.start service) w) :
    ∃ t, Run env (fun t action => ∃ move, action = .move move ∧ Allowed t.world move)
      (start service) t ∧ t.world = w ∧ t.held = [] := by
  induction run with
  | refl => exact ⟨start service, .refl _, rfl, rfl⟩
  | @next w move _ allowed ih =>
    obtain ⟨t, run, rfl, free⟩ := ih
    obtain ⟨world, free⟩ := world_step_of_held_nil env free move
    exact ⟨_, run.next ⟨move, rfl, allowed⟩, world, free⟩

/-! ## Runs -/

theorem clock_le_of_run (run : Run env Allowed b t) : b.clock ≤ t.clock := by
  induction run with
  | refl => exact Nat.le_refl _
  | next _ _ ih =>
    rw [clock_step]
    exact Nat.le_succ_of_le ih

/-- A refresh in progress gets this answer to its listing. -/
structure Lists (number : Nat) (answer : Except StoreError (List Record)) (b : Threads) :
    Prop where
  awaiting : ∃ purpose, b.world.operation? number = some (.refresh purpose)
  answered : ∃ cancelled, b.world.service.takeListing cancelled = answer

/-- In the run a refresh got this answer to its listing, after as many steps as `listed` says. -/
def Listed (env : Environment) (Allowed : Threads → Action → Prop) (service : Service) (t : Threads)
    (number listed : Nat) (answer : Except StoreError (List Record)) : Prop :=
  ∃ b, Run env Allowed (start service) b ∧ Run env Allowed b t ∧ b.clock = listed ∧
    b.Lists number answer

theorem Listed.step {listed : Nat} {answer : Except StoreError (List Record)} {action : Action}
    (h : Listed env Allowed service t number listed answer) (allowed : Allowed t action) :
    Listed env Allowed service (t.step env action) number listed answer := by
  obtain ⟨b, before, between, clock, lists⟩ := h
  exact ⟨b, before, between.next allowed, clock, lists⟩

theorem Listed.le_clock {listed : Nat} {answer : Except StoreError (List Record)}
    (h : Listed env Allowed service t number listed answer) : listed ≤ t.clock := by
  obtain ⟨b, -, between, rfl, -⟩ := h
  exact clock_le_of_run between

/-- What holds of the listings in every run. -/
structure Traced (env : Environment) (Allowed : Threads → Action → Prop) (service : Service)
    (t : Threads) : Prop where
  run : Run env Allowed (start service) t
  held : ∀ h ∈ t.held, Listed env Allowed service t h.number h.listed h.answer
  served : ∀ s ∈ t.served, Listed env Allowed service t s.number s.listed (.ok s.records)
  spans : ∀ s ∈ t.served, s.listed ≤ s.installed

/-- The listing that a refresh goes on with was listed in the run, at the latest now. -/
theorem Traced.source (h : Traced env Allowed service t)
    (awaiting : t.world.operation? number = some (.refresh purpose)) (cancelled : Bool) :
    Listed env Allowed service t number (t.source number cancelled).listed
      (t.source number cancelled).answer := by
  cases held : t.held? number with
  | none =>
    rw [source_of_free held]
    exact ⟨t, h.run, .refl t, rfl, ⟨purpose, awaiting⟩, cancelled, rfl⟩
  | some listing =>
    rw [source_of_held held]
    obtain ⟨mem, rfl⟩ := mem_of_held? held
    exact h.held listing mem

theorem Traced.step {action : Action} (h : Traced env Allowed service t)
    (allowed : Allowed t action) : Traced env Allowed service (t.step env action) where
  run := h.run.next allowed
  held := by
    have listed : ∀ held ∈ t.held, Listed env Allowed service (t.step env action) held.number
        held.listed held.answer := fun held mem => (h.held held mem).step allowed
    have acts := acts_step env t action
    generalize came : t.step env action = t' at acts listed ⊢
    cases acts with
    | waits | passes => exact listed
    | lists number purpose cancelled awaiting free =>
      have source := (h.source awaiting cancelled).step allowed
      rw [source_of_free free, came] at source
      exact List.forall_mem_cons.mpr ⟨source, listed⟩
    | installs => exact fun held mem => listed held (List.mem_of_mem_filter mem)
  served := by
    have listed : ∀ s ∈ t.served, Listed env Allowed service (t.step env action) s.number s.listed
        (.ok s.records) := fun s mem => (h.served s mem).step allowed
    cases serves_step env t action with
    | succeeds number purpose cancelled now records goesOn awaiting answer taken count served keys =>
      have source := (h.source awaiting cancelled).step allowed
      rw [answer] at source
      rw [served]
      exact List.forall_mem_cons.mpr ⟨source, listed⟩
    | fails _ _ _ _ _ _ _ _ served | passes _ served =>
      rw [served]
      exact listed
  spans := by
    cases serves_step env t action with
    | succeeds number purpose cancelled now records goesOn awaiting answer taken count served keys =>
      rw [served]
      exact List.forall_mem_cons.mpr ⟨(h.source awaiting cancelled).le_clock, h.spans⟩
    | fails _ _ _ _ _ _ _ _ served | passes _ served =>
      rw [served]
      exact h.spans

theorem traced_of_run (run : Run env Allowed (start service) t) :
    Traced env Allowed service t :=
  run.induct ⟨.refl _, by simp [start], by simp [start], by simp [start]⟩ fun _ _ h allowed => h.step allowed

/-- What holds of the keys in use in every run. -/
structure Sound (service : Service) (t : Threads) : Prop where
  unserved : t.served = [] → t.world.service.snapshot = service.snapshot
  latest : ∀ s, t.served.head? = some s → t.world.service.snapshot.Of s.records
  usable : ∀ s ∈ t.served, ∀ r ∈ s.records, r.key.length = 32
  past : ∀ s ∈ t.served, s.installed < t.clock
  order : t.served.Pairwise fun s s' => s'.installed < s.installed

theorem Sound.step {action : Action} (h : t.Sound service) : (t.step env action).Sound service := by
  have past : ∀ s ∈ t.served, s.installed < (t.step env action).clock := by
    intro s mem
    rw [clock_step]
    exact Nat.lt_succ_of_lt (h.past s mem)
  cases serves_step env t action with
  | succeeds number purpose cancelled now records goesOn awaiting answer taken count served keys =>
    refine ⟨?_, ?_, ?_, ?_, ?_⟩ <;> rw [served]
    · exact fun none => (nomatch none)
    · rintro s ⟨⟩
      exact keys
    · exact List.forall_mem_cons.mpr ⟨keys.length_key, h.usable⟩
    · refine List.forall_mem_cons.mpr ⟨?_, past⟩
      rw [clock_step]
      exact Nat.lt_succ_self _
    · exact List.pairwise_cons.mpr ⟨h.past, h.order⟩
  | fails _ _ _ _ _ _ _ _ served snapshot | passes _ served snapshot =>
    refine ⟨?_, ?_, ?_, ?_, ?_⟩ <;> rw [served]
    · exact fun none => snapshot.trans (h.unserved none)
    · exact fun s head => snapshot ▸ h.latest s head
    · exact h.usable
    · exact past
    · exact h.order

theorem sound_of_run (run : Run env Allowed (start service) t) : t.Sound service := by
  refine run.induct ?_ fun _ _ h _ => h.step
  constructor <;> simp [start, World.start]

/-- Each refresh that has succeeded did so in the step in which it got its listing. -/
structure AtOnce (t : Threads) : Prop where
  unheld : t.held = []
  atOnce : ∀ s ∈ t.served, s.listed = s.installed

theorem AtOnce.step {action : Action} (h : t.AtOnce)
    (other : ∀ number cancelled, action ≠ .list number cancelled) : (t.step env action).AtOnce := by
  refine ⟨?_, ?_⟩
  · cases action with
    | list number cancelled => exact absurd rfl (other number cancelled)
    | move move => exact (world_step_of_held_nil env h.unheld move).2
  · cases serves_step env t action with
    | succeeds number purpose cancelled now records goesOn awaiting answer taken count served keys =>
      have free : t.held? number = none := by rw [held?, h.unheld, List.find?_nil]
      rw [served, source_of_free free]
      exact List.forall_mem_cons.mpr ⟨rfl, h.atOnce⟩
    | fails _ _ _ _ _ _ _ _ served | passes _ served =>
      rw [served]
      exact h.atOnce

theorem atOnce_of_run (moves : ∀ t number cancelled, ¬ Allowed t (.list number cancelled))
    (run : Run env Allowed (start service) t) : t.AtOnce := by
  refine run.induct ⟨rfl, by simp [start]⟩ fun t action h allowed => h.step ?_
  rintro number cancelled rfl
  exact moves t number cancelled allowed

end Threads

/-- In every run the keys in use are the keys of the listing that the latest successful refresh got,
in its order, and none before the first. The repository listed it at a moment at which that refresh was
in progress, and every record of it has 32 octets; a step in which no refresh succeeds leaves the keys
in use alone. Listings are put into use one after another, but they may have been got in another
order: if nothing comes between a listing and its keys, it is the listing of that moment. -/
theorem keys_of_latest_listing (env : Environment) {Allowed : Threads → Threads.Action → Prop}
    (service : Service) (unused : service.snapshot = []) {t : Threads}
    (run : Threads.Run env Allowed (.start service) t) :
    (t.served = [] → t.world.service.snapshot = []) ∧
    (∀ s, t.served.head? = some s → t.world.service.snapshot.Of s.records) ∧
    (∀ s ∈ t.served, (∀ r ∈ s.records, r.key.length = 32) ∧ s.listed ≤ s.installed ∧
      ∃ b, Threads.Run env Allowed (.start service) b ∧ Threads.Run env Allowed b t ∧
        b.clock = s.listed ∧ (∃ purpose, b.world.operation? s.number = some (.refresh purpose)) ∧
        b.world.service.repository.listing = .ok s.records) ∧
    (∀ action, t.Serves env action) ∧
    (t.served.Pairwise fun s s' => s'.installed < s.installed) ∧
    ((∀ u number cancelled, ¬ Allowed u (.list number cancelled)) →
      ∀ s ∈ t.served, s.listed = s.installed) := by
  have sound := Threads.sound_of_run run
  have traced := Threads.traced_of_run run
  refine ⟨?_, sound.latest, ?_, Threads.serves_step env t, sound.order, ?_⟩
  · exact fun none => (sound.unserved none).trans unused
  · intro s mem
    obtain ⟨b, before, between, clock, awaiting, cancelled, answered⟩ := traced.served s mem
    exact ⟨sound.usable s mem, traced.spans s mem, b, before, between, clock, awaiting,
      Service.takeListing_eq_ok answered⟩
  · exact fun moves => (Threads.atOnce_of_run moves run).atOnce

/-! ## Two runs -/

namespace Threads

def environment : Environment := .plain .keepsThree fun _ => ""

/-- The record of a key that was written under this name. -/
def written (name : String) : Record := ⟨name, List.replicate 32 1, Moment.epoch.time⟩

def write (name : String) (key : Bytes) : Action := .move (.begin (.write name key) false .epoch)

def refresh (request : Request) : Action := .move (.begin request false .epoch)

def goOn (number : Nat) : Action := .move (.goOn number)

/-- A refresh gets a listing with one key; before it goes on, an unusable key is stored and another
refresh fails over it. -/
def crossing : List Action :=
  [write "a" (List.replicate 32 1), goOn 0, refresh .refresh, .list 1 false, write "b" [0], goOn 2,
   refresh .forceRefresh, goOn 3, goOn 1]

/-- A refresh gets a listing with one key; before it goes on, a second key is written and taken into
use by another refresh. -/
def overtaking : List Action :=
  [write "a" (List.replicate 32 1), goOn 0, refresh .refresh, .list 1 false,
   write "b" (List.replicate 32 1), goOn 2, refresh .refresh, goOn 3]

def overtaken : Threads := (start .initial).after environment overtaking

end Threads

open Threads in
theorem keys_of_first_refresh :
    Service.initial.snapshot = [] ∧
      ((Threads.start .initial).after environment crossing).world.service.snapshot.Of [written "a"] := by
  refine ⟨rfl, ?_⟩
  have run : Threads.Run environment (fun _ _ => True) (Threads.start .initial) _ :=
    Threads.Run.of_admits crossing (by decide_cbv)
  have latest : ((Threads.start .initial).after environment crossing).served.head? =
      some ⟨1, [written "a"], 3, 8⟩ := by cbv
  obtain ⟨-, served, -⟩ := keys_of_latest_listing environment .initial rfl run
  exact served _ latest

open Threads in
/-- A refresh may put a listing into use that is no longer the repository's, and so an older one than
another refresh before it. -/
theorem not_forall_latest_listing :
    (¬ ∀ (env : Environment) (service : Service), service.snapshot = [] →
      ∀ t, Threads.Run env (fun _ _ => True) (Threads.start service) t →
        ∀ action s, (t.step env action).served = s :: t.served →
          t.world.service.repository.listing = .ok s.records) ∧
    ¬ ∀ (env : Environment) (service : Service), service.snapshot = [] →
      ∀ t, Threads.Run env (fun _ _ => True) (Threads.start service) t →
        t.served.Pairwise fun s s' => s'.listed ≤ s.listed := by
  have run : Threads.Run environment (fun _ _ => True) (Threads.start .initial) overtaken :=
    Threads.Run.of_admits overtaking (by decide_cbv)
  have served : (overtaken.step environment (goOn 1)).served =
      ⟨1, [written "a"], 3, 8⟩ :: overtaken.served := by cbv
  refine ⟨?_, ?_⟩
  · intro h
    have listing : overtaken.world.service.repository.listing =
        .ok [written "b", written "a"] := by cbv
    have same := h environment .initial rfl overtaken run (goOn 1) _ served
    rw [listing] at same
    simp [written] at same
  · intro h
    have newer : overtaken.served = [⟨3, [written "b", written "a"], 7, 7⟩] := by cbv
    have ordered := h environment .initial rfl _ (run.next (a := goOn 1) trivial)
    rw [served, newer] at ordered
    revert ordered
    decide

end Keyring
