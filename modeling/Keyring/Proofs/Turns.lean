import Keyring.Proofs.Retention

/-!
# Requests that take turns

A request that is to change the store may wait until no other one of this kind is in progress. While
one of them writes a key, none is then about to delete anything, whatever the names of the keys are.

* `World.TakesTurns` allows the moves, and `World.Solo` says what they come to: of the requests in
  progress at most one changes the store (`solo_step`).
* `careful_of_turns`: a run of this kind is one that is careful about names.
-/

namespace Keyring

/-- Whether a request is to put a record into the store or to take some out. -/
def Request.changes : Request → Bool
  | .rotate _ | .rotateTo _ | .trigger _ _ | .write _ _ | .delete _ => true
  | .refresh | .forceRefresh | .update | .afterResponse | .list => false

namespace Operation

/-- Whether an operation may put a record into the store or take some out. -/
def changes : Operation → Bool
  | .rotation _ _ | .write _ _ | .delete _ => true
  | .refresh _ | .list => false

theorem doomed_of_not_changes {operation : Operation} (h : operation.changes = false) :
    operation.doomed = [] := by
  cases operation with
  | refresh | list => rfl
  | rotation | write | delete => cases h

end Operation

namespace Service

variable {config : Config} {now : Moment} {s t : Service} {request : Request}
  {operation next : Operation} {progress : Progress} {written : Option Record}

theorem Starts.changes (h : Starts config request operation) (changes : operation.changes = true) :
    request.changes = true := by
  cases h with
  | refresh | list => cases changes
  | rotateTo | rotate | trigger | write | delete => rfl

theorem Resumes.changes (h : Resumes now s t operation (.awaiting next) written)
    (changes : next.changes = true) : operation.changes = true := by
  cases h with
  | refreshFails purpose progress alike behind =>
    obtain ⟨p, rfl⟩ := behind _ rfl
    cases changes
  | installs purpose progress records keys store order behind =>
    obtain ⟨p, rfl⟩ := behind _ rfl
    cases changes
  | rotationWrites | rotationLists | rotationDeletes => rfl

/-- An operation that writes a record is not to delete anything yet. -/
theorem Resumes.doomed_of_written {r : Record}
    (h : Resumes now s t operation progress (some r)) :
    operation.changes = true ∧ operation.doomed = [] := by
  cases h with
  | rotationWrites | writes => exact ⟨rfl, rfl⟩

end Service

namespace World

variable {env : Environment} {w : World} {move : Move}

/-- No request in progress changes the store. -/
def Still (w : World) : Prop := ∀ p ∈ w.pending, p.2.changes = false

instance (w : World) : Decidable w.Still :=
  inferInstanceAs (Decidable (∀ p ∈ w.pending, p.2.changes = false))

/-- What changes the store begins when no other request in progress does so. -/
def TakesTurns (w : World) : Move → Prop
  | .begin request _ _ => request.changes = true → w.Still
  | .change (.insert _) => w.Still
  | _ => True

instance (w : World) : ∀ move : Move, Decidable (w.TakesTurns move)
  | .begin request _ _ => inferInstanceAs (Decidable (request.changes = true → w.Still))
  | .change (.insert _) => inferInstanceAs (Decidable w.Still)
  | .resume _ _ _ | .login _ _ _ | .authenticate _ _ _ | .check _ _ | .change (.faults _)
  | .change (.failBeforeList _) | .change (.failAfterWrite _) | .change (.failKeys _)
  | .change (.register _) => .isTrue trivial

/-- Of the requests in progress at most one changes the store. -/
def Solo (w : World) : Prop :=
  ∀ p ∈ w.pending, ∀ q ∈ w.pending, p.2.changes = true → q.2.changes = true → p = q

theorem solo_start (service : Service) : (start service).Solo := by simp [Solo, start]

theorem solo_step (h : w.Solo) (turns : w.TakesTurns move) : (w.step env move).Solo := by
  have moves := moves_step env w move
  generalize w.step env move = w' at moves
  cases moves with
  | passes | refuses | inserts => exact h
  | begins request cancelled now service operation alike starts =>
    have alone : operation.changes = true → ∀ p ∈ w.pending, p.2.changes ≠ true := by
      intro changes p hp changes'
      rw [turns (starts.changes changes) p hp] at changes'
      cases changes'
    intro p hp q hq changes changes'
    rcases List.mem_cons.mp hp with rfl | hp <;> rcases List.mem_cons.mp hq with rfl | hq
    · rfl
    · exact absurd changes' (alone changes q hq)
    · exact absurd changes (alone changes' p hp)
    · exact h p hp q hq changes changes'
  | resumes number cancelled now operation progress service written mem resumed =>
    -- a request that goes on with a change was the only one before, and keeps its number
    have own : ∀ next, progress = .awaiting next → next.changes = true → ∀ p ∈ w.pending,
        p.2.changes = true → p.1 = number := by
      rintro next rfl changes p hp changes'
      exact congrArg Prod.fst (h p hp _ mem changes' (resumed.changes changes))
    intro p hp q hq changes changes'
    rcases mem_pending_settled hp with ⟨hp, other⟩ | ⟨next, awaiting, rfl⟩ <;>
      rcases mem_pending_settled hq with ⟨hq, other'⟩ | ⟨next', awaiting', rfl⟩
    · exact h p hp q hq changes changes'
    · exact absurd (own next' awaiting' changes' p hp changes) other
    · exact absurd (own next awaiting changes q hq changes') other'
    · rw [awaiting] at awaiting'
      cases awaiting'
      rfl

/-- What a move enters into the history comes from outside, or from a request in progress that is
not to delete anything yet. -/
theorem source_of_entered {e : Written} (entered : e ∈ w.entered env move) :
    (∃ record, move = .change (.insert record)) ∨
      ∃ p ∈ w.pending, p.2.changes = true ∧ p.2.doomed = [] := by
  unfold World.entered at entered
  have moves := moves_step env w move
  generalize w.step env move = w' at moves entered
  cases moves with
  | passes | refuses | begins => simp at entered
  | inserts record => exact Or.inl ⟨record, rfl⟩
  | resumes number cancelled now operation progress service written mem resumed =>
    right
    cases written with
    | none =>
      have same : (w.settled number progress service none).history = w.history := rfl
      simp [same] at entered
    | some r => exact ⟨_, mem, resumed.doomed_of_written⟩

theorem Solo.careful (h : w.Solo) (turns : w.TakesTurns move) : w.Careful env move := by
  refine ⟨fun e entered p hp doomed => ?_⟩
  have harmless : p.2.doomed = [] := by
    rcases source_of_entered entered with ⟨record, rfl⟩ | ⟨q, hq, changes, doomless⟩
    · exact p.2.doomed_of_not_changes (turns p hp)
    · cases changes' : p.2.changes with
      | false => exact p.2.doomed_of_not_changes changes'
      | true => exact h p hp q hq changes' changes ▸ doomless
  rw [harmless] at doomed
  cases doomed

/-- When requests take turns, every move is careful. -/
theorem careful_of_turns {Allowed : World → Move → Prop} {u : World} (solo : u.Solo)
    (run : Run env (fun w move => Allowed w move ∧ w.TakesTurns move) u w) :
    Run env (fun w move => Allowed w move ∧ w.Careful env move) u w := by
  have invariant : w.Solo ∧ Run env (fun w move => Allowed w move ∧ w.Careful env move) u w := by
    refine run.induct (P := fun w => w.Solo ∧
      Run env (fun w move => Allowed w move ∧ w.Careful env move) u w) ?_ ?_
    · exact ⟨solo, .refl u⟩
    · rintro w move ⟨solo, run⟩ ⟨allowed, turns⟩
      exact ⟨solo_step solo turns, run.next ⟨allowed, solo.careful turns⟩⟩
  exact invariant.2

end World

end Keyring
