import Mathlib.Logic.Relation
import Keyring.Proofs.Chronicle

/-!
# The ledger of the refresh window

What matters to the refresh window is kept in a ledger: the window, the claims in flight, the
refreshes that have ended and the clock. A request claims the window before it refreshes, and gives
it back if the refresh fails and the window has not moved on; a refresh that is forced opens it anew.

* `Outcome.settle` is what the end of a refresh does to the window, `Ledger.Step` lists the steps.
* `Ledger.Sound` keeps the claims in flight apart, `Ledger.Kept` is about windows that stay, and
  `Ledger.Sourced` about where a window comes from.
* `Ledger.Balanced` puts them together; `Ledger.Balanced.steps` is about any number of steps.
-/

namespace Keyring

namespace Coordinator

variable {interval now s t : Nat} {window : Option Nat}

/-- An interval has passed since the window began, if it ever did. -/
def Stale (interval now : Nat) (window : Option Nat) : Prop :=
  ∀ start, window = some start → start + interval ≤ now

/-- The window began at this instant or later. -/
def Reaches (instant : Nat) (window : Option Nat) : Prop :=
  ∃ start, window = some start ∧ instant ≤ start

theorem reaches_some : Reaches t (some s) ↔ t ≤ s := by simp [Reaches]

/-- A window that is stale began long after none that it reaches. -/
theorem Reaches.add_le (h : Reaches t window) (stale : Stale interval now window) :
    t + interval ≤ now := by
  obtain ⟨start, begun, reached⟩ := h
  have := stale start begun
  omega

end Coordinator

open Coordinator (Stale Reaches)

/-- What the end of a refresh is to the window. -/
inductive Outcome where
  | unnoticed
  /-- A refresh without a claim succeeded and opens the window anew. -/
  | opened
  | upheld (claim : Coordinator.Claim)
  | released (claim : Coordinator.Claim)

def Purpose.outcome : Purpose → (succeeded : Bool) → Outcome
  | .plain, _ | .forced, false => .unnoticed
  | .forced, true => .opened
  | .update claim, true | .hook claim _, true => .upheld claim
  | .update claim, false | .hook claim _, false => .released claim

/-- The window after the end of a refresh. -/
def Outcome.settle (now : Nat) (window : Option Nat) : Outcome → Option Nat
  | .unnoticed | .upheld _ => window
  | .opened => some now
  | .released claim => if window = some claim.start then claim.previous else window

namespace Ending

def outcome (e : Ending) : Outcome := e.purpose.outcome e.listing.isSome

/-- When the window began that a refresh opened, or upheld by its success. -/
def opening? (e : Ending) : Option Nat :=
  match e.outcome with
  | .opened => some e.instant
  | .upheld claim => some claim.start
  | .unnoticed | .released _ => none

/-- When the window began that a refresh had claimed, if the refresh failed while another request
was in flight that had claimed the window from it. -/
def overtaken? (e : Ending) : Option Nat :=
  match e.outcome with
  | .released claim =>
    if e.rivals.any fun rival => rival.previous == some claim.start then some claim.start else none
  | _ => none

/-- A refresh without a claim succeeded at the very instant of a claim in flight. -/
def Tied (e : Ending) : Prop :=
  e.outcome = .opened ∧ ∃ rival ∈ e.rivals, rival.start = e.instant

theorem claim?_eq_some_iff {e : Ending} {claim : Coordinator.Claim} :
    e.purpose.claim? = some claim ↔ e.outcome = .upheld claim ∨ e.outcome = .released claim := by
  unfold outcome
  cases e.purpose <;> cases e.listing.isSome <;> simp [Purpose.claim?, Purpose.outcome]

theorem opening?_eq_some_iff {e : Ending} {t : Nat} :
    e.opening? = some t ↔ (e.outcome = .opened ∧ e.instant = t) ∨
      ∃ claim, e.outcome = .upheld claim ∧ claim.start = t := by
  unfold opening?
  cases e.outcome <;> simp

theorem overtaken?_eq_some_iff {e : Ending} {t : Nat} :
    e.overtaken? = some t ↔ ∃ claim, e.outcome = .released claim ∧ claim.start = t ∧
      ∃ rival ∈ e.rivals, rival.previous = some t := by
  unfold overtaken?
  cases outcome : e.outcome with
  | released claim =>
    simp only [Option.ite_none_right_eq_some, List.any_eq_true, beq_iff_eq, Option.some.injEq,
      Outcome.released.injEq, exists_eq_left']
    constructor
    · rintro ⟨rival, rfl⟩
      exact ⟨rfl, rival⟩
    · rintro ⟨rfl, rival⟩
      exact ⟨rival, rfl⟩
  | _ => simp

end Ending

/-- A refresh window and what it depends on. -/
structure Ledger where
  window : Option Nat
  /-- The claims in flight, each with the number of its request. -/
  claims : List (Nat × Coordinator.Claim)
  endings : List Ending
  clock : Nat

namespace Ledger

/-- A refresh ends. -/
def settle (l : Ledger) (e : Ending) : Ledger where
  window := e.outcome.settle e.instant l.window
  claims := l.claims.filter fun p => p.1 != e.number
  endings := e :: l.endings
  clock := e.instant

/-- A request claims the window. -/
def take (l : Ledger) (number now : Nat) : Ledger where
  window := some now
  claims := (number, ⟨now, l.window⟩) :: l.claims
  endings := l.endings
  clock := now

/-- A refresh can end as the ledger stands: its claim, if it has one, is in flight. -/
structure Ends (l : Ledger) (e : Ending) : Prop where
  later : l.clock ≤ e.instant
  own : ∀ claim, (e.number, claim) ∈ l.claims ↔ e.purpose.claim? = some claim
  rivals : e.rivals = (l.claims.filter fun p => p.1 != e.number).map (·.2)

inductive Step (interval : Nat) (l : Ledger) : Ledger → Prop where
  | waits (now : Nat) (later : l.clock ≤ now) : Step interval l { l with clock := now }
  | settles (e : Ending) (ends : l.Ends e) : Step interval l (l.settle e)
  | takes (number now : Nat) (later : l.clock ≤ now) (stale : Stale interval now l.window) :
    Step interval l (l.take number now)

variable {interval : Nat} {l l' : Ledger} {e : Ending}

/-- The end of a refresh leaves the window alone, opens it anew or gives it back. -/
theorem window_settle (l : Ledger) (e : Ending) :
    ((l.settle e).window = l.window ∧
        ∀ claim, e.outcome = .released claim → l.window ≠ some claim.start) ∨
      (e.outcome = .opened ∧ (l.settle e).window = some e.instant) ∨
        ∃ claim, e.outcome = .released claim ∧ l.window = some claim.start ∧
          (l.settle e).window = claim.previous := by
  cases outcome : e.outcome with
  | unnoticed | upheld | opened => simp [settle, outcome, Outcome.settle]
  | released claim =>
    by_cases own : l.window = some claim.start
    · simp [settle, outcome, Outcome.settle, own]
    · simp [settle, outcome, Outcome.settle, own]

theorem Ends.mem_claims (ends : l.Ends e) {claim : Coordinator.Claim}
    (h : e.outcome = .upheld claim ∨ e.outcome = .released claim) :
    (e.number, claim) ∈ l.claims :=
  (ends.own claim).mpr (Ending.claim?_eq_some_iff.mpr h)

theorem mem_claims_settle {p : Nat × Coordinator.Claim} (h : p ∈ (l.settle e).claims) :
    p ∈ l.claims ∧ p.1 ≠ e.number := by
  simpa [settle] using h

theorem Ends.mem_rivals (ends : l.Ends e) {rival : Coordinator.Claim} :
    rival ∈ e.rivals ↔ ∃ p ∈ (l.settle e).claims, p.2 = rival := by
  rw [ends.rivals]
  exact List.mem_map

/-- What keeps the claims in flight apart: each was made when the window was stale, which has not
gone back behind it since, and of two claims one was made from the window of the other or a later
one. -/
structure Sound (interval : Nat) (l : Ledger) : Prop where
  window_le : ∀ start, l.window = some start → start ≤ l.clock
  stale : ∀ p ∈ l.claims, Stale interval p.2.start p.2.previous
  held : ∀ p ∈ l.claims, Reaches p.2.start l.window
  apart : ∀ p ∈ l.claims, ∀ q ∈ l.claims, p.1 ≠ q.1 →
    Reaches p.2.start q.2.previous ∨ Reaches q.2.start p.2.previous

namespace Sound

theorem start_le (h : l.Sound interval) {p : Nat × Coordinator.Claim} (mem : p ∈ l.claims) :
    p.2.start ≤ l.clock := by
  obtain ⟨start, begun, reached⟩ := h.held p mem
  have := h.window_le start begun
  omega

theorem settle (h : l.Sound interval) (positive : 0 < interval) (ends : l.Ends e) :
    (l.settle e).Sound interval where
  window_le := by
    intro start begun
    change start ≤ e.instant
    have later := ends.later
    rcases l.window_settle e with ⟨same, -⟩ | ⟨-, anew⟩ | ⟨claim, released, -, back⟩
    · have := h.window_le start (same ▸ begun)
      omega
    · rw [anew] at begun
      cases begun
      exact Nat.le_refl _
    · have mem := ends.mem_claims (Or.inr released)
      have claimed : start + interval ≤ claim.start := h.stale _ mem start (back ▸ begun)
      have started : claim.start ≤ l.clock := h.start_le mem
      omega
  stale := by
    intro p mem
    exact h.stale p (mem_claims_settle mem).1
  held := by
    intro p mem
    obtain ⟨mem, other⟩ := mem_claims_settle mem
    rcases l.window_settle e with ⟨same, -⟩ | ⟨-, anew⟩ | ⟨claim, released, begun, back⟩
    · exact same ▸ h.held p mem
    · rw [anew, Coordinator.reaches_some]
      have := h.start_le mem
      have := ends.later
      omega
    · have claimed := ends.mem_claims (Or.inr released)
      rw [back]
      rcases h.apart p mem _ claimed other with before | behind
      · exact before
      -- a claim made from the window of the other would have moved the window on
      · have held := h.held p mem
        rw [begun, Coordinator.reaches_some] at held
        have := behind.add_le (h.stale p mem)
        dsimp only at this
        omega
  apart := by
    intro p hp q hq
    exact h.apart p (mem_claims_settle hp).1 q (mem_claims_settle hq).1

theorem take (h : l.Sound interval) {number now : Nat} (later : l.clock ≤ now)
    (stale : Stale interval now l.window) : (l.take number now).Sound interval where
  window_le := by
    rintro start ⟨⟩
    exact Nat.le_refl _
  stale := by
    refine List.forall_mem_cons.mpr ⟨stale, h.stale⟩
  held := by
    refine List.forall_mem_cons.mpr ⟨Coordinator.reaches_some.mpr (Nat.le_refl _), ?_⟩
    intro p mem
    have := h.start_le mem
    exact Coordinator.reaches_some.mpr (by omega)
  apart := by
    intro p hp q hq other
    rcases List.mem_cons.mp hp with rfl | hp <;> rcases List.mem_cons.mp hq with rfl | hq
    · exact absurd rfl other
    · exact Or.inr (h.held q hq)
    · exact Or.inl (h.held p hp)
    · exact h.apart p hp q hq other

theorem step (h : l.Sound interval) (positive : 0 < interval) (step : Step interval l l') :
    l'.Sound interval := by
  cases step with
  | waits now later =>
    refine ⟨?_, h.stale, h.held, h.apart⟩
    intro start begun
    exact Nat.le_trans (h.window_le start begun) later
  | settles e ends => exact h.settle positive ends
  | takes number now later stale => exact h.take later stale

end Sound

/-! ## Windows that are kept -/

/-- A window that began at this instant or later stays: a claim in flight was made before it, or
from a window that is no earlier. -/
structure Kept (opening : Nat) (l : Ledger) : Prop where
  reached : Reaches opening l.window
  spared : ∀ p ∈ l.claims, p.2.start < opening ∨ Reaches opening p.2.previous

namespace Kept

variable {opening : Nat}

theorem step (h : l.Kept opening) (sound : l.Sound interval) (step : Step interval l l') :
    l'.Kept opening := by
  have early : opening ≤ l.clock := by
    obtain ⟨start, begun, reached⟩ := h.reached
    have := sound.window_le start begun
    omega
  cases step with
  | waits => exact ⟨h.reached, h.spared⟩
  | takes number now later stale =>
    refine ⟨Coordinator.reaches_some.mpr (Nat.le_trans early later), ?_⟩
    exact List.forall_mem_cons.mpr ⟨Or.inr h.reached, h.spared⟩
  | settles e ends =>
    refine ⟨?_, fun p mem => h.spared p (mem_claims_settle mem).1⟩
    rcases l.window_settle e with ⟨same, -⟩ | ⟨-, anew⟩ | ⟨claim, released, begun, back⟩
    · exact same ▸ h.reached
    · rw [anew]
      exact Coordinator.reaches_some.mpr (Nat.le_trans early ends.later)
    · have mem := ends.mem_claims (Or.inr released)
      have reached := h.reached
      rw [begun, Coordinator.reaches_some] at reached
      rcases h.spared _ mem with before | spared
      -- the window that is given back is the claim's own, which the claim would be older than
      · dsimp only at before
        omega
      · exact back ▸ spared

/-- What a refresh opens or upholds is kept, but for a tie. -/
theorem of_settle (sound : l.Sound interval) (positive : 0 < interval) (ends : l.Ends e)
    (untied : ¬ e.Tied) (opened : e.opening? = some opening) : (l.settle e).Kept opening := by
  rcases Ending.opening?_eq_some_iff.mp opened with ⟨outcome, rfl⟩ | ⟨claim, outcome, rfl⟩
  · refine ⟨by simp [settle, outcome, Outcome.settle, Coordinator.reaches_some], ?_⟩
    -- without a tie all claims in flight are older than the window that begins now
    intro p mem
    have rival : p.2 ∈ e.rivals := ends.mem_rivals.mpr ⟨p, mem, rfl⟩
    have apart : p.2.start ≠ e.instant := fun same => untied ⟨outcome, p.2, rival, same⟩
    have started := sound.start_le (mem_claims_settle mem).1
    have later := ends.later
    exact Or.inl (by omega)
  · have claimed := ends.mem_claims (Or.inl outcome)
    refine ⟨?_, ?_⟩
    · have held := sound.held _ claimed
      simpa [settle, outcome, Outcome.settle] using held
    · intro p mem
      obtain ⟨mem, other⟩ := mem_claims_settle mem
      rcases sound.apart p mem _ claimed other with before | behind
      · have := before.add_le (sound.stale _ claimed)
        dsimp only at this
        exact Or.inl (by omega)
      · exact Or.inr behind

end Kept

/-! ## Where windows come from -/

/-- A window began at this instant with a claim in flight or with a refresh that has ended: one that
opened or upheld it, or one that failed when its claim had been overtaken. -/
def Accounted (l : Ledger) (t : Nat) : Prop :=
  (∃ p ∈ l.claims, p.2.start = t) ∨ (∃ e ∈ l.endings, e.opening? = some t) ∨
    ∃ e ∈ l.endings, e.overtaken? = some t

structure Sourced (interval : Nat) (l : Ledger) : Prop where
  window : ∀ t, l.window = some t → l.Accounted t
  previous : ∀ p ∈ l.claims, ∀ t, p.2.previous = some t → l.Accounted t
  overtaken : ∀ e ∈ l.endings, ∀ t, e.overtaken? = some t → t + interval ≤ l.clock

namespace Accounted

variable {t : Nat}

theorem take (h : l.Accounted t) (number now : Nat) : (l.take number now).Accounted t := by
  obtain ⟨p, mem, start⟩ | ended := h
  · exact Or.inl ⟨p, List.mem_cons_of_mem _ mem, start⟩
  · exact Or.inr ended

/-- Only the claim of a refresh that fails is lost to the account. -/
theorem settle (h : l.Accounted t) (ends : l.Ends e)
    (kept : ∀ claim, e.outcome = .released claim → claim.start ≠ t) :
    (l.settle e).Accounted t := by
  obtain ⟨⟨number, claim⟩, mem, start⟩ | ⟨e', mem, opened⟩ | ⟨e', mem, overtaken⟩ := h
  · by_cases same : number = e.number
    · subst same
      rcases Ending.claim?_eq_some_iff.mp ((ends.own claim).mp mem) with upheld | released
      · refine Or.inr (Or.inl ⟨e, List.mem_cons_self, ?_⟩)
        exact Ending.opening?_eq_some_iff.mpr (Or.inr ⟨claim, upheld, start⟩)
      · exact absurd start (kept claim released)
    · refine Or.inl ⟨(number, claim), ?_, start⟩
      simp [Ledger.settle, mem, same]
  · exact Or.inr (Or.inl ⟨e', List.mem_cons_of_mem _ mem, opened⟩)
  · exact Or.inr (Or.inr ⟨e', List.mem_cons_of_mem _ mem, overtaken⟩)

end Accounted

namespace Sourced

theorem settle (h : l.Sourced interval) (sound : l.Sound interval) (positive : 0 < interval)
    (ends : l.Ends e) : (l.settle e).Sourced interval where
  window := by
    intro t begun
    rcases l.window_settle e with ⟨same, others⟩ | ⟨opened, anew⟩ | ⟨claim, released, -, back⟩
    · rw [same] at begun
      refine (h.window t begun).settle ends ?_
      rintro claim released rfl
      exact others claim released begun
    · rw [anew] at begun
      cases begun
      refine Or.inr (Or.inl ⟨e, List.mem_cons_self, ?_⟩)
      exact Ending.opening?_eq_some_iff.mpr (Or.inl ⟨opened, rfl⟩)
    · rw [back] at begun
      have claimed := ends.mem_claims (Or.inr released)
      refine (h.previous _ claimed t begun).settle ends ?_
      -- a window that a claim was made from is older than the claim
      rintro claim' released' rfl
      rw [released] at released'
      cases released'
      have : claim.start + interval ≤ claim.start := sound.stale _ claimed _ begun
      omega
  previous := by
    intro p mem t previous
    obtain ⟨mem', -⟩ := mem_claims_settle mem
    by_cases lost : ∃ claim, e.outcome = .released claim ∧ claim.start = t
    · obtain ⟨claim, released, start⟩ := lost
      have rival : p.2 ∈ e.rivals := ends.mem_rivals.mpr ⟨p, mem, rfl⟩
      refine Or.inr (Or.inr ⟨e, List.mem_cons_self, ?_⟩)
      exact Ending.overtaken?_eq_some_iff.mpr ⟨claim, released, start, p.2, rival, previous⟩
    · refine (h.previous p mem' t previous).settle ends ?_
      intro claim released start
      exact lost ⟨claim, released, start⟩
  overtaken := by
    intro e' mem t overtaken
    change t + interval ≤ e.instant
    have later := ends.later
    rcases List.mem_cons.mp mem with rfl | mem
    · obtain ⟨claim, released, -, rival, known, previous⟩ :=
        Ending.overtaken?_eq_some_iff.mp overtaken
      obtain ⟨p, mem, rfl⟩ := ends.mem_rivals.mp known
      obtain ⟨claimed, -⟩ := mem_claims_settle mem
      have := sound.stale p claimed t previous
      have := sound.start_le claimed
      omega
    · have := h.overtaken e' mem t overtaken
      omega

theorem step (h : l.Sourced interval) (sound : l.Sound interval) (positive : 0 < interval)
    (step : Step interval l l') : l'.Sourced interval := by
  cases step with
  | waits now later =>
    refine ⟨h.window, h.previous, ?_⟩
    intro e mem t overtaken
    exact Nat.le_trans (h.overtaken e mem t overtaken) later
  | takes number now later stale =>
    refine ⟨?_, ?_, ?_⟩
    · rintro t ⟨⟩
      exact Or.inl ⟨(number, ⟨now, l.window⟩), List.mem_cons_self, rfl⟩
    · refine List.forall_mem_cons.mpr ⟨?_, ?_⟩
      · intro t previous
        exact (h.window t previous).take number now
      · intro p mem t previous
        exact (h.previous p mem t previous).take number now
    · intro e mem t overtaken
      exact Nat.le_trans (h.overtaken e mem t overtaken) later
  | settles e ends => exact h.settle sound positive ends

end Sourced

/-! ## Instants of refreshes -/

structure Dated (l : Ledger) : Prop where
  ended : ∀ e ∈ l.endings, e.instant ≤ l.clock
  opened : ∀ e ∈ l.endings, ∀ t, e.opening? = some t → t ≤ e.instant
  sorted : l.endings.Pairwise fun e e' => e'.instant ≤ e.instant

theorem Dated.step (h : l.Dated) (sound : l.Sound interval) (step : Step interval l l') :
    l'.Dated := by
  cases step with
  | waits now later | takes number now later =>
    refine ⟨?_, h.opened, h.sorted⟩
    intro e mem
    exact Nat.le_trans (h.ended e mem) later
  | settles e ends =>
    refine ⟨?_, ?_, ?_⟩
    · refine List.forall_mem_cons.mpr ⟨Nat.le_refl _, ?_⟩
      intro e' mem
      exact Nat.le_trans (h.ended e' mem) ends.later
    · refine List.forall_mem_cons.mpr ⟨?_, h.opened⟩
      intro t opened
      rcases Ending.opening?_eq_some_iff.mp opened with ⟨-, rfl⟩ | ⟨claim, outcome, rfl⟩
      · exact Nat.le_refl _
      · have started : claim.start ≤ l.clock := sound.start_le (ends.mem_claims (Or.inl outcome))
        exact Nat.le_trans started ends.later
    · refine List.pairwise_cons.mpr ⟨?_, h.sorted⟩
      intro e' mem
      exact Nat.le_trans (h.ended e' mem) ends.later

/-! ## Runs -/

/-- What holds of the ledger in every run. -/
structure Balanced (interval : Nat) (l : Ledger) : Prop where
  sound : l.Sound interval
  sourced : l.Sourced interval
  dated : l.Dated
  kept : ∀ e ∈ l.endings, ¬ e.Tied → ∀ t, e.opening? = some t → l.Kept t

theorem Balanced.start (window : l.window = none) (claims : l.claims = [])
    (endings : l.endings = []) : l.Balanced interval where
  sound := by constructor <;> simp [window, claims]
  sourced := by constructor <;> simp [window, claims, endings]
  dated := by constructor <;> simp [endings]
  kept := by simp [endings]

theorem Balanced.step (h : l.Balanced interval) (positive : 0 < interval)
    (step : Step interval l l') : l'.Balanced interval where
  sound := h.sound.step positive step
  sourced := h.sourced.step h.sound positive step
  dated := h.dated.step h.sound step
  kept := by
    have before : ∀ e ∈ l.endings, ¬ e.Tied → ∀ t, e.opening? = some t → l'.Kept t :=
      fun e mem untied t opened => (h.kept e mem untied t opened).step h.sound step
    cases step with
    | waits | takes => exact before
    | settles e ends =>
      refine List.forall_mem_cons.mpr ⟨?_, before⟩
      intro untied t opened
      exact .of_settle h.sound positive ends untied opened

theorem Balanced.steps (h : l.Balanced interval) (positive : 0 < interval)
    (steps : Relation.ReflTransGen (Step interval) l l') : l'.Balanced interval := by
  induction steps with
  | refl => exact h
  | tail _ step ih => exact ih.step positive step

end Ledger

end Keyring
