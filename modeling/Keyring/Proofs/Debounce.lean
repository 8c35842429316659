import Keyring.Proofs.Window

/-!
# Updates within the refresh window

Updates may overlap in any way with each other, with refreshes that are forced and with rotations,
and their refreshes may take any time, fail or be given up.

* An update is debounced only as long as its keys come from a listing of less than an interval ago
  (`debounced_after_listing`).
* Of the updates in one interval only one refreshes, until its refresh has failed
  (`one_refresh_in_interval`).
* When no refresh is in progress the window is the latest of a refresh that succeeded, unless it is
  stale and was claimed by one that failed after it had been overtaken (`window_of_openings`). It is
  not the latest in every run (`not_forall_latest_opening`).
-/

namespace Keyring

open Coordinator (Stale Reaches)

/-! ## Updates -/

namespace Service

variable {env : Environment} {now : Moment} {cancelled : Bool} {s : Service}

/-- An update that begins now refreshes the keys: it awaits their listing under a claim of this
instant, or its refresh has failed already. -/
def StartsRefresh (env : Environment) (now : Moment) (cancelled : Bool) (s : Service) : Prop :=
  match (s.begin env now cancelled .update).1 with
  | .awaiting (.refresh (.update claim)) => claim.start = now.elapsed
  | .ended (.update (.error _)) => True
  | _ => False

/-- An update that begins now is answered without a refresh. -/
def Debounces (env : Environment) (now : Moment) (cancelled : Bool) (s : Service) : Prop :=
  s.begin env now cancelled .update = (.ended (.update (.ok false)), s.report [.cacheFresh])

theorem debounces_of_fresh
    (fresh : s.coordinator.isFresh env.config.refreshInterval now.elapsed = true) :
    s.Debounces env now cancelled := by
  simp [Debounces, begin, beginUpdate, fresh]

theorem startsRefresh_of_not_fresh
    (stale : s.coordinator.isFresh env.config.refreshInterval now.elapsed = false) :
    s.StartsRefresh env now cancelled := by
  have claimed : s.coordinator.claim? env.config.refreshInterval now.elapsed =
      some (⟨now.elapsed, s.window⟩, { s.coordinator with lastRefreshed := some now.elapsed }) := by
    simp [Coordinator.claim?, stale]
  simp only [StartsRefresh, begin, beginUpdate_eq, claimed]
  cases listing : startListing cancelled
      { s with coordinator := { s.coordinator with lastRefreshed := some now.elapsed } } with
  | mk answer? t =>
    cases answer? with
    | none => rfl
    | some answer =>
      obtain ⟨e, rfl⟩ := answer_startListing (congrArg Prod.fst listing)
      trivial

theorem Debounces.not_startsRefresh (h : s.Debounces env now cancelled) :
    ¬ s.StartsRefresh env now cancelled := by
  intro starts
  rw [StartsRefresh, h] at starts
  exact starts

theorem startsRefresh_iff :
    s.StartsRefresh env now cancelled ↔
      Stale env.config.refreshInterval.inNanos now.elapsed s.window := by
  rw [← Coordinator.isFresh_eq_false_iff env.config.rules.interval]
  constructor
  · intro starts
    by_contra fresh
    rw [Bool.not_eq_false] at fresh
    exact (debounces_of_fresh fresh).not_startsRefresh starts
  · exact startsRefresh_of_not_fresh

/-- Until an interval has passed since an instant that the window reaches, updates are debounced. -/
theorem debounces_of_reaches {t : Nat} (reached : Reaches t s.window)
    (within : now.elapsed < t + env.config.refreshInterval.inNanos) :
    s.Debounces env now cancelled := by
  refine debounces_of_fresh ?_
  by_contra stale
  rw [Bool.not_eq_true, Coordinator.isFresh_eq_false_iff env.config.rules.interval] at stale
  have := reached.add_le stale
  omega

end Service

/-! ## When no refresh is in progress -/

namespace World

def Idle (w : World) : Prop := ∀ p ∈ w.pending, ∀ purpose, p.2 ≠ .refresh purpose

theorem Idle.claims {w : World} (idle : w.Idle) : w.claims = [] := by
  refine List.eq_nil_iff_forall_not_mem.mpr ?_
  rintro ⟨number, claim⟩ mem
  obtain ⟨operation, pending, claimed⟩ := mem_claims.mp mem
  rw [Operation.claim?_eq_none (idle _ pending)] at claimed
  cases claimed

theorem idle_of_pending_eq_nil {w : World} (h : w.pending = []) : w.Idle := by
  intro p mem
  rw [h] at mem
  cases mem

end World

theorem Ending.listing_of_opening? {e : Ending} {t : Nat} (h : e.opening? = some t) :
    e.listing.isSome := by
  unfold opening? outcome at h
  cases listing : e.listing with
  | none => cases purpose : e.purpose <;> simp [listing, purpose, Purpose.outcome] at h
  | some records => rfl

namespace Chronicle

variable {env : Environment} {c : Chronicle} {t : Nat}

/-- The latest of the instants at which a window began that was opened or upheld. -/
def latestOpening? (c : Chronicle) : Option Nat := (c.endings.filterMap Ending.opening?).max?

/-- The latest refresh that succeeded is none that ended before another one. -/
theorem latest_of_mem (dated : c.ledger.Dated) {e : Ending} (mem : e ∈ c.endings)
    (succeeded : e.listing.isSome) :
    ∃ last records, c.latest? = some last ∧ last.listing = some records ∧
      e.instant ≤ last.instant ∧ last.instant ≤ c.clock := by
  cases latest : c.latest? with
  | none =>
    rw [latest?, List.find?_eq_none] at latest
    exact absurd succeeded (latest e mem)
  | some last =>
    have known := List.mem_of_find?_eq_some latest
    obtain ⟨found, before, behind, split, failed⟩ := List.find?_eq_some_iff_append.mp latest
    obtain ⟨records, taken⟩ := Option.isSome_iff_exists.mp found
    refine ⟨last, records, rfl, taken, ?_, dated.ended last known⟩
    have sorted : (before ++ last :: behind).Pairwise fun e e' => e'.instant ≤ e.instant :=
      split ▸ dated.sorted
    rw [split] at mem
    rcases List.mem_append.mp mem with early | late
    · have := failed e early
      simp [succeeded] at this
    · rcases List.mem_cons.mp late with rfl | late
      · exact Nat.le_refl _
      · exact (List.pairwise_cons.mp (List.pairwise_append.mp sorted).2.1).1 e late

/-- Where the window of an idle world comes from. -/
theorem source_of_idle {interval : Nat} (balanced : c.ledger.Balanced interval)
    (idle : c.world.Idle) (window : c.world.window = some t) :
    (∃ e ∈ c.endings, e.opening? = some t) ∨
      (∃ e ∈ c.endings, e.overtaken? = some t) ∧ t + interval ≤ c.clock := by
  rcases balanced.sourced.window t window with ⟨p, mem, -⟩ | opened | ⟨e, mem, overtaken⟩
  · have claims : c.ledger.claims = [] := idle.claims
    rw [claims] at mem
    cases mem
  · exact Or.inl opened
  · exact Or.inr ⟨⟨e, mem, overtaken⟩, balanced.sourced.overtaken e mem t overtaken⟩

end Chronicle

/-- When no refresh is in progress, the next update either refreshes the keys or finds those of the
latest successful refresh, which ended in this window and got its listing less than an interval
ago. -/
theorem debounced_after_listing (env : Environment) (service : Service)
    (unclaimed : service.coordinator.lastRefreshed = none) {c : Chronicle}
    (run : Chronicle.Run env Chronicle.Timely (.start service) c) (idle : c.world.Idle)
    (now : Moment) (later : c.clock ≤ now.elapsed) (cancelled : Bool) :
    c.world.service.StartsRefresh env now cancelled ∨
      ∃ start e records, c.world.service.coordinator.lastRefreshed = some start ∧
        now.elapsed < start + env.config.refreshInterval.inNanos ∧
        c.latest? = some e ∧ e.listing = some records ∧
        start ≤ e.instant ∧ e.instant ≤ now.elapsed ∧
        now.elapsed < e.instant + env.config.refreshInterval.inNanos ∧
        c.world.service.snapshot.Of records := by
  have balanced := Chronicle.balanced_of_run unclaimed run
  rw [Service.startsRefresh_iff]
  by_cases stale : Stale env.config.refreshInterval.inNanos now.elapsed c.world.service.window
  · exact Or.inl stale
  · right
    obtain ⟨start, window, fresh⟩ : ∃ start, c.world.service.window = some start ∧
        now.elapsed < start + env.config.refreshInterval.inNanos := by
      simpa [Stale] using stale
    rcases Chronicle.source_of_idle balanced idle window with ⟨e, mem, opened⟩ | ⟨-, passed⟩
    -- the refresh that this window comes from succeeded in it, and the latest one no earlier
    · have begun : start ≤ e.instant := balanced.dated.opened e mem start opened
      obtain ⟨last, records, latest, taken, order, ended⟩ :=
        Chronicle.latest_of_mem balanced.dated mem (e.listing_of_opening? opened)
      have keys := (Chronicle.served_of_run run).refreshed last records latest taken
      exact ⟨start, last, records, window, fresh, latest, taken, by omega, by omega, by omega, keys⟩
    · omega

namespace Debounce

def environment : Environment := .plain .keepsThree fun _ => ""

def second (n : Nat) : Moment := ⟨n * 1000000000, .ofSecond 0⟩

/-- A key is written, and an update refreshes. -/
def refreshing : List Move :=
  [.begin (.write "a" (List.replicate 32 1)) false (second 0), .resume 0 false (second 0),
   .begin .update false (second 1), .resume 1 false (second 2)]

def refreshed : Chronicle := (Chronicle.start .initial).after environment refreshing

theorem run_refreshed :
    Chronicle.Run environment Chronicle.Timely (.start .initial) refreshed :=
  Chronicle.Run.of_pairwise refreshing (by decide)

end Debounce

open Debounce in
theorem debounced_after_first_listing :
    refreshed.world.service.Debounces environment (second 60) false ∧
      refreshed.world.service.snapshot.Of [⟨"a", List.replicate 32 1, .ofSecond 0⟩] := by
  have pending : refreshed.world.pending = [] := by cbv
  have clock : refreshed.clock = 2000000000 := by cbv
  have latest : refreshed.latest? = some ⟨1, .update ⟨1000000000, none⟩, 2000000000,
      some [⟨"a", List.replicate 32 1, .ofSecond 0⟩], []⟩ := by cbv
  have debounced : refreshed.world.service.Debounces environment (second 60) false :=
    Service.debounces_of_fresh (by cbv)
  refine ⟨debounced, ?_⟩
  rcases debounced_after_listing environment .initial rfl run_refreshed
    (World.idle_of_pending_eq_nil pending) (second 60) (by rw [clock]; decide) false with
    starts | ⟨-, e, records, -, -, latest', taken, -, -, -, keys⟩
  · exact absurd starts debounced.not_startsRefresh
  · rw [latest] at latest'
    cases latest'
    cases taken
    exact keys

/-! ## One refresh in an interval -/

namespace World

variable {env : Environment} {w : World} {number : Nat} {operation : Operation} {move : Move}
  {claim : Coordinator.Claim}

theorem operation?_of_mem (distinct : w.Distinct) (mem : (number, operation) ∈ w.pending) :
    w.operation? number = some operation := by
  cases h : w.operation? number with
  | none =>
    rw [operation?, Option.map_eq_none_iff, List.find?_eq_none] at h
    exact absurd (beq_self_eq_true number) (h _ mem)
  | some operation' =>
    cases distinct _ (mem_pending_of_operation? h) _ mem rfl
    rfl

/-- A request stays in progress until it goes on. -/
theorem mem_pending_step (mem : (number, operation) ∈ w.pending)
    (other : ∀ cancelled now, move ≠ .resume number cancelled now) :
    (number, operation) ∈ (w.step env move).pending := by
  have moves := moves_step env w move
  generalize w.step env move = w' at moves
  cases moves with
  | passes | refuses | inserts => exact mem
  | begins => exact List.mem_cons_of_mem _ mem
  | resumes number' cancelled now resumed progress =>
    have apart : number ≠ number' := by
      rintro rfl
      exact other cancelled now rfl
    have kept : (number, operation) ∈ (w.remove number').pending :=
      List.mem_filter.mpr ⟨mem, by simpa using apart⟩
    cases progress with
    | ended => exact kept
    | awaiting => exact List.mem_cons_of_mem _ kept

theorem mem_answers_step {a : Nat × Answer} (mem : a ∈ w.answers) :
    a ∈ (w.step env move).answers := by
  have moves := moves_step env w move
  generalize w.step env move = w' at moves
  cases moves with
  | passes | begins | inserts => exact mem
  | refuses => exact List.mem_cons_of_mem _ mem
  | resumes number cancelled now operation progress =>
    cases progress with
    | ended => exact List.mem_cons_of_mem _ mem
    | awaiting => exact mem

@[simp] theorem answers_enter (before : Store) (writer : Option Nat) (w : World) :
    (w.enter before writer).answers = w.answers := by
  unfold enter
  split <;> rfl

/-- An update whose refresh ends without keys is answered with an error. -/
theorem answer_of_update (env : Environment) {cancelled : Bool} (now : Moment)
    (h : w.operation? number = some (.refresh (.update claim)))
    (failed : w.service.taken? cancelled = none) :
    ∃ e, (number, .update (.error e)) ∈ (w.step env (.resume number cancelled now)).answers := by
  rcases w.service.install_eq_ok_or_error (w.service.takeListing cancelled) with
    ⟨-, ⟨e, answer⟩, -⟩ | ⟨records, -, taken, -⟩
  · refine ⟨e, ?_⟩
    simp [step, resume, h, Service.resume, Service.finishRefresh, answer, Service.settleRefresh,
      Service.endUpdate, settle]
  · rw [Service.taken?, taken] at failed
    cases failed

end World

namespace Chronicle

variable {env : Environment} {c : Chronicle} {number : Nat} {claim : Coordinator.Claim}

/-- What may have become of an update that refreshes: it is in progress, it has failed, or a refresh
has upheld its claim. -/
inductive Traced (number : Nat) (claim : Coordinator.Claim) (c : Chronicle) : Prop where
  | awaits (mem : (number, .refresh (.update claim)) ∈ c.world.pending)
  | failed (e : Error) (mem : (number, .update (.error e)) ∈ c.world.answers)
  | upheld (e : Ending) (mem : e ∈ c.endings) (outcome : e.outcome = .upheld claim)

theorem Traced.step (h : c.Traced number claim) (distinct : c.world.Distinct) (move : Move) :
    (c.step env move).Traced number claim := by
  cases h with
  | failed e mem => exact .failed e (World.mem_answers_step mem)
  | upheld e mem outcome => exact .upheld e (List.mem_append_right _ mem) outcome
  | awaits mem =>
    by_cases own : ∃ cancelled now, move = .resume number cancelled now
    · obtain ⟨cancelled, now, rfl⟩ := own
      have operation := World.operation?_of_mem distinct mem
      cases taken : c.world.service.taken? cancelled with
      | none =>
        obtain ⟨e, answered⟩ := World.answer_of_update env now operation taken
        exact .failed e answered
      | some records =>
        have ended : c.world.ending? (.resume number cancelled now) =
            some (c.world.ended number (.update claim) cancelled now) :=
          World.ending?_resume_refresh operation
        refine .upheld (c.world.ended number (.update claim) cancelled now) ?_ ?_
        · simp [Chronicle.step, ended]
        · simp [Ending.outcome, World.ended, taken, Purpose.outcome]
    · refine .awaits (World.mem_pending_step mem ?_)
      intro cancelled now same
      exact own ⟨cancelled, now, same⟩

/-- As long as an update has not failed, the window does not go back behind its claim. -/
theorem Traced.reaches {interval : Nat} (h : c.Traced number claim)
    (balanced : c.ledger.Balanced interval)
    (unfailed : ∀ e, (number, .update (.error e)) ∉ c.world.answers) :
    Reaches claim.start c.world.window := by
  cases h with
  | failed e mem => exact absurd mem (unfailed e)
  | awaits mem => exact balanced.sound.held (number, claim) (World.mem_claims.mpr ⟨_, mem, rfl⟩)
  | upheld e mem outcome =>
    have untied : ¬ e.Tied := by
      rintro ⟨opened, -⟩
      rw [outcome] at opened
      cases opened
    have opening : e.opening? = some claim.start :=
      Ending.opening?_eq_some_iff.mpr (Or.inr ⟨claim, outcome, rfl⟩)
    exact (balanced.kept e mem untied _ opening).reached

theorem traced_begin {now : Moment} {cancelled : Bool}
    (starts : c.world.service.StartsRefresh env now cancelled) :
    ∃ claim, claim.start = now.elapsed ∧
      (c.step env (.begin .update cancelled now)).Traced c.world.begun claim := by
  cases began : c.world.service.begin env now cancelled .update with
  | mk progress service =>
    have world : (c.step env (.begin .update cancelled now)).world =
        World.settle c.world.begun { c.world with begun := c.world.begun + 1 }
          (progress, service) := by
      simp [Chronicle.step, World.step, World.begin, began]
    unfold Service.StartsRefresh at starts
    rw [began] at starts
    split at starts
    · rename_i claim awaiting
      cases awaiting
      refine ⟨claim, starts, .awaits ?_⟩
      rw [world]
      exact List.mem_cons_self
    · rename_i e ended
      cases ended
      refine ⟨⟨now.elapsed, none⟩, rfl, .failed e ?_⟩
      rw [world]
      exact List.mem_cons_self
    · exact starts.elim

end Chronicle

/-- An update that refreshes has the interval behind it to itself, until its refresh has failed: any
other update that begins in it is debounced, and one that refreshes comes an interval later. -/
theorem one_refresh_in_interval (env : Environment) (service : Service)
    (unclaimed : service.coordinator.lastRefreshed = none) {c c' : Chronicle}
    (run : Chronicle.Run env Chronicle.Timely (.start service) c) {first second : Moment}
    {cancelled cancelled' : Bool} (timely : c.clock ≤ first.elapsed)
    (starts : c.world.service.StartsRefresh env first cancelled)
    (run' : Chronicle.Run env Chronicle.Timely (c.step env (.begin .update cancelled first)) c')
    (unfailed : ∀ e, (c.world.begun, .update (.error e)) ∉ c'.world.answers) :
    (c'.world.service.StartsRefresh env second cancelled' →
      first.elapsed + env.config.refreshInterval.inNanos ≤ second.elapsed) ∧
    (second.elapsed < first.elapsed + env.config.refreshInterval.inNanos →
      c'.world.service.Debounces env second cancelled') := by
  obtain ⟨claim, start, traced⟩ := Chronicle.traced_begin starts
  have begun : Chronicle.Run env Chronicle.Timely (.start service)
      (c.step env (.begin .update cancelled first)) := by
    refine run.next ?_
    rintro now ⟨⟩
    exact timely
  have traced' : c'.Traced c.world.begun claim := by
    clear unfailed
    induction run' with
    | refl => exact traced
    | next between _ ih =>
      exact ih.step (World.distinct_of_run (Chronicle.Run.world (begun.trans between))) _
  have balanced := Chronicle.balanced_of_run unclaimed (begun.trans run')
  have reached : Reaches first.elapsed c'.world.service.window :=
    start ▸ traced'.reaches balanced unfailed
  refine ⟨?_, Service.debounces_of_reaches reached⟩
  intro starts'
  exact reached.add_le (Service.startsRefresh_iff.mp starts')

namespace Debounce

/-- An update at the beginning refreshes. -/
def begun : Chronicle :=
  (Chronicle.start .initial).step environment (.begin .update false (second 0))

def ended : Chronicle := begun.step environment (.resume 0 false (second 5))

theorem run_ended : Chronicle.Run environment Chronicle.Timely begun ended :=
  Chronicle.Run.of_pairwise [.resume 0 false (second 5)] (by decide)

end Debounce

open Debounce in
theorem debounced_behind_refresh :
    ended.world.service.Debounces environment (second 59) false := by
  have timely : (Chronicle.start .initial).clock ≤ (second 0).elapsed := Nat.le_refl 0
  have starts : Service.initial.StartsRefresh environment (second 0) false :=
    Service.startsRefresh_of_not_fresh rfl
  have answers : ended.world.answers = [(0, .update (.ok true))] := by cbv
  have unfailed : ∀ e, (0, .update (.error e)) ∉ ended.world.answers := by
    rw [answers]
    simp
  obtain ⟨-, debounced⟩ :=
    one_refresh_in_interval environment .initial rfl (.refl _) timely starts run_ended unfailed
  exact debounced (by decide)

/-! ## The window that is left -/

/-- When no refresh is in progress, the window has not gone back behind one that a refresh opened or
upheld by its success, and is one of those, unless a claim that had been overtaken when its refresh
failed has come back; that one is stale. A refresh that was forced to its end at the very instant of
another's claim is left out. -/
theorem window_of_openings (env : Environment) (service : Service)
    (unclaimed : service.coordinator.lastRefreshed = none) {c : Chronicle}
    (run : Chronicle.Run env Chronicle.Timely (.start service) c) (idle : c.world.Idle) :
    (∀ e ∈ c.endings, ¬ e.Tied → ∀ opening, e.opening? = some opening →
      ∃ start, c.world.service.coordinator.lastRefreshed = some start ∧ opening ≤ start) ∧
    (∀ start, c.world.service.coordinator.lastRefreshed = some start →
      (∃ e ∈ c.endings, e.opening? = some start) ∨
        (∃ e ∈ c.endings, e.overtaken? = some start) ∧
          start + env.config.refreshInterval.inNanos ≤ c.clock ∧
          ∀ now cancelled, c.clock ≤ now.elapsed →
            c.world.service.StartsRefresh env now cancelled) ∧
    ((∀ e ∈ c.endings, ¬ e.Tied ∧ ∀ start, e.overtaken? = some start →
        c.world.service.coordinator.lastRefreshed ≠ some start) →
      c.world.service.coordinator.lastRefreshed = c.latestOpening?) := by
  have balanced := Chronicle.balanced_of_run unclaimed run
  have kept : ∀ e ∈ c.endings, ¬ e.Tied → ∀ opening, e.opening? = some opening →
      Reaches opening c.world.window :=
    fun e mem untied opening opened => (balanced.kept e mem untied opening opened).reached
  have source := fun start => Chronicle.source_of_idle (t := start) balanced idle
  refine ⟨kept, ?_, ?_⟩
  · intro start window
    rcases source start window with opened | ⟨overtaken, passed⟩
    · exact Or.inl opened
    · refine Or.inr ⟨overtaken, passed, ?_⟩
      intro now cancelled later
      refine Service.startsRefresh_iff.mpr ?_
      intro start' window'
      obtain rfl := Option.some.inj (window.symm.trans window')
      exact Nat.le_trans passed later
  · intro regular
    change c.world.window = (c.endings.filterMap Ending.opening?).max?
    cases window : c.world.window with
    | none =>
      have none_opened : c.endings.filterMap Ending.opening? = [] := by
        rw [List.filterMap_eq_nil_iff]
        intro e mem
        cases opened : e.opening? with
        | none => rfl
        | some opening =>
          obtain ⟨start, begun, -⟩ := kept e mem (regular e mem).1 opening opened
          rw [window] at begun
          cases begun
      rw [none_opened]
      rfl
    | some start =>
      symm
      rw [List.max?_eq_some_iff]
      refine ⟨?_, ?_⟩
      · rcases source start window with ⟨e, mem, opened⟩ | ⟨⟨e, mem, overtaken⟩, -⟩
        · exact List.mem_filterMap.mpr ⟨e, mem, opened⟩
        · exact absurd window ((regular e mem).2 start overtaken)
      · intro opening known
        obtain ⟨e, mem, opened⟩ := List.mem_filterMap.mp known
        have reached := kept e mem (regular e mem).1 opening opened
        rw [window] at reached
        exact Coordinator.reaches_some.mp reached

namespace Debounce

/-- Two updates fail, the first one after the second one has claimed the window. -/
def overtaking : List Move :=
  [.begin .update false (second 0), .begin .update false (second 60), .resume 0 true (second 61),
   .resume 1 true (second 62)]

/-- A refresh is forced in the instant of a claim, and the update that claimed fails. -/
def tying : List Move :=
  [.begin .update false (second 0), .begin .forceRefresh false (second 0),
   .resume 1 false (second 0), .resume 0 true (second 1)]

def overtaken : Chronicle := (Chronicle.start .initial).after environment overtaking

def tied : Chronicle := (Chronicle.start .initial).after environment tying

theorem run_overtaken :
    Chronicle.Run environment Chronicle.Timely (.start .initial) overtaken :=
  Chronicle.Run.of_pairwise overtaking (by decide)

theorem run_tied : Chronicle.Run environment Chronicle.Timely (.start .initial) tied :=
  Chronicle.Run.of_pairwise tying (by decide)

theorem endings_overtaken : overtaken.endings =
    [⟨1, .update ⟨60000000000, some 0⟩, 62000000000, none, []⟩,
     ⟨0, .update ⟨0, none⟩, 61000000000, none, [⟨60000000000, some 0⟩]⟩] := by cbv

theorem endings_tied : tied.endings =
    [⟨0, .update ⟨0, none⟩, 1000000000, none, []⟩, ⟨1, .forced, 0, some [], [⟨0, none⟩]⟩] := by cbv

theorem idle_overtaken : overtaken.world.Idle := by
  have pending : overtaken.world.pending = [] := by cbv
  exact World.idle_of_pending_eq_nil pending

theorem idle_tied : tied.world.Idle := by
  have pending : tied.world.pending = [] := by cbv
  exact World.idle_of_pending_eq_nil pending

end Debounce

open Debounce in
theorem window_of_overtaken_claim :
    overtaken.world.service.coordinator.lastRefreshed = some 0 ∧
      overtaken.world.service.StartsRefresh environment (second 62) false := by
  have window : overtaken.world.service.coordinator.lastRefreshed = some 0 := by cbv
  have clock : overtaken.clock = 62000000000 := by cbv
  refine ⟨window, ?_⟩
  obtain ⟨-, source, -⟩ := window_of_openings environment .initial rfl run_overtaken idle_overtaken
  rcases source 0 window with ⟨e, mem, opened⟩ | ⟨-, -, starts⟩
  · have failed : overtaken.endings.filterMap Ending.opening? = [] := by
      rw [endings_overtaken]
      rfl
    rw [List.filterMap_eq_nil_iff.mp failed e mem] at opened
    cases opened
  · exact starts (second 62) false (by rw [clock]; decide)

open Debounce in
/-- A claim that comes back is no window of a refresh that succeeded, and a tie may undo one. -/
theorem not_forall_latest_opening :
    (¬ ∀ (env : Environment) (service : Service), service.coordinator.lastRefreshed = none →
      ∀ c, Chronicle.Run env Chronicle.Timely (.start service) c → c.world.Idle →
        (∀ e ∈ c.endings, ¬ e.Tied) →
          c.world.service.coordinator.lastRefreshed = c.latestOpening?) ∧
    ¬ ∀ (env : Environment) (service : Service), service.coordinator.lastRefreshed = none →
      ∀ c, Chronicle.Run env Chronicle.Timely (.start service) c → c.world.Idle →
        (∀ e ∈ c.endings, e.overtaken? = none) →
          c.world.service.coordinator.lastRefreshed = c.latestOpening? := by
  refine ⟨?_, ?_⟩
  · intro h
    have untied : ∀ e ∈ overtaken.endings, ¬ e.Tied := by
      rw [endings_overtaken]
      simp [Ending.Tied, Ending.outcome, Purpose.outcome]
    have latest := h environment .initial rfl overtaken run_overtaken idle_overtaken untied
    have window : overtaken.world.service.coordinator.lastRefreshed = some 0 := by cbv
    have openings : overtaken.latestOpening? = none := by
      rw [Chronicle.latestOpening?, endings_overtaken]
      rfl
    rw [window, openings] at latest
    cases latest
  · intro h
    have regular : ∀ e ∈ tied.endings, e.overtaken? = none := by
      rw [endings_tied]
      simp [Ending.overtaken?, Ending.outcome, Purpose.outcome]
    have latest := h environment .initial rfl tied run_tied idle_tied regular
    have window : tied.world.service.coordinator.lastRefreshed = none := by cbv
    have openings : tied.latestOpening? = some 0 := by
      rw [Chronicle.latestOpening?, endings_tied]
      rfl
    rw [window, openings] at latest
    cases latest

end Keyring
