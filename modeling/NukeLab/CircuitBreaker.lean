import NukeLab.Interleaving
import NukeLab.Records

namespace NukeLab.CircuitBreaker

open Machine Interleaving Records

inductive BreakerState
  | closed | opened | halfOpen
  deriving DecidableEq

structure CacheCircuitBreaker where
  failureThreshold : Nat
  recoveryTimeout : Int
  failures : Nat
  lastFailureTime : Instant
  state : BreakerState

namespace CacheCircuitBreaker

def init (failureThreshold : Nat) (recoveryTimeout : Int) : CacheCircuitBreaker :=
  ⟨failureThreshold, recoveryTimeout, 0, 0, .closed⟩

def recordSuccess (b : CacheCircuitBreaker) : CacheCircuitBreaker := { b with failures := 0, state := .closed }

def recordFailure (b : CacheCircuitBreaker) (now : Instant) : CacheCircuitBreaker :=
  { b with
    failures := b.failures + 1
    lastFailureTime := now
    state := if b.failures + 1 ≥ b.failureThreshold ∧ b.state ≠ .opened then .opened else b.state }

def Elapsed (b : CacheCircuitBreaker) (now : Instant) : Prop := now - b.lastFailureTime > b.recoveryTimeout

instance (b : CacheCircuitBreaker) (now : Instant) : Decidable (b.Elapsed now) :=
  inferInstanceAs (Decidable (_ > _))

def canExecute (b : CacheCircuitBreaker) (now : Instant) : Bool × CacheCircuitBreaker :=
  match b.state with
  | .closed => (true, b)
  | .opened => if b.Elapsed now then (true, { b with state := .halfOpen }) else (false, b)
  | .halfOpen => (true, b)

end CacheCircuitBreaker

/-- The breaker, the clock, and the call last let through an open breaker, until
its outcome is known. -/
structure Site where
  now : Instant
  breaker : CacheCircuitBreaker
  probe : Option Nat

inductive Request
  | call
  | wait (elapsed : Nat)

/-- How far a protected call has come. A call whose task is cancelled records
nothing, and one that finds an entry it cannot read has succeeded, and deletes it. -/
inductive Phase
  | asking
  | running
  | deleting
  | refused | succeeded | failed | cancelled
  | waiting (elapsed : Nat)
  | done
  deriving DecidableEq

inductive Outcome
  | success | unreadable | failure | cancellation

def begin : Request → Phase
  | .call => .asking
  | .wait elapsed => .waiting elapsed

def Site.known (s : Site) (i : Nat) : Option Nat := if s.probe = some i then none else s.probe

def advance : Advance Site Phase Outcome := fun i s p outcome =>
  match p, outcome with
  | .asking, _ =>
    let asked := s.breaker.canExecute s.now
    if asked.1 then
      some ({ s with breaker := asked.2, probe := if s.breaker.state = .opened then some i else s.probe }, .running)
    else some ({ s with breaker := asked.2 }, .refused)
  | .running, .success => some ({ s with breaker := s.breaker.recordSuccess, probe := s.known i }, .succeeded)
  | .running, .unreadable => some ({ s with breaker := s.breaker.recordSuccess, probe := s.known i }, .deleting)
  | .running, .failure => some ({ s with breaker := s.breaker.recordFailure s.now, probe := s.known i }, .failed)
  | .running, .cancellation => some (s, .cancelled)
  | .deleting, .failure => some ({ s with breaker := s.breaker.recordFailure s.now }, .failed)
  | .deleting, _ => some (s, .succeeded)
  | .waiting elapsed, _ => some ({ s with now := s.now + elapsed }, .done)
  | _, _ => none

structure Lawful (i : Nat) (s : Site) (p : Phase) (u : Site) (q : Phase) : Prop where
  blocked : p = .asking → s.breaker.state = .opened → ¬ s.breaker.Elapsed s.now → q = .refused
  probing : p = .asking → s.breaker.state = .opened → s.breaker.Elapsed s.now → s.probe = none → q = .running
  single : p = .asking → s.probe ≠ none → q = .refused
  closes : s.breaker.state ≠ .closed → u.breaker.state = .closed → p = .running ∧ (q = .succeeded ∨ q = .deleting)
  reopens : p = .running → s.probe = some i → q = .failed →
    u.breaker.state = .opened ∧ u.breaker.lastFailureTime = s.now

/-- Nobody asks while a probe's outcome is not known, unless the breaker is open
and its timeout has not elapsed; and no other call has closed the breaker by the
time that the probe fails, unless that failure is enough to open it. -/
def Careful (i : Nat) (s : Site) : Phase → Outcome → Prop
  | .asking, _ => s.probe = none ∨ s.breaker.state = .opened ∧ ¬ s.breaker.Elapsed s.now
  | .running, .failure =>
    s.probe ≠ some i ∨ s.breaker.state ≠ .closed ∨ s.breaker.failures + 1 ≥ s.breaker.failureThreshold
  | _, _ => True

instance (i : Nat) (s : Site) : (p : Phase) → (outcome : Outcome) → Decidable (Careful i s p outcome)
  | .asking, _ => inferInstanceAs (Decidable (_ ∨ _))
  | .running, .failure => inferInstanceAs (Decidable (_ ∨ _))
  | .running, .success | .running, .unreadable | .running, .cancellation => .isTrue trivial
  | .deleting, _ | .refused, _ | .succeeded, _ | .failed, _ | .cancelled, _ | .waiting _, _ | .done, _ => .isTrue trivial

namespace CacheCircuitBreaker

variable {b : CacheCircuitBreaker} {now : Instant}

theorem canExecute_eq_false_iff : (b.canExecute now).1 = false ↔ b.state = .opened ∧ ¬ b.Elapsed now := by
  rw [canExecute]
  split
  next h => simp only [h, Bool.true_eq_false, reduceCtorEq, false_and]
  next h =>
    rw [h, eq_self, true_and]
    split
    next helapsed => exact iff_of_false Bool.noConfusion fun hnot => hnot helapsed
    next helapsed => exact iff_of_true rfl helapsed
  next h => simp only [h, Bool.true_eq_false, reduceCtorEq, false_and]

theorem canExecute_closed_iff : (b.canExecute now).2.state = .closed ↔ b.state = .closed := by
  rw [canExecute]
  split
  · exact Iff.rfl
  next h => split <;> simp [h]
  · exact Iff.rfl

theorem canExecute_failures : (b.canExecute now).2.failures = b.failures ∧
    (b.canExecute now).2.failureThreshold = b.failureThreshold := by
  rw [canExecute]
  split
  · exact ⟨rfl, rfl⟩
  · split <;> exact ⟨rfl, rfl⟩
  · exact ⟨rfl, rfl⟩

def Counted (b : CacheCircuitBreaker) : Prop := b.state ≠ .closed → b.failures ≥ b.failureThreshold

theorem Counted.canExecute (h : b.Counted) : (b.canExecute now).2.Counted := by
  intro hstate
  rw [canExecute_failures.1, canExecute_failures.2]
  exact h fun hclosed => hstate (canExecute_closed_iff.mpr hclosed)

theorem Counted.recordFailure (h : b.Counted) : (b.recordFailure now).Counted := by
  intro hstate
  by_cases hopens : b.failures + 1 ≥ b.failureThreshold ∧ b.state ≠ .opened
  · exact hopens.1
  · have hbefore : b.state ≠ .closed := by
      rw [CacheCircuitBreaker.recordFailure, if_neg hopens] at hstate
      exact hstate
    exact Nat.le_succ_of_le (h hbefore)

theorem counted_recordSuccess : b.recordSuccess.Counted := fun h => absurd rfl h

theorem recordFailure_opened_iff (h : b.Counted) :
    (b.recordFailure now).state = .opened ↔ b.state ≠ .closed ∨ b.failures + 1 ≥ b.failureThreshold := by
  rw [recordFailure]
  by_cases hopened : b.state = .opened
  · simp only [hopened, ne_eq, not_true_eq_false, and_false, if_false, reduceCtorEq, not_false_eq_true, true_or]
  · by_cases hcount : b.failures + 1 ≥ b.failureThreshold
    · simp only [hcount, hopened, ne_eq, not_false_eq_true, and_self, if_true, or_true]
    · have hclosed : b.state = .closed := by
        by_contra hne
        exact hcount (Nat.le_succ_of_le (h hne))
      simp only [hcount, hclosed, ne_eq, false_and, if_false, not_true_eq_false, or_self, reduceCtorEq]

theorem recordFailure_closed (h : (b.recordFailure now).state = .closed) : b.state = .closed := by
  rw [recordFailure] at h
  by_cases hopens : b.failures + 1 ≥ b.failureThreshold ∧ b.state ≠ .opened
  · rw [if_pos hopens] at h
    cases h
  · rw [if_neg hopens] at h
    exact h

end CacheCircuitBreaker

open CacheCircuitBreaker

variable {i : Nat} {s u : Site} {p q : Phase} {outcome : Outcome}

theorem asking_lawful_iff (h : advance i s .asking outcome = some (u, q)) :
    Lawful i s .asking u q ↔ Careful i s .asking outcome := by
  have hclosed : u.breaker.state = .closed → s.breaker.state = .closed := by
    simp only [advance] at h
    split at h <;> (cases h; exact canExecute_closed_iff.mp)
  have hasked : q = .refused ∧ s.breaker.state = .opened ∧ ¬ s.breaker.Elapsed s.now ∨
      q = .running ∧ ¬ (s.breaker.state = .opened ∧ ¬ s.breaker.Elapsed s.now) := by
    simp only [advance] at h
    split at h
    next hlet =>
      cases h
      refine .inr ⟨rfl, fun hrefused => ?_⟩
      rw [canExecute_eq_false_iff.mpr hrefused] at hlet
      cases hlet
    next hlet =>
      cases h
      exact .inl ⟨rfl, canExecute_eq_false_iff.mp (by simpa using hlet)⟩
  constructor
  · intro hlawful
    by_cases hprobe : s.probe = none
    · exact .inl hprobe
    · rcases hasked with ⟨-, hrefused⟩ | ⟨hrunning, -⟩
      · exact .inr hrefused
      · rw [hlawful.single rfl hprobe] at hrunning
        cases hrunning
  · intro hcareful
    rcases hasked with ⟨hq, hopened, helapsed⟩ | ⟨hq, hlet⟩
    · exact ⟨fun _ _ _ => hq, fun _ _ helapsed' => absurd helapsed' helapsed, fun _ _ => hq,
        fun hopen hshut => absurd (hclosed hshut) hopen, nofun⟩
    · exact ⟨fun _ hopened helapsed => absurd ⟨hopened, helapsed⟩ hlet, fun _ _ _ _ => hq,
        fun _ hprobe => absurd (hcareful.resolve_left hprobe) hlet, fun hopen hshut => absurd (hclosed hshut) hopen, nofun⟩

theorem turn_lawful_iff (hcounted : s.breaker.Counted) (h : advance i s p outcome = some (u, q)) :
    Lawful i s p u q ↔ Careful i s p outcome := by
  cases p with
  | asking => exact asking_lawful_iff h
  | running =>
      cases outcome with
      | success =>
          cases h
          exact iff_of_true ⟨nofun, nofun, nofun, fun _ _ => ⟨rfl, .inl rfl⟩, nofun⟩ trivial
      | unreadable =>
          cases h
          exact iff_of_true ⟨nofun, nofun, nofun, fun _ _ => ⟨rfl, .inr rfl⟩, nofun⟩ trivial
      | failure =>
          cases h
          constructor
          · intro hlawful
            by_cases hprobe : s.probe = some i
            · exact .inr ((recordFailure_opened_iff hcounted).mp (hlawful.reopens rfl hprobe rfl).1)
            · exact .inl hprobe
          · intro hcareful
            exact ⟨nofun, nofun, nofun, fun hopen hshut => absurd (recordFailure_closed hshut) hopen,
              fun _ hprobe _ => ⟨(recordFailure_opened_iff hcounted).mpr
                (hcareful.resolve_left fun hne => hne hprobe), rfl⟩⟩
      | cancellation =>
          cases h
          exact iff_of_true ⟨nofun, nofun, nofun, fun hopen hshut => absurd hshut hopen, nofun⟩ trivial
  | deleting =>
      refine iff_of_true ⟨nofun, nofun, nofun, fun hopen hshut => ?_, nofun⟩ trivial
      cases outcome with
      | failure =>
          cases h
          exact absurd (recordFailure_closed hshut) hopen
      | success | unreadable | cancellation =>
          cases h
          exact absurd hshut hopen
  | waiting elapsed =>
      cases h
      exact iff_of_true ⟨nofun, nofun, nofun, fun hopen hshut => absurd hshut hopen, nofun⟩ trivial
  | refused | succeeded | failed | cancelled | done => cases h

theorem turn_counted (hcounted : s.breaker.Counted) (h : advance i s p outcome = some (u, q)) : u.breaker.Counted := by
  cases p with
  | asking =>
      simp only [advance] at h
      split at h <;> (cases h; exact hcounted.canExecute)
  | running =>
      cases outcome with
      | success | unreadable =>
          cases h
          exact counted_recordSuccess
      | failure =>
          cases h
          exact hcounted.recordFailure
      | cancellation =>
          cases h
          exact hcounted
  | deleting =>
      cases outcome with
      | failure =>
          cases h
          exact hcounted.recordFailure
      | success | unreadable | cancellation =>
          cases h
          exact hcounted
  | waiting elapsed =>
      cases h
      exact hcounted
  | refused | succeeded | failed | cancelled | done => cases h

def started (failureThreshold : Nat) (recoveryTimeout now : Int) : System Site Phase :=
  ⟨⟨now, .init failureThreshold recoveryTimeout, none⟩, []⟩

/-- A breaker keeps its protocol in a run exactly where the calls are careful:
nothing in it keeps a second call from probing. -/
theorem protocol_kept_iff (failureThreshold : Nat) (recoveryTimeout now : Int) (events : List (Event Request Outcome)) :
    AllSteps (step begin advance) (EveryTurn advance Lawful) (started failureThreshold recoveryTimeout now) events ↔
      AllSteps (step begin advance) (Given Careful) (started failureThreshold recoveryTimeout now) events := by
  have hsound : AllStates (step begin advance) (Sound (fun s : Site => s.breaker.Counted) fun _ _ _ => True)
      (started failureThreshold recoveryTimeout now) events := by
    apply allStates_sound
    · exact fun _ _ _ _ => trivial
    · exact fun i s p outcome u q hs _ h => ⟨turn_counted hs h, trivial⟩
    · exact fun _ _ _ _ _ _ _ _ _ _ _ _ _ => trivial
    · exact ⟨fun h => absurd rfl h, fun _ _ _ => trivial⟩
  apply allSteps_everyTurn_iff_given _ hsound
  exact fun i s p outcome u q hs _ h => turn_lawful_iff hs h

def failing (i : Nat) : List (Event Request Outcome) := [.call .call, .turn i .success, .turn i .failure]

/-- Five failures, half a minute, and two calls of which neither has an outcome yet. -/
def bothProbe : List (Event Request Outcome) :=
  (List.range 5).flatMap failing ++
    [.call (.wait 31), .turn 5 .success, .call .call, .turn 6 .success, .call .call, .turn 7 .success]

theorem two_probes :
    ¬ ∀ (failureThreshold : Nat) (recoveryTimeout now : Int) (events : List (Event Request Outcome)),
      AllSteps (step begin advance) (EveryTurn advance Lawful) (started failureThreshold recoveryTimeout now) events := by
  intro h
  have hcareful := (protocol_kept_iff 5 30 0 bothProbe).mp (h 5 30 0 bothProbe)
  revert hcareful
  decide +kernel

end NukeLab.CircuitBreaker
