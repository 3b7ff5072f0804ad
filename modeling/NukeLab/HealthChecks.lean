import NukeLab.Machine
import NukeLab.Records
import NukeLab.SlidingWindows

namespace NukeLab.HealthChecks

open Machine Records SlidingWindows

structure HealthCheck where
  serverId : Uuid
  status : String
  consecutiveFailures : Nat
  checkedAt : Instant

structure Config where
  autoRestartEnabled : Bool
  autoRestartMaxAttempts : Int
  /-- in seconds -/
  autoRestartWindow : Int

def defaultConfig : Config := ⟨true, 3, 300⟩

structure ContainerState where
  health : Option String
  running : Bool

/-- What comes of a restart. Its record is committed before the owner is
notified; where that commit fails the session commits nothing more. -/
inductive Restart
  | succeeds
  | unnotified
  | fails
  | unrecorded
  deriving DecidableEq

structure Answers where
  /-- none where asking the runtime raises -/
  state : Option ContainerState
  restart : Restart
  /-- between the check and the restart -/
  delay : Nat
  /-- of the restart -/
  duration : Nat

structure Attempt where
  serverId : Uuid
  begunAt : Instant
  /-- the window's count is to see it -/
  counted : Bool

/-- The recorded checks, and the restarts that have been attempted. -/
structure Site where
  now : Instant
  checks : List HealthCheck
  attempts : List Attempt

def healthStatus (state : ContainerState) : String :=
  let status := state.health.getD "unknown"
  if status = "unknown" then if state.running then "healthy" else "unhealthy" else status

def checksOf (s : Site) (serverId : Uuid) : List HealthCheck := s.checks.filter fun c => c.serverId = serverId

/-- The latest check of a server, the last recorded of those at one time. -/
def lastCheck (s : Site) (serverId : Uuid) : Option HealthCheck :=
  (checksOf s serverId).foldl
    (fun last check => if last.any fun l => check.checkedAt < l.checkedAt then last else some check) none

def consecutiveFailures (s : Site) (serverId : Uuid) (status : String) : Nat :=
  if status = "unhealthy" then
    match lastCheck s serverId with
    | some last => if last.status = "unhealthy" then last.consecutiveFailures + 1 else 1
    | none => 1
  else 0

def addCheck (s : Site) (serverId : Uuid) (status : String) (failures : Nat) : Site :=
  { s with checks := s.checks ++ [⟨serverId, status, failures, s.now⟩] }

def restartCount (s : Site) (serverId : Uuid) (windowStart : Instant) : Nat :=
  (checksOf s serverId).countP fun c => windowStart ≤ c.checkedAt ∧ c.status = "restarting"

def Restart.counted : Restart → Bool
  | succeeds | unnotified => true
  | fails | unrecorded => false

def recordRestart (s : Site) (serverId : Uuid) : Restart → Site
  | .succeeds => addCheck s serverId "restarting" 0
  | .unnotified => addCheck (addCheck s serverId "restarting" 0) serverId "restart_failed" 0
  | .fails => addCheck s serverId "restart_failed" 0
  | .unrecorded => s

def attemptRestart (serverId : Uuid) (answers : Answers) (s : Site) : Site :=
  recordRestart
    { s with
      now := s.now + answers.duration
      attempts := s.attempts ++ [⟨serverId, s.now, answers.restart.counted⟩] }
    serverId answers.restart

/-- Restart a failed container, unless too many restarts are on record. -/
def autoRestart (cfg : Config) (serverId : Uuid) (answers : Answers) (s : Site) : Site :=
  if ¬ cfg.autoRestartEnabled then s
  else
    let s := { s with now := s.now + answers.delay }
    if cfg.autoRestartMaxAttempts ≤ restartCount s serverId (s.now - cfg.autoRestartWindow * second) then s
    else attemptRestart serverId answers s

def checkContainer (cfg : Config) (serverId : Uuid) (answers : Answers) (s : Site) : Site :=
  match answers.state with
  | none => addCheck s serverId "unknown" 0
  | some state =>
    let status := healthStatus state
    let failures := consecutiveFailures s serverId status
    let s := addCheck s serverId status failures
    if failures ≥ 3 then autoRestart cfg serverId answers s else s

inductive Event
  | check (serverId : Uuid) (answers : Answers)
  | wait (duration : Nat)

def step (cfg : Config) : Step Site Event := fun s event =>
  match event with
  | .check serverId answers => some (checkContainer cfg serverId answers s)
  | .wait duration => some { s with now := s.now + duration }

def attemptTimes (s : Site) (serverId : Uuid) : List Instant :=
  (s.attempts.filter fun a => a.serverId = serverId).map Attempt.begunAt

def WithinBudget (cfg : Config) (s : Site) : Prop :=
  ∀ serverId, Bounded (cfg.autoRestartWindow * second) cfg.autoRestartMaxAttempts.toNat (attemptTimes s serverId)

def failsAgain (s : Site) (serverId : Uuid) (answers : Answers) : Bool :=
  answers.state.any fun state => consecutiveFailures s serverId (healthStatus state) ≥ 3

/-- A container that fails again had no restart in the last window that is not counted. -/
def Counted (cfg : Config) (s : Site) : Event → Prop
  | .check serverId answers =>
    failsAgain s serverId answers = true → ∀ a ∈ s.attempts, a.serverId = serverId →
      s.now + answers.delay - cfg.autoRestartWindow * second ≤ a.begunAt → a.counted = true
  | .wait _ => True

instance (cfg : Config) (s : Site) : ∀ event, Decidable (Counted cfg s event)
  | .check serverId answers =>
    inferInstanceAs (Decidable (failsAgain s serverId answers = true → ∀ a ∈ s.attempts, a.serverId = serverId →
      s.now + answers.delay - cfg.autoRestartWindow * second ≤ a.begunAt → a.counted = true))
  | .wait _ => inferInstanceAs (Decidable True)

def countedTimes (s : Site) (serverId : Uuid) : List Instant :=
  (s.attempts.filter fun a => a.serverId = serverId ∧ a.counted = true).map Attempt.begunAt

/-- The budget holds, and every counted restart is on record no earlier than it was attempted. -/
structure Kept (cfg : Config) (s : Site) : Prop where
  budget : WithinBudget cfg s
  recorded : ∀ serverId start, since start (countedTimes s serverId) ≤ restartCount s serverId start

section Steps

variable {cfg : Config} {s : Site} {serverId : Uuid} {answers : Answers} {start : Instant}

theorem restartCount_addCheck (s : Site) (serverId other : Uuid) (status : String) (failures : Nat) (start : Instant) :
    restartCount (addCheck s serverId status failures) other start =
      restartCount s other start + if serverId = other ∧ start ≤ s.now ∧ status = "restarting" then 1 else 0 := by
  unfold restartCount checksOf addCheck
  dsimp only
  rw [List.filter_append, List.countP_append]
  by_cases h : serverId = other
  · simp [h, List.countP_singleton]
  · simp [h]

theorem Kept.addCheck (h : Kept cfg s) (serverId : Uuid) (status : String) (failures : Nat) :
    Kept cfg (addCheck s serverId status failures) := by
  refine ⟨h.budget, fun other start => ?_⟩
  rw [restartCount_addCheck]
  exact Nat.le_add_right_of_le (h.recorded other start)

theorem Kept.later (h : Kept cfg s) (now : Instant) : Kept cfg { s with now := now } := ⟨h.budget, h.recorded⟩

theorem restartCount_recordRestart (s : Site) (serverId other : Uuid) (restart : Restart) (start : Instant) :
    restartCount s other start + (if restart.counted ∧ serverId = other ∧ start ≤ s.now then 1 else 0) ≤
      restartCount (recordRestart s serverId restart) other start := by
  cases restart with
  | succeeds => simp [recordRestart, restartCount_addCheck, Restart.counted]
  | unnotified =>
      have hnow : (HealthChecks.addCheck s serverId "restarting" 0).now = s.now := rfl
      simp [recordRestart, restartCount_addCheck, Restart.counted, hnow]
  | fails => simp [recordRestart, restartCount_addCheck, Restart.counted]
  | unrecorded => simp [recordRestart, Restart.counted]

theorem attempts_recordRestart (s : Site) (serverId : Uuid) (restart : Restart) :
    (recordRestart s serverId restart).attempts = s.attempts := by
  cases restart <;> rfl

theorem attemptTimes_attemptRestart (other : Uuid) :
    attemptTimes (attemptRestart serverId answers s) other =
      attemptTimes s other ++ if serverId = other then [s.now] else [] := by
  unfold attemptTimes attemptRestart
  rw [attempts_recordRestart]
  dsimp only
  rw [List.filter_append, List.map_append]
  by_cases h : serverId = other <;> simp [h]

theorem countedTimes_attemptRestart (other : Uuid) :
    countedTimes (attemptRestart serverId answers s) other =
      countedTimes s other ++ if answers.restart.counted ∧ serverId = other then [s.now] else [] := by
  unfold countedTimes attemptRestart
  rw [attempts_recordRestart]
  dsimp only
  rw [List.filter_append, List.map_append]
  by_cases h : serverId = other <;> cases hc : answers.restart.counted <;> simp [h]

theorem since_attemptTimes (hcounted : ∀ a ∈ s.attempts, a.serverId = serverId → start ≤ a.begunAt → a.counted = true) :
    since start (attemptTimes s serverId) ≤ since start (countedTimes s serverId) := by
  unfold since attemptTimes countedTimes
  rw [List.countP_map, List.countP_map, List.countP_filter, List.countP_filter]
  apply List.countP_mono_left
  intro a ha h
  simp only [Function.comp_apply, Bool.and_eq_true, decide_eq_true_eq] at h ⊢
  exact ⟨h.1, h.2, hcounted a ha h.2 h.1⟩

/-- A restart keeps to the budget where the count leaves room for it and sees all of the last window. -/
theorem Kept.attempt (h : Kept cfg s) (answers : Answers)
    (hroom : restartCount s serverId (s.now - cfg.autoRestartWindow * second) < cfg.autoRestartMaxAttempts)
    (hcounted : ∀ a ∈ s.attempts, a.serverId = serverId → s.now - cfg.autoRestartWindow * second ≤ a.begunAt →
      a.counted = true) : Kept cfg (attemptRestart serverId answers s) := by
  refine ⟨fun other => ?_, fun other start => ?_⟩
  · rw [attemptTimes_attemptRestart]
    split
    next hsame =>
      subst hsame
      apply (h.budget serverId).append
      have hsince := since_attemptTimes hcounted
      have hrecorded := h.recorded serverId (s.now - cfg.autoRestartWindow * second)
      omega
    next => simpa using h.budget other
  · have hold := restartCount_recordRestart
      { s with
        now := s.now + answers.duration
        attempts := s.attempts ++ [⟨serverId, s.now, answers.restart.counted⟩] }
      serverId other answers.restart start
    change restartCount s other start +
      (if answers.restart.counted ∧ serverId = other ∧ start ≤ s.now + answers.duration then 1 else 0) ≤
      restartCount (attemptRestart serverId answers s) other start at hold
    have hrecorded := h.recorded other start
    rw [countedTimes_attemptRestart]
    split
    next hnew =>
      rw [since_append]
      by_cases hstart : start ≤ s.now
      · rw [if_pos ⟨hnew.1, hnew.2, by omega⟩] at hold
        rw [if_pos hstart]
        omega
      · rw [if_neg hstart]
        omega
    next =>
      rw [List.append_nil]
      omega

theorem Kept.autoRestart (h : Kept cfg s) (hcounted : ∀ a ∈ s.attempts, a.serverId = serverId →
    s.now + answers.delay - cfg.autoRestartWindow * second ≤ a.begunAt → a.counted = true) :
    Kept cfg (autoRestart cfg serverId answers s) := by
  unfold HealthChecks.autoRestart
  split
  next => exact h
  next =>
    dsimp only
    split
    next => exact h.later _
    next hroom => exact (h.later _).attempt answers (not_le.mp hroom) hcounted

theorem kept_step (s : Site) (event : Event) (t : Site) (h : Kept cfg s) (hcounted : Counted cfg s event)
    (hstep : step cfg s event = some t) : Kept cfg t := by
  cases event with
  | wait duration =>
      cases hstep
      exact h.later _
  | check serverId answers =>
      cases hstep
      unfold checkContainer
      cases hstate : answers.state with
      | none => exact h.addCheck serverId "unknown" 0
      | some state =>
          dsimp only
          split
          next hfails =>
            refine (h.addCheck serverId _ _).autoRestart (hcounted ?_)
            rw [failsAgain, hstate]
            exact decide_eq_true hfails
          next => exact h.addCheck serverId _ _

end Steps

/-- In a run where no uncounted restart lies in the window of another one, the budget holds all along. -/
theorem restarts_within_budget (cfg : Config) (now : Instant) (checks : List HealthCheck) (events : List Event)
    (h : AllSteps (step cfg) (Counted cfg) ⟨now, checks, []⟩ events) :
    AllStates (step cfg) (WithinBudget cfg) ⟨now, checks, []⟩ events :=
  (allStates_of_allSteps kept_step ⟨fun _ => bounded_nil, fun _ _ => Nat.zero_le _⟩ h).mono fun _ h => h.budget

section Sites

def unhealthy (restart : Restart) : Event := .check 1 ⟨some ⟨some "unhealthy", true⟩, restart, 0, 0⟩

def failing (restart : Restart) : List Event :=
  (List.replicate 3 [.wait (20 * second).toNat, unhealthy restart]).flatten

theorem restarts_within_budget_repaired :
    AllStates (step defaultConfig) (WithinBudget defaultConfig) ⟨0, [], []⟩
      (failing .succeeds ++ failing .unnotified ++ failing .succeeds ++ failing .succeeds) :=
  restarts_within_budget defaultConfig 0 [] _ (by decide +kernel)

/-- Restarts that fail are never counted, and a fourth is attempted within five minutes. -/
theorem fourth_attempt :
    ¬ ∀ (cfg : Config) (now : Instant) (checks : List HealthCheck) (events : List Event),
      AllStates (step cfg) (WithinBudget cfg) ⟨now, checks, []⟩ events := by
  intro h
  have hlast := (h defaultConfig 0 [] (failing .fails ++ failing .fails ++ failing .fails ++ failing .fails)).last rfl
  exact absurd (hlast 1 0) (by decide +kernel)

end Sites

end NukeLab.HealthChecks
