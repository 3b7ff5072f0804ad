import Mathlib.Order.Bounds.Basic
import NukeLab.Machine
import NukeLab.Records

namespace NukeLab.CronSchedules

open Records Tables Machine

/-- The cron library: what it says of a text that is no expression, at which times of a
clock an expression matches, and the next of these after a time. -/
structure Croniter where
  problem : String → Option String
  Matches : String → Int → Prop
  getNext : String → Int → Int
  isLeast : ∀ text base, problem text = none → IsLeast {t | base < t ∧ Matches text t} (getNext text base)

inductive Action
  | start
  | stop
  | restart

def Action.parse : String → Option Action
  | "start" => some .start
  | "stop" => some .stop
  | "restart" => some .restart
  | _ => none

structure Schedule (croniter : Croniter) where
  id : Uuid
  serverId : Uuid
  userId : Uuid
  action : Action
  cronExpression : String
  timezone : String
  isActive : Bool
  nextRunAt : Instant
  lastRunAt : Option Instant
  runCount : Int
  valid : croniter.problem cronExpression = none

structure Changes where
  action : Option String
  cronExpression : Option String
  timezone : Option String
  isActive : Option Bool

variable {croniter : Croniter}

abbrev Schedules (croniter : Croniter) := Table fun s : Schedule croniter => s.id

section Service

def validateAction (hint text : String) : Except String Action :=
  match Action.parse text with
  | none => .error ("Invalid action: " ++ text ++ hint)
  | some action => .ok action

def validateCron (croniter : Croniter) (text : String) : Except String {text : String // croniter.problem text = none} :=
  match h : croniter.problem text with
  | some problem => .error ("Invalid cron expression: " ++ problem)
  | none => .ok ⟨text, h⟩

/-- The time zone makes no difference. -/
def getNextRun (croniter : Croniter) (cronExpression _timezone : String) (now : Instant) : Instant :=
  croniter.getNext cronExpression now

def createSchedule (now : Instant) (id serverId userId : Uuid) (action cronExpression timezone : String) (isActive : Bool) :
    Except String (Schedule croniter) := do
  let action ← validateAction ". Must be start, stop, or restart" action
  let cron ← validateCron croniter cronExpression
  return {
    id, serverId, userId, action, timezone, isActive
    cronExpression := cron.1
    valid := cron.2
    nextRunAt := getNextRun croniter cronExpression timezone now
    lastRunAt := none
    runCount := 0
  }

def Changes.newAction (changes : Changes) (s : Schedule croniter) : Except String Action :=
  match changes.action with
  | none => .ok s.action
  | some text => validateAction "" text

def Changes.newCron (changes : Changes) (s : Schedule croniter) :
    Except String {text : String // croniter.problem text = none} :=
  match changes.cronExpression with
  | none => .ok ⟨s.cronExpression, s.valid⟩
  | some text => validateCron croniter text

/-- The next run is worked out anew, whatever changes. -/
def Schedule.change (now : Instant) (changes : Changes) (s : Schedule croniter) : Except String (Schedule croniter) := do
  let action ← changes.newAction s
  let cron ← changes.newCron s
  let timezone := changes.timezone.getD s.timezone
  return { s with
    action, timezone
    cronExpression := cron.1
    valid := cron.2
    isActive := changes.isActive.getD s.isActive
    nextRunAt := getNextRun croniter cron.1 timezone now }

def ownSchedule (schedules : Schedules croniter) (id userId : Uuid) : Option (Schedule croniter) :=
  (schedules.find id).filter fun s => s.userId = userId

def updateSchedule (now : Instant) (id userId : Uuid) (changes : Changes) (schedules : Schedules croniter) :
    Except String (Schedule croniter) :=
  match ownSchedule schedules id userId with
  | none => .error "Schedule not found"
  | some s => s.change now changes

def getDueSchedules (now : Instant) (schedules : Schedules croniter) : List (Schedule croniter) :=
  schedules.rows.filter fun s => s.isActive ∧ s.nextRunAt ≤ now

end Service

section Execution

structure Server where
  hasContainer : Bool
  status : String

/-- What the runtime says during an execution, and whether something raises before it is
asked or when it has done its part. -/
structure Answers where
  actualStatus : String
  recreates : Bool
  starts : Bool
  stops : Bool
  deletes : Bool
  raisesBefore : Bool
  raisesAfter : Bool

inductive Outcome
  | failed
  | raised (performed : Bool)
  | done (performed : Bool)

/-- Whether the runtime did what the action asks of it, where it asks for anything. -/
def runAction (action : Action) (server : Server) (answers : Answers) : Option Bool :=
  match action with
  | .start => if server.hasContainer ∧ answers.actualStatus = "stopped" then some (answers.recreates || answers.starts) else none
  | .stop => if server.hasContainer ∧ server.status = "running" then some answers.deletes else none
  | .restart =>
    if server.hasContainer ∧ server.status = "running" then some (answers.recreates || (answers.stops && answers.starts))
    else none

def executeAction (action : Action) (server : Server) (answers : Answers) : Outcome :=
  if answers.raisesBefore then .raised false
  else
    match runAction action server answers with
    | some false => .failed
    | some true => if answers.raisesAfter then .raised true else .done true
    | none => if answers.raisesAfter then .raised false else .done false

def Outcome.performed : Outcome → Bool
  | .failed => false
  | .raised performed => performed
  | .done performed => performed

end Execution

/-- One run of `evaluate_schedules`: the schedules it has loaded and not come to, and the
one, if any, whose action is over and whose bookkeeping is not. -/
structure Evaluation (croniter : Croniter) where
  pending : List (Schedule croniter)
  executed : Option (Schedule croniter × Bool)

def Evaluation.idle : Evaluation croniter := ⟨[], none⟩

/-- The database and the evaluations, with what has been executed and when the next run of
each schedule was worked out. -/
structure State (croniter : Croniter) where
  schedules : Schedules croniter
  evaluations : Nat → Evaluation croniter
  log : List (Uuid × Instant)
  computedAt : Uuid → Instant
  clock : Instant

inductive Event
  | create (id serverId userId : Uuid) (action cronExpression timezone : String) (isActive : Bool)
  | update (id userId : Uuid) (changes : Changes)
  | delete (id userId : Uuid)
  | select (evaluation : Nat)
  | execute (evaluation : Nat) (server : Option Server) (answers : Answers)
  | finish (evaluation : Nat)

section Steps

def State.evaluate (st : State croniter) (r : Nat) (evaluation : Evaluation croniter) : State croniter :=
  { st with evaluations := Function.update st.evaluations r evaluation }

def State.write (st : State croniter) (schedules : Schedules croniter) : State croniter := { st with schedules := schedules }

def Schedule.deactivate (s : Schedule croniter) : Schedule croniter := { s with isActive := false }

theorem id_deactivate (s : Schedule croniter) : s.deactivate.id = s.id := rfl

def Schedule.become (changed s : Schedule croniter) : Schedule croniter := { changed with id := s.id }

/-- What the bookkeeping writes, as the run has loaded the schedule. -/
def Schedule.finished (loaded : Schedule croniter) (now : Instant) (s : Schedule croniter) : Schedule croniter :=
  { s with
    lastRunAt := some now
    runCount := loaded.runCount + 1
    nextRunAt := getNextRun croniter loaded.cronExpression loaded.timezone now }

/-- The rows after a next run of one of them has been worked out. -/
def State.reschedule (st : State croniter) (now : Instant) (id : Uuid) (schedules : Schedules croniter) : State croniter :=
  { st with
    schedules := schedules
    computedAt := Function.update st.computedAt id now }

/-- A rollback expires what the session has loaded, and the run does not get beyond it. -/
def afterExecution (st : State croniter) (r : Nat) (s : Schedule croniter) (rest : List (Schedule croniter)) (outcome : Outcome) :
    State croniter :=
  let st := if outcome.performed then { st with log := (s.id, s.nextRunAt) :: st.log } else st
  match outcome with
  | .failed => st.evaluate r ⟨rest, none⟩
  | .raised _ => st.evaluate r .idle
  | .done performed => st.evaluate r ⟨rest, some (s, performed)⟩

def handle (now : Instant) (st : State croniter) : Event → Option (State croniter)
  | .create id serverId userId action cronExpression timezone isActive =>
    if (st.schedules.find id).isSome then none
    else
      match createSchedule now id serverId userId action cronExpression timezone isActive with
      | .error _ => some st
      | .ok s => some (st.reschedule now id (st.schedules.insert s))
  | .update id userId changes =>
    match updateSchedule now id userId changes st.schedules with
    | .error _ => some st
    | .ok s => some (st.reschedule now id (st.schedules.modify id s.become fun _ => rfl))
  | .delete id userId =>
    match ownSchedule st.schedules id userId with
    | none => some st
    | some _ => some (st.write (st.schedules.erase id))
  | .select r =>
    match st.evaluations r with
    | ⟨[], none⟩ => some (st.evaluate r ⟨getDueSchedules now st.schedules, none⟩)
    | _ => none
  | .execute r server answers =>
    match st.evaluations r, server with
    | ⟨s :: rest, none⟩, none =>
      some ((st.write (st.schedules.modify s.id Schedule.deactivate id_deactivate)).evaluate r ⟨rest, none⟩)
    | ⟨s :: rest, none⟩, some server => some (afterExecution st r s rest (executeAction s.action server answers))
    | _, _ => none
  | .finish r =>
    match st.evaluations r with
    | ⟨rest, some (s, _)⟩ =>
      some ((st.reschedule now s.id (st.schedules.modify s.id (s.finished now) fun _ => rfl)).evaluate r ⟨rest, none⟩)
    | _ => none

def step : Step (State croniter) (Instant × Event) := fun st (now, event) =>
  if now < st.clock then none else (handle now st event).map fun st => { st with clock := now }

def start (croniter : Croniter) : State croniter := ⟨Table.empty _, fun _ => .idle, [], fun _ => 0, 0⟩

end Steps

section Claims

variable (localTime : String → Instant → Int)

def instants (croniter : Croniter) (text zone : String) (base : Instant) : Set Instant :=
  {t | base < t ∧ croniter.Matches text (localTime zone t)}

/-- Every schedule's next run is at the first instant after it was worked out, and nothing
is executed twice for one instant. -/
structure OnTime (st : State croniter) : Prop where
  next : ∀ s ∈ st.schedules.rows, IsLeast (instants localTime croniter s.cronExpression s.timezone (st.computedAt s.id)) s.nextRunAt
  once : st.log.Nodup

/-- Up to its first match on the clock of UTC, an expression matches there when the other
one does in the zone. -/
def SameInstants (croniter : Croniter) (text text' zone : String) (now : Instant) : Prop :=
  ∀ t, now < t → (∀ u, now < u → u < t → ¬ croniter.Matches text u) →
    (croniter.Matches text t ↔ croniter.Matches text' (localTime zone t))

/-- The zone makes no difference to the next run, an action is only performed for the next
run that the row still has, which no other evaluation has performed, nothing raises after
it, and the row still has the expression when its next run is worked out. -/
def Orderly (st : State croniter) : Instant × Event → Prop
  | (now, .create _ _ _ _ text zone _) => croniter.problem text = none → SameInstants localTime croniter text text zone now
  | (now, .update id userId changes) => ∀ s, ownSchedule st.schedules id userId = some s →
    croniter.problem (changes.cronExpression.getD s.cronExpression) = none →
    SameInstants localTime croniter (changes.cronExpression.getD s.cronExpression)
      (changes.cronExpression.getD s.cronExpression) (changes.timezone.getD s.timezone) now
  | (_, .execute r (some server) answers) => ∀ s rest, st.evaluations r = ⟨s :: rest, none⟩ →
    (executeAction s.action server answers).performed → answers.raisesAfter = false ∧
      (∃ row ∈ st.schedules.rows, row.id = s.id ∧ row.nextRunAt = s.nextRunAt) ∧
      ∀ r' s', (st.evaluations r').executed = some (s', true) → s'.id ≠ s.id
  | (now, .finish r) => ∀ s performed, (st.evaluations r).executed = some (s, performed) →
    ∀ row ∈ st.schedules.rows, row.id = s.id →
      SameInstants localTime croniter s.cronExpression row.cronExpression row.timezone now
  | _ => True

end Claims

section Service

variable {schedules : Schedules croniter} {now : Instant} {s s' : Schedule croniter}

theorem validateCron_ok {text : String} {cron : {text : String // croniter.problem text = none}}
    (h : validateCron croniter text = .ok cron) : cron.1 = text := by
  rw [validateCron] at h
  split at h
  · cases h
  · obtain rfl := Except.ok.inj h
    rfl

theorem create_ok {id serverId userId : Uuid} {action text zone : String} {isActive : Bool}
    (h : createSchedule now id serverId userId action text zone isActive = .ok s) :
    s.id = id ∧ s.cronExpression = text ∧ s.timezone = zone ∧ s.nextRunAt = croniter.getNext text now := by
  rw [createSchedule] at h
  cases haction : validateAction ". Must be start, stop, or restart" action with
  | error e =>
      rw [haction] at h
      cases h
  | ok parsed =>
      rw [haction] at h
      cases hcron : validateCron croniter text with
      | error e =>
          rw [hcron] at h
          cases h
      | ok cron =>
          rw [hcron] at h
          obtain rfl := Except.ok.inj h
          obtain ⟨cron, valid⟩ := cron
          obtain rfl : cron = text := validateCron_ok hcron
          exact ⟨rfl, rfl, rfl, rfl⟩

theorem newCron_ok {changes : Changes} {cron : {text : String // croniter.problem text = none}} (h : changes.newCron s = .ok cron) :
    cron.1 = changes.cronExpression.getD s.cronExpression := by
  rw [Changes.newCron] at h
  split at h
  · rename_i hgiven
    obtain rfl := Except.ok.inj h
    rw [hgiven]
    rfl
  · rename_i hgiven
    rw [hgiven, validateCron_ok h]
    rfl

theorem change_ok {changes : Changes} (h : s.change now changes = .ok s') :
    s'.cronExpression = changes.cronExpression.getD s.cronExpression ∧ s'.timezone = changes.timezone.getD s.timezone ∧
      s'.nextRunAt = croniter.getNext s'.cronExpression now := by
  rw [Schedule.change] at h
  cases haction : changes.newAction s with
  | error e =>
      rw [haction] at h
      cases h
  | ok action =>
      rw [haction] at h
      cases hcron : changes.newCron s with
      | error e =>
          rw [hcron] at h
          cases h
      | ok cron =>
          rw [hcron] at h
          obtain rfl := Except.ok.inj h
          exact ⟨newCron_ok hcron, rfl, rfl⟩

end Service

section Invariant

variable {localTime : String → Instant → Int} {st st' : State croniter} {now : Instant} {r : Nat}

/-- What holds besides: what was executed is of the past, as is what the evaluations have
loaded, and a row still has an instant that was executed only before its bookkeeping. -/
structure Kept (localTime : String → Instant → Int) (st : State croniter) : Prop extends OnTime localTime st where
  past : ∀ pair ∈ st.log, pair.2 ≤ st.clock
  loaded : ∀ r, ∀ s ∈ (st.evaluations r).pending, s.nextRunAt ≤ st.clock
  moved : ∀ pair ∈ st.log, ∀ row ∈ st.schedules.rows, row.id = pair.1 → row.nextRunAt = pair.2 →
    ∃ r s, (st.evaluations r).executed = some (s, true) ∧ s.id = row.id

/-- A row that is as it was, but for what no next run depends on. -/
def Unmoved (st st' : State croniter) (row : Schedule croniter) : Prop :=
  ∃ old ∈ st.schedules.rows, old.id = row.id ∧ old.nextRunAt = row.nextRunAt ∧ old.cronExpression = row.cronExpression ∧
    old.timezone = row.timezone ∧ st'.computedAt row.id = st.computedAt row.id

/-- An execution of a schedule that waits for its bookkeeping still does. -/
def Pursued (st st' : State croniter) (id : Uuid) : Prop :=
  ∀ r s, (st.evaluations r).executed = some (s, true) → s.id = id →
    ∃ r' s', (st'.evaluations r').executed = some (s', true) ∧ s'.id = id

def Renewed (localTime : String → Instant → Int) (st' : State croniter) (row : Schedule croniter) : Prop :=
  st'.computedAt row.id = st'.clock ∧ IsLeast (instants localTime croniter row.cronExpression row.timezone st'.clock) row.nextRunAt

theorem isLeast_of_same {text text' zone : String} (h : croniter.problem text = none)
    (hsame : SameInstants localTime croniter text text' zone now) :
    IsLeast (instants localTime croniter text' zone now) (croniter.getNext text now) := by
  obtain ⟨⟨hafter, hmatches⟩, hleast⟩ := croniter.isLeast text now h
  have hbefore : ∀ t, t ≤ croniter.getNext text now → ∀ u, now < u → u < t → ¬ croniter.Matches text u :=
    fun t ht u hu hut hmatch => absurd (hleast ⟨hu, hmatch⟩) (not_le.mpr (lt_of_lt_of_le hut ht))
  constructor
  · exact ⟨hafter, (hsame _ hafter (hbefore _ le_rfl)).mp hmatches⟩
  · rintro t ⟨ht, hmatch⟩
    by_contra hlt
    have hearly : t ≤ croniter.getNext text now := (not_le.mp hlt).le
    exact hlt (hleast ⟨ht, (hsame t ht (hbefore t hearly)).mpr hmatch⟩)

theorem Kept.follow (hk : Kept localTime st) (st' : State croniter) (hlog : st'.log = st.log) (hclock : st.clock ≤ st'.clock)
    (hrows : ∀ row ∈ st'.schedules.rows, (Unmoved st st' row ∧ Pursued st st' row.id) ∨ Renewed localTime st' row)
    (hloaded : ∀ r, ∀ s ∈ (st'.evaluations r).pending, s.nextRunAt ≤ st'.clock) : Kept localTime st' := by
  have hpast : ∀ pair ∈ st'.log, pair.2 ≤ st'.clock := fun pair hpair => (hk.past pair (hlog ▸ hpair)).trans hclock
  refine ⟨⟨?_, hlog ▸ hk.once⟩, hpast, hloaded, ?_⟩
  · intro row hrow
    rcases hrows row hrow with ⟨⟨old, hold, hid, hnext, htext, hzone, hcomputed⟩, -⟩ | ⟨hcomputed, hleast⟩
    · have h := hk.next old hold
      rwa [hid, hnext, htext, hzone, ← hcomputed] at h
    · rwa [hcomputed]
  · intro pair hpair row hrow hid hnext
    rcases hrows row hrow with ⟨⟨old, hold, hid', hnext', -⟩, hpursued⟩ | ⟨-, hleast⟩
    · obtain ⟨r, s, hs, hsid⟩ := hk.moved pair (hlog ▸ hpair) old hold (hid'.trans hid) (hnext'.trans hnext)
      exact hpursued r s hs (hsid.trans hid')
    · have hafter : st'.clock < row.nextRunAt := hleast.1.1
      exact absurd (hnext ▸ hpast pair hpair) (not_le.mpr hafter)

theorem unmoved_of_mem {row : Schedule croniter} (hrow : row ∈ st.schedules.rows) (hcomputed : st'.computedAt = st.computedAt) :
    Unmoved st st' row := ⟨row, hrow, rfl, rfl, rfl, rfl, congrFun hcomputed row.id⟩

theorem Pursued.refl (st : State croniter) (id : Uuid) : Pursued st st id := fun r s hs hid => ⟨r, s, hs, hid⟩

theorem rows_reschedule (st' : State croniter) {id : Uuid} {schedules : Schedules croniter} (hclock : st'.clock = now)
    (hschedules : st'.schedules = schedules) (hcomputed : st'.computedAt = Function.update st.computedAt id now)
    (hrows : ∀ row ∈ schedules.rows, (row ∈ st.schedules.rows ∧ row.id ≠ id) ∨
      (row.id = id ∧ IsLeast (instants localTime croniter row.cronExpression row.timezone now) row.nextRunAt)) :
    ∀ row ∈ st'.schedules.rows, (Unmoved st st' row ∧ row.id ≠ id) ∨ Renewed localTime st' row := by
  intro row hrow
  rcases hrows row (hschedules ▸ hrow) with ⟨hold, hne⟩ | ⟨hid, hleast⟩
  · refine Or.inl ⟨⟨row, hold, rfl, rfl, rfl, rfl, ?_⟩, hne⟩
    rw [hcomputed, Function.update_of_ne hne]
  · refine Or.inr ⟨?_, hclock ▸ hleast⟩
    rw [hcomputed, hid, Function.update_self, hclock]

def State.at (st : State croniter) (now : Instant) : State croniter := { st with clock := now }

theorem Kept.tick (hk : Kept localTime st) (hnow : st.clock ≤ now) : Kept localTime (st.at now) := by
  apply hk.follow (st.at now) rfl hnow
  · exact fun row hrow => Or.inl ⟨unmoved_of_mem hrow rfl, Pursued.refl st row.id⟩
  · exact fun r s hs => (hk.loaded r s hs).trans hnow

theorem Kept.rescheduled {id : Uuid} {schedules : Schedules croniter} (hk : Kept localTime st) (hnow : st.clock ≤ now)
    (hrows : ∀ row ∈ schedules.rows, (row ∈ st.schedules.rows ∧ row.id ≠ id) ∨
      (row.id = id ∧ IsLeast (instants localTime croniter row.cronExpression row.timezone now) row.nextRunAt)) :
    Kept localTime ((st.reschedule now id schedules).at now) := by
  have hcases := rows_reschedule ((st.reschedule now id schedules).at now) rfl rfl rfl hrows
  apply hk.follow ((st.reschedule now id schedules).at now) rfl hnow
  · exact fun row hrow => (hcases row hrow).imp_left fun h => ⟨h.1, Pursued.refl st row.id⟩
  · exact fun r s hs => (hk.loaded r s hs).trans hnow

theorem kept_create {id serverId userId : Uuid} {action text zone : String} {isActive : Bool} (hk : Kept localTime st)
    (hnow : st.clock ≤ now) (horderly : croniter.problem text = none → SameInstants localTime croniter text text zone now)
    (h : handle now st (.create id serverId userId action text zone isActive) = some st') : Kept localTime (st'.at now) := by
  simp only [handle] at h
  split at h
  · cases h
  · rename_i hfresh
    split at h
    · obtain rfl := Option.some.inj h
      exact hk.tick hnow
    · rename_i s hs
      obtain rfl := Option.some.inj h
      obtain ⟨rfl, rfl, rfl, hnext⟩ := create_ok hs
      apply hk.rescheduled hnow
      intro row hrow
      rcases Table.mem_or_eq_of_mem_insert hrow with hold | rfl
      · refine Or.inl ⟨hold, fun hid => hfresh ?_⟩
        rw [← hid, Table.find_of_mem hold]
        rfl
      · exact Or.inr ⟨rfl, hnext ▸ isLeast_of_same row.valid (horderly row.valid)⟩

theorem rows_modify {id : Uuid} {f : Schedule croniter → Schedule croniter} {hf : ∀ s, (f s).id = s.id}
    {P : Schedule croniter → Prop} (hP : ∀ s ∈ st.schedules.rows, s.id = id → P (f s)) :
    ∀ row ∈ (st.schedules.modify id f hf).rows, (row ∈ st.schedules.rows ∧ row.id ≠ id) ∨ (row.id = id ∧ P row) := by
  intro row hrow
  obtain ⟨s, hs, rfl⟩ := Table.mem_modify.mp hrow
  by_cases hid : s.id = id
  · rw [if_pos hid]
    exact Or.inr ⟨(hf s).trans hid, hP s hs hid⟩
  · rw [if_neg hid]
    exact Or.inl ⟨hs, hid⟩

theorem kept_update {id userId : Uuid} {changes : Changes} (hk : Kept localTime st) (hnow : st.clock ≤ now)
    (horderly : Orderly localTime st (now, .update id userId changes))
    (h : handle now st (.update id userId changes) = some st') : Kept localTime (st'.at now) := by
  simp only [handle] at h
  split at h
  · obtain rfl := Option.some.inj h
    exact hk.tick hnow
  · rename_i s hs
    obtain rfl := Option.some.inj h
    rw [updateSchedule] at hs
    split at hs
    · cases hs
    · rename_i old hold
      obtain ⟨htext, hzone, hnext⟩ := change_ok hs
      have hvalid := s.valid
      rw [htext] at hvalid
      have hleast := isLeast_of_same hvalid (horderly old hold hvalid)
      rw [← htext, ← hzone, ← hnext] at hleast
      apply hk.rescheduled hnow
      apply rows_modify
      exact fun _ _ _ => hleast

theorem kept_delete {id userId : Uuid} (hk : Kept localTime st) (hnow : st.clock ≤ now)
    (h : handle now st (.delete id userId) = some st') : Kept localTime (st'.at now) := by
  simp only [handle] at h
  split at h
  · obtain rfl := Option.some.inj h
    exact hk.tick hnow
  · obtain rfl := Option.some.inj h
    apply hk.follow ((st.write (st.schedules.erase id)).at now) rfl hnow
    · exact fun row hrow => Or.inl ⟨unmoved_of_mem (List.mem_filter.mp hrow).1 rfl, Pursued.refl st row.id⟩
    · exact fun r s hs => (hk.loaded r s hs).trans hnow

theorem evaluations_evaluate (st : State croniter) (r r' : Nat) (evaluation : Evaluation croniter) :
    (st.evaluate r evaluation).evaluations r' = if r' = r then evaluation else st.evaluations r' :=
  Function.update_apply _ _ _ _

theorem pursued_evaluate {evaluation : Evaluation croniter} {id : Uuid}
    (h : ∀ s, (st.evaluations r).executed = some (s, true) → s.id ≠ id) : Pursued st (st.evaluate r evaluation) id := by
  intro r' s hs hid
  refine ⟨r', s, ?_, hid⟩
  have hne : r' ≠ r := by
    rintro rfl
    exact h s hs hid
  rw [evaluations_evaluate, if_neg hne]
  exact hs

theorem loaded_evaluate {evaluation : Evaluation croniter} (hk : Kept localTime st) (hnow : st.clock ≤ now)
    (hloaded : ∀ s ∈ evaluation.pending, s.nextRunAt ≤ now) :
    ∀ r', ∀ s ∈ ((st.evaluate r evaluation).evaluations r').pending, s.nextRunAt ≤ now := by
  intro r' s hs
  rw [evaluations_evaluate] at hs
  split at hs
  · exact hloaded s hs
  · exact (hk.loaded r' s hs).trans hnow

theorem Kept.evaluated {evaluation : Evaluation croniter} (hk : Kept localTime st) (hnow : st.clock ≤ now)
    (hidle : (st.evaluations r).executed = none) (hloaded : ∀ s ∈ evaluation.pending, s.nextRunAt ≤ now) :
    Kept localTime ((st.evaluate r evaluation).at now) := by
  apply hk.follow ((st.evaluate r evaluation).at now) rfl hnow
  · intro row hrow
    refine Or.inl ⟨unmoved_of_mem hrow rfl, pursued_evaluate fun s hs => ?_⟩
    rw [hidle] at hs
    cases hs
  · exact loaded_evaluate hk hnow hloaded

theorem kept_select (hk : Kept localTime st) (hnow : st.clock ≤ now) (h : handle now st (.select r) = some st') :
    Kept localTime (st'.at now) := by
  simp only [handle] at h
  split at h
  · rename_i hidle
    obtain rfl := Option.some.inj h
    apply hk.evaluated hnow (congrArg Evaluation.executed hidle)
    exact fun s hs => (of_decide_eq_true (List.mem_filter.mp hs).2).2
  · cases h

theorem raises_of_raised {action : Action} {server : Server} {answers : Answers}
    (h : executeAction action server answers = .raised true) : answers.raisesAfter := by
  simp only [executeAction] at h
  split at h
  · cases h
  · split at h
    · cases h
    · split at h
      · assumption
      · cases h
    · split at h <;> cases h

/-- An action is performed for the next run that its row still has, where no other
evaluation has performed one. -/
theorem Kept.performed {s : Schedule croniter} {rest : List (Schedule croniter)} (hk : Kept localTime st) (hnow : st.clock ≤ now)
    (hpending : st.evaluations r = ⟨s :: rest, none⟩)
    (hrow : ∃ row ∈ st.schedules.rows, row.id = s.id ∧ row.nextRunAt = s.nextRunAt)
    (hfree : ∀ r' s', (st.evaluations r').executed = some (s', true) → s'.id ≠ s.id) :
    Kept localTime ((afterExecution st r s rest (.done true)).at now) := by
  have hloaded : ∀ s' ∈ s :: rest, s'.nextRunAt ≤ st.clock := fun s' hs' => hk.loaded r s' (by rw [hpending]; exact hs')
  have hself : ((afterExecution st r s rest (.done true)).evaluations r).executed = some (s, true) := by
    have h := evaluations_evaluate { st with log := (s.id, s.nextRunAt) :: st.log } r r ⟨rest, some (s, true)⟩
    rw [if_pos rfl] at h
    exact congrArg Evaluation.executed h
  refine ⟨⟨hk.next, ?_⟩, ?_, ?_, ?_⟩
  · apply List.nodup_cons.mpr
    refine ⟨fun hmem => ?_, hk.once⟩
    obtain ⟨row, hmemrow, hid, hnext⟩ := hrow
    obtain ⟨r', s', hs', hsid⟩ := hk.moved _ hmem row hmemrow hid hnext
    exact hfree r' s' hs' (hsid.trans hid)
  · intro pair hpair
    rcases List.mem_cons.mp hpair with rfl | hpair
    · exact (hloaded s List.mem_cons_self).trans hnow
    · exact (hk.past pair hpair).trans hnow
  · apply loaded_evaluate hk hnow
    exact fun s' hs' => (hloaded s' (List.mem_cons_of_mem s hs')).trans hnow
  · intro pair hpair row hmemrow hid hnext
    rcases List.mem_cons.mp hpair with rfl | hpair
    · exact ⟨r, s, hself, hid.symm⟩
    · obtain ⟨r', s', hs', hsid⟩ := hk.moved pair hpair row hmemrow hid hnext
      have hpursued : Pursued st (st.evaluate r ⟨rest, some (s, true)⟩) row.id := by
        apply pursued_evaluate
        intro s' hs'
        rw [hpending] at hs'
        cases hs'
      exact hpursued r' s' hs' hsid

theorem kept_execute {server : Option Server} {answers : Answers} (hk : Kept localTime st) (hnow : st.clock ≤ now)
    (horderly : Orderly localTime st (now, .execute r server answers))
    (h : handle now st (.execute r server answers) = some st') : Kept localTime (st'.at now) := by
  simp only [handle] at h
  split at h
  · rename_i s rest hpending
    obtain rfl := Option.some.inj h
    have hwritten : Kept localTime (st.write (st.schedules.modify s.id Schedule.deactivate id_deactivate)) := by
      apply hk.follow (st.write (st.schedules.modify s.id Schedule.deactivate id_deactivate)) rfl le_rfl
      · intro row hrow
        have hmem : row ∈ (st.schedules.modify s.id Schedule.deactivate id_deactivate).rows := hrow
        obtain ⟨old, hold, rfl⟩ := Table.mem_modify.mp hmem
        refine Or.inl ⟨⟨old, hold, ?_⟩, Pursued.refl st _⟩
        split
        · exact ⟨rfl, rfl, rfl, rfl, rfl⟩
        · exact ⟨rfl, rfl, rfl, rfl, rfl⟩
      · exact hk.loaded
    apply hwritten.evaluated hnow (congrArg Evaluation.executed hpending)
    intro s' hs'
    exact (hk.loaded r s' (by rw [hpending]; exact List.mem_cons_of_mem s hs')).trans hnow
  · rename_i s rest server hpending
    obtain rfl := Option.some.inj h
    have hidle : (st.evaluations r).executed = none := congrArg Evaluation.executed hpending
    have hrest : ∀ s' ∈ rest, s'.nextRunAt ≤ now := fun s' hs' =>
      (hk.loaded r s' (by rw [hpending]; exact List.mem_cons_of_mem s hs')).trans hnow
    cases houtcome : executeAction s.action server answers with
    | failed => exact hk.evaluated hnow hidle hrest
    | raised performed =>
        cases performed with
        | false => exact hk.evaluated hnow hidle fun _ hs' => absurd hs' List.not_mem_nil
        | true =>
            obtain ⟨hraises, -⟩ := horderly s rest hpending (by rw [houtcome]; rfl)
            rw [raises_of_raised houtcome] at hraises
            cases hraises
    | done performed =>
        cases performed with
        | false => exact hk.evaluated hnow hidle hrest
        | true =>
            obtain ⟨-, hrow, hfree⟩ := horderly s rest hpending (by rw [houtcome]; rfl)
            exact hk.performed hnow hpending hrow hfree
  · cases h

theorem kept_finish (hk : Kept localTime st) (hnow : st.clock ≤ now) (horderly : Orderly localTime st (now, .finish r))
    (h : handle now st (.finish r) = some st') : Kept localTime (st'.at now) := by
  simp only [handle] at h
  split at h
  · rename_i rest s performed hexecuted
    obtain rfl := Option.some.inj h
    have hsame := horderly s performed (congrArg Evaluation.executed hexecuted)
    have hrows : ∀ row ∈ (st.schedules.modify s.id (s.finished now) fun _ => rfl).rows,
        (row ∈ st.schedules.rows ∧ row.id ≠ s.id) ∨
          (row.id = s.id ∧ IsLeast (instants localTime croniter row.cronExpression row.timezone now) row.nextRunAt) := by
      apply rows_modify
      exact fun row hrow hid => isLeast_of_same s.valid (hsame row hrow hid)
    have hcases := rows_reschedule
      (((st.reschedule now s.id (st.schedules.modify s.id (s.finished now) fun _ => rfl)).evaluate r ⟨rest, none⟩).at now)
      rfl rfl rfl hrows
    apply hk.follow
      (((st.reschedule now s.id (st.schedules.modify s.id (s.finished now) fun _ => rfl)).evaluate r ⟨rest, none⟩).at now) rfl hnow
    · intro row hrow
      refine (hcases row hrow).imp_left fun hunmoved => ⟨hunmoved.1, pursued_evaluate fun s' hs' => ?_⟩
      rw [hexecuted] at hs'
      obtain ⟨rfl, -⟩ := Prod.mk.inj (Option.some.inj hs')
      exact Ne.symm hunmoved.2
    · apply loaded_evaluate hk hnow
      exact fun s' hs' => (hk.loaded r s' (by rw [hexecuted]; exact hs')).trans hnow
  · cases h

theorem kept_step {e : Instant × Event} (hk : Kept localTime st) (horderly : Orderly localTime st e)
    (h : step st e = some st') : Kept localTime st' := by
  obtain ⟨now, event⟩ := e
  rw [step] at h
  split at h
  · cases h
  · rename_i hclock
    have hnow : st.clock ≤ now := not_lt.mp hclock
    obtain ⟨handled, hhandle, rfl⟩ := Option.map_eq_some_iff.mp h
    cases event with
    | create id serverId userId action text zone isActive => exact kept_create hk hnow horderly hhandle
    | update id userId changes => exact kept_update hk hnow horderly hhandle
    | delete id userId => exact kept_delete hk hnow hhandle
    | select r => exact kept_select hk hnow hhandle
    | execute r server answers => exact kept_execute hk hnow horderly hhandle
    | finish r => exact kept_finish hk hnow horderly hhandle

theorem kept_start : Kept localTime (start croniter) := by
  refine ⟨⟨?_, List.nodup_nil⟩, ?_, ?_, ?_⟩
  · exact fun _ hs => absurd hs List.not_mem_nil
  · exact fun _ hpair => absurd hpair List.not_mem_nil
  · exact fun _ _ hs => absurd hs List.not_mem_nil
  · exact fun _ hpair => absurd hpair List.not_mem_nil

end Invariant

/-- In a run whose steps are all orderly, the next runs are always at their instants, and
no action is executed twice for one of them. -/
theorem schedules_onTime (croniter : Croniter) (localTime : String → Instant → Int) (events : List (Instant × Event))
    (h : AllSteps step (Orderly localTime) (start croniter) events) :
    AllStates step (OnTime localTime) (start croniter) events :=
  (allStates_of_allSteps (fun _ _ _ => kept_step) kept_start h).mono fun _ hk => hk.toOnTime

theorem same_of_utc {localTime : String → Instant → Int} {text zone : String} {now : Instant} (h : ∀ t, localTime zone t = t) :
    SameInstants localTime croniter text text zone now := fun t _ _ => by rw [h]

def nineDaily : Croniter where
  problem text := if text = "0 9 * * *" then none else some text
  Matches _ t := t % day = 9 * hour
  getNext _ base := (base - 9 * hour) / day * day + day + 9 * hour
  isLeast _ base _ := by
    simp only [day, hour, minute, second]
    constructor
    · constructor
      · omega
      · omega
    · rintro t ⟨ht, hmatch⟩
      omega

def zones (zone : String) (t : Instant) : Int := if zone = "Asia/Tokyo" then t + 9 * hour else t

def nineIn (zone : String) : Instant × Event := (0, .create 1 2 3 "restart" "0 9 * * *" zone true)

def running : Server := ⟨true, "running"⟩

def restarts : Answers := ⟨"running", false, true, true, true, false, false⟩

def hourly : Croniter where
  problem text := if text = "0 * * * *" then none else some text
  Matches _ t := t % hour = 0
  getNext _ base := base / hour * hour + hour
  isLeast _ base _ := by
    simp only [hour, minute, second]
    constructor
    · constructor
      · omega
      · omega
    · rintro t ⟨ht, hmatch⟩
      omega

/-- Two evaluations, one after the other, of a schedule for every hour of Tokyo. -/
def alone : List (Instant × Event) :=
  [(0, .create 1 2 3 "restart" "0 * * * *" "Asia/Tokyo" true), (hour, .select 0), (hour, .execute 0 (some running) restarts),
    (hour, .finish 0), (2 * hour, .select 1), (2 * hour, .execute 1 (some running) restarts), (2 * hour, .finish 1)]

/-- Tokyo is ahead of UTC by whole hours. -/
theorem sameInstants_tokyo (text text' : String) (now : Instant) : SameInstants zones hourly text text' "Asia/Tokyo" now := by
  intro t _ _
  have hzone : zones "Asia/Tokyo" t = t + 9 * hour := rfl
  rw [hzone]
  simp only [hourly, hour, minute, second]
  omega

theorem orderly_execute {st : State hourly} {now : Instant} {r : Nat} {s : Schedule hourly}
    (hpending : st.evaluations r = ⟨[s], none⟩) (hrows : s ∈ st.schedules.rows)
    (hidle : ∀ r', (st.evaluations r').executed = none) : Orderly zones st (now, .execute r (some running) restarts) := by
  intro s' rest hpending' _
  obtain ⟨rfl, -⟩ := List.cons.inj (congrArg Evaluation.pending (hpending.symm.trans hpending'))
  refine ⟨rfl, ⟨s, hrows, rfl, rfl⟩, fun r' s' hexecuted => ?_⟩
  rw [hidle r'] at hexecuted
  cases hexecuted

theorem orderly_finish {st : State hourly} {now : Instant} {r : Nat} {row : Schedule hourly}
    (hrows : st.schedules.rows = [row]) (htokyo : row.timezone = "Asia/Tokyo") : Orderly zones st (now, .finish r) := by
  intro s _ _ row' hrow' _
  obtain rfl := List.mem_singleton.mp (hrows ▸ hrow')
  rw [htokyo]
  exact sameInstants_tokyo _ _ now

theorem onTime_alone : AllStates step (OnTime zones) (start hourly) alone := by
  apply schedules_onTime
  apply AllSteps.cons rfl (fun _ => sameInstants_tokyo _ _ 0)
  apply AllSteps.cons rfl trivial
  apply AllSteps.cons rfl
  · apply orderly_execute rfl (List.mem_singleton_self _)
    intro r'
    match r' with
    | 0 | _ + 1 => rfl
  apply AllSteps.cons rfl (orderly_finish rfl rfl)
  apply AllSteps.cons rfl trivial
  apply AllSteps.cons rfl
  · apply orderly_execute rfl (List.mem_singleton_self _)
    intro r'
    match r' with
    | 0 | 1 | _ + 2 => rfl
  apply AllSteps.cons rfl (orderly_finish rfl rfl)
  trivial

def overlapping : List (Instant × Event) :=
  [nineIn "UTC", (9 * hour, .select 0), (9 * hour, .select 1), (9 * hour, .execute 0 (some running) restarts),
    (9 * hour, .execute 1 (some running) restarts)]

/-- Overlapping evaluations restart a server twice for one instant, and nine in Tokyo is
taken for nine of UTC. -/
theorem twice_and_late :
    ¬ AllStates step (OnTime zones) (start nineDaily) overlapping ∧
      ¬ AllStates step (OnTime zones) (start nineDaily) [nineIn "Asia/Tokyo"] := by
  constructor
  · intro h
    have hlog : (run step (start nineDaily) overlapping).map State.log = some [(1, 9 * hour), (1, 9 * hour)] := by decide
    obtain ⟨st, hrun, hst⟩ := Option.map_eq_some_iff.mp hlog
    have honce := (h.last hrun).once
    rw [hst] at honce
    exact absurd honce (by decide)
  · intro h
    have hrows : (run step (start nineDaily) [nineIn "Asia/Tokyo"]).map
        (fun st => st.schedules.rows.map fun s => (s.cronExpression, s.timezone, s.nextRunAt)) =
        some [("0 9 * * *", "Asia/Tokyo", 9 * hour)] := by decide
    obtain ⟨st, hrun, hst⟩ := Option.map_eq_some_iff.mp hrows
    obtain ⟨s, hs, hfields⟩ := List.mem_map.mp (hst ▸ List.mem_singleton_self ("0 9 * * *", "Asia/Tokyo", 9 * hour))
    have hnext := ((h.last hrun).next s hs).1.2
    obtain ⟨-, hzone, hat⟩ : _ ∧ s.timezone = "Asia/Tokyo" ∧ s.nextRunAt = 9 * hour := by simpa [Prod.ext_iff] using hfields
    rw [hzone, hat] at hnext
    have hlate : zones "Asia/Tokyo" (9 * hour) % day ≠ 9 * hour := by decide
    exact hlate hnext

end NukeLab.CronSchedules
