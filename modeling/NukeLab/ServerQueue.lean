import Mathlib.Data.List.Sort
import NukeLab.Lifecycle

namespace NukeLab.ServerQueue

open Records State Ledger GpuAllocator Quota Spawner Lifecycle

def Precedes (a b : QueueEntry) : Prop :=
  a.priority > b.priority ∨ a.priority = b.priority ∧ a.requestedAt ≤ b.requestedAt

instance : DecidableRel Precedes := fun _ _ => inferInstanceAs (Decidable (_ ∨ _))

def getNextInQueue (w : World) : Option QueueEntry :=
  ((w.queue.filter fun e => e.status = .pending).insertionSort Precedes).find? fun e => canFit w e.planId

def updateEntry (id : Uuid) (f : QueueEntry → QueueEntry) : Handler Unit :=
  modify fun w => { w with queue := w.queue.map fun e => if e.id = id then f e else e }

def failed (message : String) (e : QueueEntry) : QueueEntry := { e with status := .failed, errorMessage := some message }

def raiseText : Raise → String
  | .http status detail => toString status ++ ": " ++ detail
  | .exception text => text

/-- Why an entry that was picked is not spawned; the plan and the user it is spawned for otherwise. -/
def admission (w : World) (entry : QueueEntry) : Except String (ServerPlan × User) :=
  match w.plans entry.planId with
  | none => .error "Plan no longer available"
  | some plan =>
    if ¬ plan.isActive then .error "Plan no longer available"
    else
      match w.users entry.userId with
      | none => .error "User not found or inactive"
      | some user => if user.isActive then .ok (plan, user) else .error "User not found or inactive"

theorem admission_ok {w : World} {entry : QueueEntry} {plan : ServerPlan} {user : User}
    (h : admission w entry = .ok (plan, user)) :
    w.plans entry.planId = some plan ∧ w.users entry.userId = some user := by
  unfold admission at h
  split at h
  · exact nomatch h
  · rename_i plan' hplan
    split at h
    · exact nomatch h
    · split at h
      · exact nomatch h
      · rename_i user' huser
        split at h
        · cases h
          exact ⟨hplan, huser⟩
        · exact nomatch h

def lacksCredits (w : World) (entry : QueueEntry) (plan : ServerPlan) : Bool :=
  w.settings.creditsEnabled && decide (plan.costPerHour > 0) && decide (balance w entry.userId < plan.costPerHour)

/-- What was asked for when the entry was queued, in case the plan has changed. -/
def queuedRequest (entry : QueueEntry) (plan : ServerPlan) (user : User) (serverId : Uuid) (devices : List Device) :
    SpawnRequest where
  userId := entry.userId
  username := user.username
  serverName := entry.serverName
  environmentId := some entry.environmentId
  cpu := if entry.requestedCpu = 0 then plan.cpuLimit else entry.requestedCpu
  memory := entry.requestedMemory
  disk := entry.requestedDisk
  gpu := plan.gpuLimit
  gpuDevices := devices
  volumeMounts := []
  serverId := serverId

def giveUp (entry : QueueEntry) (serverId : Uuid) (raise : Raise) : Handler Unit := do
  release serverId
  updateEntry entry.id fun e => { failed (raiseText raise) e with retryCount := e.retryCount + 1 }

def recordStarted (commits : Commits) (entry : QueueEntry) (new : Server) (user : User) : Handler Unit := do
  let _ ← recordQueued commits new entry.userId entry.planId user
  let now ← utcNow
  updateEntry entry.id fun e => { e with status := .started, startedAt := some now }

/-- The steps for an entry that may be spawned. What is raised is recorded on the
entry, unless a commit failed: the session then takes no further statement, and
neither the release nor the entry's status is written. -/
def spawnEntry (runtime : Runtime) (commits : Commits) (entry : QueueEntry) (plan : ServerPlan) (user : User) :
    Handler Unit := do
  let serverId ← newUuid
  match ← attempt (ensureGpuDevices serverId plan.gpuLimit) with
  | .error (.http _ detail) => updateEntry entry.id (failed detail)
  | .error raise => giveUp entry serverId raise
  | .ok devices =>
    let request := queuedRequest entry plan user serverId (devices.getD [])
    match ← attempt (chargeQueued commits request plan) with
    | .error raise => if commits.charge then giveUp entry serverId raise
    | .ok _ =>
      match ← attempt (spawn runtime request) with
      | .error raise => giveUp entry serverId raise
      | .ok new => logged (recordStarted commits entry new user)

def processEntry (runtime : Runtime) (commits : Commits) (entry : QueueEntry) : Handler Unit := do
  match admission (← get) entry with
  | .error message => updateEntry entry.id (failed message)
  | .ok (plan, user) =>
    let refusal ← checkSpawnAllowed entry.userId entry.planId none
    match refusal with
    | some refusal => updateEntry entry.id (failed refusal.reason)
    | none =>
      if lacksCredits (← get) entry plan then updateEntry entry.id (failed "Insufficient NUKE credits")
      else spawnEntry runtime commits entry plan user

end NukeLab.ServerQueue
