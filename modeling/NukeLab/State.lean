import NukeLab.Records

namespace NukeLab.State

open Tables Records

/-- What the database and the container daemon hold, and the process settings.
Identifiers are drawn from `nextUuid`, so a new one never meets an old one. -/
structure World where
  now : Instant
  nextUuid : Uuid
  settings : Settings
  users : Uuid → Option User
  plans : Uuid → Option ServerPlan
  environments : Uuid → Option EnvironmentTemplate
  servers : Table Server.id
  transactions : List CreditTransaction
  creditRequests : Table CreditRequest.id
  requestMessages : List CreditRequestMessage
  quotas : Uuid → Option ResourceQuota
  gpuAllocations : List GpuAllocation
  queue : List QueueEntry
  volumes : List Volume
  serverVolumes : List ServerVolume
  containers : List Container
  dockerVolumes : List String

/-- A database with no rows, under settings with every limit lifted. -/
def blankWorld : World where
  now := 0
  nextUuid := 1000
  settings :=
    { creditsEnabled := true, creditsInitialBalance := 100, creditsDailyAllowance := 10, creditsMaxBalance := 0,
      creditsAutoApproveMax := 0,
      creditsRequestCooldownHours := 0, serverAutoStopOnDepletion := true, serverMaxRuntime := 0,
      gpuEnabled := true, gpuDeviceList := [],
      quotaDefaults :=
        { maxCpuTotal := 8, maxMemoryTotal := 16384, maxDiskTotal := 102400, maxGpuTotal := 0,
          maxServersTotal := 5 } }
  users := fun _ => none
  plans := fun _ => none
  environments := fun _ => none
  servers := Table.empty Server.id
  transactions := []
  creditRequests := Table.empty CreditRequest.id
  requestMessages := []
  quotas := fun _ => none
  gpuAllocations := []
  queue := []
  volumes := []
  serverVolumes := []
  containers := []
  dockerVolumes := []

def newUser (username : String) : User where
  username := username
  isActive := true
  nukeBalance := 100
  dailyAllowance := 10
  dailyAllowanceOverride := none
  dailyAllowanceOverrideUntil := none
  maxServerRuntimeEnabled := true
  maxServerRuntime := none
  creditRequestsBlocked := false
  creditRequestsBlockedUntil := none

def newPlan (name : String) (costPerHour : Int) : ServerPlan where
  name := name
  cpuLimit := 1
  memoryLimit := 2048
  diskLimit := 10240
  gpuLimit := 0
  maxServersPerUser := 3
  costPerHour := costPerHour
  isActive := true
  priority := 0

/-- A server just spawned under a plan made by `newPlan`. -/
def newServer (id userId planId containerId : Uuid) (name : String) (startedAt : Instant) : Server where
  id := id
  name := name
  userId := userId
  environmentId := none
  planId := some planId
  containerId := some containerId
  volumeId := none
  status := .running
  allocatedCpu := 1
  allocatedMemory := 2048
  allocatedDisk := 10240
  allocatedGpu := 0
  stopReason := none
  totalCost := 0
  lastBilledAt := none
  expiresAt := none
  startedAt := some startedAt
  stoppedAt := none
  lastActivity := some startedAt

inductive Raise
  | http (status : Nat) (detail : String)
  | exception (text : String)
  deriving DecidableEq

/-- A request handler or task body. Statements commit as they go: what was
written before a raise stays written. -/
abbrev Handler (α : Type) := EStateM Raise World α

/-- An error in the body is logged, and the caller goes on. -/
def logged (body : Handler Unit) : Handler Unit := tryCatch body fun _ => pure ()

@[simp] theorem final_logged (body : Handler Unit) (w : World) :
    Program.final (logged body) w = Program.final body w := by
  rw [Program.final, Program.final, logged, Program.run_tryCatch]
  cases body.run w <;> rfl

/-- What the body raises is handed on. -/
def attempt {α : Type} (body : Handler α) : Handler (Except Raise α) :=
  tryCatch (do return .ok (← body)) fun raise => return .error raise

theorem attempt_run {α : Type} (body : Handler α) (w : World) :
    (attempt body).run w =
      match body.run w with
      | .ok a t => .ok (.ok a) t
      | .error raise t => .ok (.error raise) t := by
  rw [attempt, Program.run_tryCatch, EStateM.run_bind]
  cases body.run w <;> rfl

theorem final_attempt {α β : Type} {P : World → Prop} {body : Handler α} {f : Except Raise α → Handler β} {w : World}
    (hok : Program.Returns body w fun a t => P (Program.final (f (.ok a)) t))
    (herror : Program.Raises body w fun raise t => P (Program.final (f (.error raise)) t)) :
    P (Program.final (attempt body >>= f) w) := by
  rw [Program.final_bind, attempt_run]
  cases hr : body.run w with
  | ok a t => exact hok a t hr
  | error raise t => exact herror raise t hr

inductive ContainerStatus
  | running
  | paused
  | stopped
  | unknown
  deriving DecidableEq

inductive SpawnFault
  | beforeWork
  | ensuringVolumes (ensured : Nat)
  | creatingContainer
  deriving DecidableEq

structure Runtime where
  status : ContainerStatus
  deletes : Bool
  starts : Bool
  stops : Bool
  spawnFault : Option SpawnFault
  toolchainVolume : Option String
  message : String
  deriving DecidableEq

def obedient (status : ContainerStatus) : Runtime where
  status := status
  deletes := true
  starts := true
  stops := true
  spawnFault := none
  toolchainVolume := none
  message := ""

def utcNow : Handler Instant := do return (← get).now

def utcTodayStart : Handler Instant := do return (← get).now / day * day

def newUuid : Handler Uuid := modifyGet fun w => (w.nextUuid, { w with nextUuid := w.nextUuid + 1 })

def findServer (id : Uuid) : Handler (Option Server) := do return (← get).servers.find id

@[simp] theorem run_utcNow (w : World) : utcNow.run w = .ok w.now w := rfl

@[simp] theorem run_findServer (id : Uuid) (w : World) : (findServer id).run w = .ok (w.servers.find id) w := rfl

def modifyServer (id : Uuid) (f : Server → Server) (hf : ∀ s, (f s).id = s.id := by intro _; rfl) :
    Handler Unit :=
  modify fun w => { w with servers := w.servers.modify id f hf }

def hexDigits (width : Nat) (n : Nat) : String :=
  String.ofList ((List.range width).reverse.map fun i => Nat.digitChar (n / 16 ^ i % 16))

def uuidText (u : Uuid) : String :=
  hexDigits 8 (u / 16 ^ 24) ++ "-" ++ hexDigits 4 (u / 16 ^ 20) ++ "-" ++ hexDigits 4 (u / 16 ^ 16) ++ "-" ++
    hexDigits 4 (u / 16 ^ 12) ++ "-" ++ hexDigits 12 u

end NukeLab.State
