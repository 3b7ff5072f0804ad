import NukeLab.Billing
import NukeLab.Quota

namespace NukeLab.Lifecycle

open Records State Ledger GpuAllocator Quota Spawner Billing

/-- What the plan and volume services answer while one handler runs. -/
structure Answers where
  canUsePlan : Bool
  volumeRefusal : Option String
  deriving DecidableEq

structure Reply where
  message : String
  serverId : Uuid
  status : String
  deriving DecidableEq

def planOf (w : World) (server : Server) : Option ServerPlan := server.planId.bind w.plans

def loadServerVolumeMounts (w : World) (serverId : Uuid) : List VolumeMount :=
  (w.serverVolumes.filter fun m => m.serverId = serverId).map fun m =>
    { volumeId := m.volumeId, mountPath := m.mountPath, mode := m.mode, isPrimary := m.isPrimary }

/-- When a server of this user expires, by the user's runtime preference. One that
leads past the year 9999, which raises, is left out. -/
def serverExpiry (w : World) (user : User) : Option Instant :=
  let maxRuntimeSeconds :=
    match user.maxServerRuntime with
    | none => w.settings.serverMaxRuntime
    | some minutes => minutes * 60
  if ¬ user.maxServerRuntimeEnabled then none
  else if maxRuntimeSeconds > 0 then some (w.now + maxRuntimeSeconds * second)
  else none

def serverGpuCount (server : Server) (plan : Option ServerPlan) : Int :=
  match plan with
  | some plan => plan.gpuLimit
  | none => server.allocatedGpu

def gpuRequiresRecreate (w : World) (server : Server) (plan : Option ServerPlan) : Bool :=
  enabled w.settings && decide (serverGpuCount server plan > 0)

def spawnRequestFor (w : World) (server : Server) (plan : Option ServerPlan) (username : String)
    (devices : Option (List Device)) : SpawnRequest :=
  { userId := server.userId, username := username, serverName := server.name,
    environmentId := server.environmentId,
    cpu := (plan.map ServerPlan.cpuLimit).getD server.allocatedCpu,
    memory := (plan.map ServerPlan.memoryLimit).getD server.allocatedMemory,
    disk := (plan.map ServerPlan.diskLimit).getD server.allocatedDisk,
    gpu := serverGpuCount server plan, gpuDevices := devices.getD [],
    volumeMounts := loadServerVolumeMounts w server.id, serverId := server.id }

def ownerName (w : World) (server : Server) (fallback : String) : String :=
  ((w.users server.userId).map User.username).getD fallback

def startedFields (now : Instant) (expiry : Option Instant) (s : Server) : Server :=
  { s with status := .running, startedAt := some now, lastActivity := some now, stopReason := none, stoppedAt := none,
           expiresAt := expiry }

def recreatedFields (new : Server) (now : Instant) (expiry : Option Instant) (s : Server) : Server :=
  startedFields now expiry { s with containerId := new.containerId, volumeId := new.volumeId }

/-- The owner's runtime preference; a server whose owner is gone has none to read. -/
def ownerExpiry (server : Server) : Handler (Option Instant) := do
  let w ← get
  match w.users server.userId with
  | some owner => return serverExpiry w owner
  | none => throw (.exception "'NoneType' object has no attribute 'preferences'")

/-- An HTTP error passes through; anything else becomes a plain 500. -/
def orServerError {α : Type} (detail : String) (body : Handler α) : Handler α :=
  tryCatch body fun raise =>
    match raise with
    | .http _ _ => throw raise
    | .exception _ => throw (.http 500 detail)

@[simp] theorem final_orServerError {α : Type} (detail : String) (body : Handler α) (w : World) :
    Program.final (orServerError detail body) w = Program.final body w := by
  rw [Program.final, Program.final, orServerError, Program.run_tryCatch]
  cases body.run w with
  | ok a t => rfl
  | error raise t => cases raise <;> rfl

/-- Why start and restart refuse, before they touch the container. -/
def startRefusal (w : World) (answers : Answers) (server : Server) : Option Raise :=
  if server.planId.isSome ∧ ¬ answers.canUsePlan then some (.http 403 "Plan no longer available for your account")
  else
    match planOf w server with
    | none => none
    | some plan =>
      if w.settings.creditsEnabled ∧ plan.costPerHour > 0 ∧ balance w server.userId < plan.costPerHour then
        some (.http 402 ("Insufficient NUKE credits. Required: " ++ toString plan.costPerHour ++ " for 1 hour"))
      else if loadServerVolumeMounts w server.id ≠ [] then answers.volumeRefusal.map (.http 400)
      else none

def checkStart (answers : Answers) (server : Server) : Handler (Option ServerPlan) := do
  let w ← get
  match startRefusal w answers server with
  | some raise => throw raise
  | none => return planOf w server

/-- Spawns a new container for an existing server, with the devices it owns. -/
def respawn (runtime : Runtime) (server : Server) (plan : Option ServerPlan) (fallback : String) :
    Handler Server := do
  let devices ← ensureGpuDevices server.id (serverGpuCount server plan)
  let w ← get
  spawn runtime (spawnRequestFor w server plan (ownerName w server fallback) devices)

/-- Spawns a server that has no row yet. Its devices are freed if that breaks off. -/
def spawnNew (runtime : Runtime) (request : SpawnRequest) : Handler Server :=
  tryCatch (spawn runtime request) fun raise => do
    release request.serverId
    throw raise

/-- Which of the commits of a creation succeed, and how the others fail. -/
structure Commits where
  queueEntry : Bool
  charge : Bool
  server : Bool
  mounts : Bool
  quota : Bool
  message : String
  deriving DecidableEq

def Commits.succeed : Commits := ⟨true, true, true, true, true, ""⟩

/-- A commit that fails leaves nothing of what it was to write. -/
def commit (succeeds : Bool) (message : String) (write : World → World) : Handler Unit :=
  if succeeds then modify write else throw (.exception message)

theorem commit_returns {succeeds : Bool} {message : String} {write : World → World} {w : World} :
    Program.Returns (commit succeeds message write) w fun _ t => succeeds = true ∧ t = write w := by
  intro _ t hr
  cases succeeds with
  | true =>
      cases hr
      exact ⟨rfl, rfl⟩
  | false => exact nomatch hr

theorem commit_raises {succeeds : Bool} {message : String} {write : World → World} {w : World}
    {Q : Raise → World → Prop} (h : succeeds = false → Q (.exception message) w) :
    Program.Raises (commit succeeds message write) w Q := by
  cases succeeds with
  | true => exact fun _ _ hr => nomatch hr
  | false => exact .throw (h rfl)

def saveServer (commits : Commits) (new : Server) (planId : Uuid) (user : User) : Handler Server := do
  let w ← get
  let server :=
    { new with planId := some planId, lastActivity := some w.now, expiresAt := serverExpiry w user }
  commit commits.server commits.message fun w => { w with servers := w.servers.insert server }
  return server

def mountsOf (server : Server) (mounts : List VolumeMount) : List ServerVolume :=
  mounts.map fun m =>
    { serverId := server.id, volumeId := m.volumeId, mountPath := m.mountPath, mode := m.mode,
      isPrimary := m.isPrimary }

def recordSpawned (commits : Commits) (new : Server) (request : SpawnRequest) (planId : Uuid) (user : User) :
    Handler Server := do
  let server ← saveServer commits new planId user
  commit commits.mounts commits.message fun w =>
    { w with serverVolumes := w.serverVolumes ++ mountsOf server request.volumeMounts }
  if ¬ commits.quota then throw (.exception commits.message)
  let _ ← incrementUsage request.userId planId
  return server

/-- The steps of create_server once its volumes and devices are there. -/
def provision (runtime : Runtime) (commits : Commits) (request : SpawnRequest) (planId : Uuid) (user : User) :
    Handler Server := do
  let new ← spawnNew runtime request
  recordSpawned commits new request planId user

/-- The first hour of a queued server is charged up front, on no server's account. -/
def chargeQueued (commits : Commits) (request : SpawnRequest) (plan : ServerPlan) : Handler Unit := do
  if (← get).settings.creditsEnabled ∧ plan.costPerHour > 0 then
    if ¬ commits.charge then throw (.exception commits.message)
    let _ ← consumeCredits request.userId plan.costPerHour
      ("Initial spawn cost for queued server '" ++ request.serverName ++ "'") none

/-- Saves the record of a queued server's container, and counts it. -/
def recordQueued (commits : Commits) (new : Server) (userId planId : Uuid) (user : User) : Handler Server := do
  let server ← saveServer commits new planId user
  if ¬ commits.quota then throw (.exception commits.message)
  let _ ← incrementUsage userId planId
  return server

def provisionQueued (runtime : Runtime) (commits : Commits) (request : SpawnRequest) (planId : Uuid)
    (plan : ServerPlan) (user : User) : Handler Server := do
  chargeQueued commits request plan
  let new ← spawn runtime request
  recordQueued commits new request.userId planId user

/-- Device rows are ensured before the stale container goes. -/
def respawnServerContainer (runtime : Runtime) (server : Server) (fallback : String) : Handler Server := do
  let plan := planOf (← get) server
  let devices ← ensureGpuDevices server.id (serverGpuCount server plan)
  if server.containerId.isSome then
    let _ ← Spawner.delete runtime server.containerId
  let w ← get
  spawn runtime (spawnRequestFor w server plan (ownerName w server fallback) devices)

/-- Deletes the stale container, spawns a new one and records it as started. -/
def recreate (runtime : Runtime) (server : Server) (plan : Option ServerPlan) (fallback : String) (removeOld : Bool) :
    Handler Unit := do
  if removeOld then
    let _ ← Spawner.delete runtime server.containerId
  let new ← respawn runtime server plan fallback
  let expiry ← ownerExpiry server
  let now ← utcNow
  modifyServer server.id (recreatedFields new now expiry)

def performServerStart (runtime : Runtime) (answers : Answers) (server : Server) (currentUsername : String) :
    Handler Reply := do
  let plan ← checkStart answers server
  match server.containerId with
  | some _ =>
    orServerError "Failed to start server. Please try again or contact support." do
      if runtime.status = .running then return ⟨"Server already running", server.id, "running"⟩
      if runtime.status = .unknown ∨ runtime.status = .stopped ∨ gpuRequiresRecreate (← get) server plan then
        recreate runtime server plan currentUsername true
        return ⟨"Server container recreated and started", server.id, "running"⟩
      if ¬ runtime.starts then throw (.exception "Failed to start container - check container logs")
      let expiry ← ownerExpiry server
      let now ← utcNow
      modifyServer server.id (startedFields now expiry)
      return ⟨"Server started", server.id, "running"⟩
  | none =>
    let w ← get
    match server.environmentId, server.planId with
    | some environmentId, some planId =>
      if (w.environments environmentId).isNone then throw (.http 404 "Environment not found")
      if (w.plans planId).isNone then throw (.http 404 "Plan not found")
      orServerError "Failed to restart server. Please try again or contact support." do
        let new ← respawn runtime server plan currentUsername
        let expiry ← ownerExpiry server
        let now ← utcNow
        modifyServer server.id fun s =>
          { recreatedFields new now expiry s with
            allocatedCpu := new.allocatedCpu, allocatedMemory := new.allocatedMemory }
        return ⟨"Server started", server.id, "running"⟩
    | _, _ => throw (.http 400 "Server configuration incomplete")

def performServerRestart (runtime : Runtime) (answers : Answers) (server : Server) (currentUsername : String) :
    Handler Reply := do
  let plan ← checkStart answers server
  match server.containerId with
  | none => throw (.http 400 "No container associated with this server")
  | some _ =>
    orServerError "Failed to restart server. Please try again or contact support." do
      let forced := gpuRequiresRecreate (← get) server plan
      if runtime.status = .unknown ∨ forced then
        recreate runtime server plan currentUsername (forced && runtime.status != .unknown)
        return ⟨"Server container recreated and started", server.id, "running"⟩
      if ¬ runtime.stops then
        throw (.exception "Failed to stop container for restart - check container logs")
      if ¬ runtime.starts then throw (.exception "Failed to start container - check container logs")
      let expiry ← ownerExpiry server
      let now ← utcNow
      modifyServer server.id (startedFields now expiry)
      return ⟨"Server restarted", server.id, "running"⟩

/-- Bills what a stopped server still owes and gives its plan's share of the
quota back. -/
def settle (serverId : Uuid) : Handler Unit := do
  match ← findServer serverId with
  | none => return
  | some server =>
    match server.planId with
    | none => return
    | some planId =>
      reconcileWith server ((← get).plans planId)
      let _ ← decrementUsage server.userId planId

/-- The whole bookkeeping of a stop: stamp the row, free the devices, bill the
rest, lower the quota usage. -/
def stopAndSettle (serverId : Uuid) (stamp : Instant → Server → Server)
    (hstamp : ∀ now s, (stamp now s).id = s.id := by intro _ _; rfl) : Handler Unit := do
  let now ← utcNow
  modifyServer serverId (stamp now) (hstamp now)
  release serverId
  settle serverId

/-- A stop without the bookkeeping. -/
def stopAndRelease (serverId : Uuid) (stamp : Server → Server)
    (hstamp : ∀ s, (stamp s).id = s.id := by intro _; rfl) : Handler Unit := do
  modifyServer serverId stamp hstamp
  release serverId

/-- The stop of a server whose live container has just been deleted. -/
def stopLive (serverId : Uuid) : Handler Unit :=
  stopAndSettle serverId fun now s =>
    { s with containerId := none, status := .stopped, stoppedAt := some now, expiresAt := none }

def performServerStop (runtime : Runtime) (server : Server) : Handler Reply := do
  match server.containerId with
  | some _ =>
    orServerError "Failed to stop server. Please try again or contact support." do
      match runtime.status with
      | .unknown => throw (.http 503 "Could not verify container status. Please try again.")
      | .stopped =>
        let _ ← Spawner.delete runtime server.containerId
        stopAndRelease server.id fun s => { s with status := .stopped, containerId := none, expiresAt := none }
        return ⟨"Server already stopped", server.id, "stopped"⟩
      | _ =>
        if ¬ (← Spawner.delete runtime server.containerId) then
          throw (.http 503 "Failed to stop the server container. Please try again.")
        stopLive server.id
        return ⟨"Server stopped", server.id, "stopped"⟩
  | none =>
    stopAndRelease server.id fun s => { s with status := .stopped, expiresAt := none }
    return ⟨"Server stopped", server.id, "stopped"⟩

/-- The server's row goes with its mounts; its ledger rows are deleted first. -/
def performServerDelete (runtime : Runtime) (server : Server) : Handler Reply := do
  if server.containerId.isSome then
    if ¬ (← Spawner.delete runtime server.containerId) then
      throw (.http 503 "Failed to delete the server container. Please try again.")
  modify fun w =>
    { w with
      transactions := w.transactions.filter fun t => t.serverId ≠ some server.id
      servers := w.servers.erase server.id
      serverVolumes := w.serverVolumes.filter fun m => m.serverId ≠ server.id }
  release server.id
  return ⟨"Server deleted", server.id, "deleted"⟩

/-- The status refresh of one listed server. -/
def syncStatus (runtime : Runtime) (server : Server) : Handler Unit := do
  if server.containerId.isSome then
    let now ← utcNow
    match runtime.status with
    | .running =>
      if server.status ≠ .running then
        modifyServer server.id fun s => { s with status := .running, startedAt := some now }
    | .stopped | .paused =>
      if server.status = .running then
        modifyServer server.id fun s => { s with status := .stopped, stoppedAt := some now }
    | .unknown => return

/-- The status refresh of the one server that is asked for, which puts the stop it ends behind. -/
def syncServer (runtime : Runtime) (server : Server) : Handler Unit := do
  if server.containerId.isSome then
    let now ← utcNow
    match runtime.status with
    | .running =>
      if server.status ≠ .running then
        modifyServer server.id fun s =>
          { s with status := .running, startedAt := some now, stopReason := none, stoppedAt := none }
    | .stopped | .paused =>
      if server.status = .running then
        modifyServer server.id fun s => { s with status := .stopped, stoppedAt := some now }
    | .unknown => return

def listServers (runtime : Uuid → Runtime) (visible : Server → Bool) : Handler Unit := do
  ((← get).servers.rows.filter visible).forM fun server => syncStatus (runtime server.id) server

/-- The deletion of a row the admin bulk action makes: the ledger keeps the
server's rows, their server column set to NULL. -/
def dropServer (serverId : Uuid) : Handler Unit :=
  modify fun w =>
    { w with
      transactions := w.transactions.map fun t => if t.serverId = some serverId then { t with serverId := none } else t
      servers := w.servers.erase serverId
      serverVolumes := w.serverVolumes.filter fun m => m.serverId ≠ serverId }

def bulkStart (runtime : Runtime) (server : Server) : Handler Unit := do
  if server.containerId.isSome then
    if gpuRequiresRecreate (← get) server none then
      let new ← respawnServerContainer runtime server server.name
      modifyServer server.id fun s => { s with containerId := new.containerId, volumeId := new.volumeId, status := .running }
    else
      if ¬ runtime.starts then throw (.exception "Failed to start container")
      modifyServer server.id fun s => { s with status := .running }

def bulkStop (runtime : Runtime) (server : Server) : Handler Unit := do
  if server.containerId.isSome then
    if ¬ runtime.stops then throw (.exception "Failed to stop container")
    stopAndRelease server.id fun s => { s with status := .stopped }

def bulkDelete (runtime : Runtime) (server : Server) : Handler Unit := do
  if server.containerId.isSome then
    if ¬ (← Spawner.delete runtime server.containerId) then throw (.exception "Failed to delete container")
  dropServer server.id
  release server.id

def decrementFor (server : Server) : Handler Unit := do
  match server.planId with
  | none => return
  | some planId =>
    let _ ← decrementUsage server.userId planId

/-- One expired server's turn in the runtime limit task. Its usage is not billed. -/
def enforceAutoStop (runtime : Runtime) (server : Server) : Handler Unit := do
  let now ← utcNow
  match server.expiresAt with
  | none => return
  | some expiresAt =>
    if now < expiresAt then return
    if ← Spawner.delete runtime server.containerId then
      stopAndRelease server.id fun s =>
        { s with containerId := none, status := .stopped, stoppedAt := some now,
                 stopReason := some "max_runtime_exceeded", expiresAt := none }
      decrementFor server

/-- One idle server's turn in the idle shutdown task. -/
def shutdownIdle (runtime : Runtime) (server : Server) : Handler Unit := do
  let idle (now : Instant) (s : Server) : Server :=
    { s with containerId := none, status := .stopped, stoppedAt := some now, stopReason := some "idle_timeout",
             expiresAt := none }
  match server.containerId with
  | none => stopAndSettle server.id idle
  | some _ =>
    match runtime.status with
    | .unknown => return
    | .stopped => stopAndRelease server.id fun s => { s with status := .stopped, containerId := none }
    | _ =>
      if ← Spawner.delete runtime server.containerId then stopAndSettle server.id idle

/-- One server with a volume over its limit in the volume quota task. -/
def enforceVolumeQuota (runtime : Runtime) (server : Server) : Handler Unit := do
  let halted (now : Instant) (s : Server) : Server :=
    { s with containerId := none, status := .stopped, stoppedAt := some now, stopReason := some "volume_quota_exceeded" }
  match server.containerId with
  | none => stopAndSettle server.id halted
  | some _ =>
    match runtime.status with
    | .unknown => return
    | .stopped => stopAndSettle server.id halted
    | _ =>
      if ← Spawner.delete runtime server.containerId then stopAndSettle server.id halted

/-- One of the owner's servers when the owner logs out. -/
def stopOnLogout (runtime : Runtime) (server : Server) : Handler Unit := do
  if server.containerId.isSome then
    match runtime.status with
    | .unknown => return
    | .stopped => stopAndRelease server.id fun s => { s with status := .stopped, containerId := none }
    | _ =>
      if ← Spawner.delete runtime server.containerId then
        stopAndSettle server.id fun now s =>
          { s with containerId := none, status := .stopped, stoppedAt := some now }

def scheduledStart (runtime : Runtime) (server : Server) : Handler Unit := do
  if server.containerId.isSome ∧ runtime.status = .stopped then
    let now ← utcNow
    if gpuRequiresRecreate (← get) server none then
      let new ← respawnServerContainer runtime server server.name
      modifyServer server.id fun s =>
        { s with containerId := new.containerId, volumeId := new.volumeId, status := .running,
                 startedAt := some now, lastActivity := some now }
    else if runtime.starts then
      modifyServer server.id fun s =>
        { s with status := .running, startedAt := some now, lastActivity := some now }

def scheduledStop (runtime : Runtime) (server : Server) : Handler Unit := do
  if server.containerId.isSome ∧ server.status = .running then
    if ← Spawner.delete runtime server.containerId then
      stopAndSettle server.id fun now s =>
        { s with containerId := none, status := .stopped, stoppedAt := some now,
                 stopReason := some "scheduled_stop" }

def scheduledRestart (runtime : Runtime) (server : Server) : Handler Unit := do
  if server.containerId.isSome ∧ server.status = .running then
    let now ← utcNow
    if gpuRequiresRecreate (← get) server none then
      let new ← respawnServerContainer runtime server server.name
      modifyServer server.id fun s =>
        { s with containerId := new.containerId, volumeId := new.volumeId, startedAt := some now,
                 lastActivity := some now }
    else if runtime.stops then
      if runtime.starts then
        modifyServer server.id fun s => { s with startedAt := some now, lastActivity := some now }

/-- The restart of a server whose health checks keep failing. A container that is
stopped and started again leaves no trace on the row. -/
def autoRestart (allowed : Bool) (runtime : Runtime) (server : Server) : Handler Unit := do
  if allowed ∧ server.containerId.isSome ∧ gpuRequiresRecreate (← get) server none then
    logged do
      let new ← respawnServerContainer runtime server server.name
      modifyServer server.id fun s => { s with containerId := new.containerId, volumeId := new.volumeId }

end NukeLab.Lifecycle
