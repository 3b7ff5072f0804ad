import NukeLab.Creation

namespace NukeLab.ServerUpdate

open Records State GpuAllocator Quota DockerNames Spawner Lifecycle Creation

structure UpdateRequest where
  name : Option String
  planId : Option Uuid
  environmentId : Option Uuid
  volumeMounts : Option (List MountRequest)
  deriving DecidableEq

/-- What the services an update asks answer for this request. Mounts are told by their positions. -/
structure UpdateAnswers where
  accessRefusal : Option Raise
  canUsePlan : Bool
  canUseEnvironment : Bool
  mountRefusal : Nat → Option String
  volumesRefusal : Option String
  volumeFault : Nat → Option VolumeFault
  /-- the volume does not have the mark of a home volume yet -/
  marksHome : Nat → Bool

/-- Which of the last commits of an update succeed, and how the others fail. -/
structure UpdateCommits where
  saved : Bool
  started : Bool
  recorded : Bool
  message : String
  deriving DecidableEq

def UpdateCommits.succeed : UpdateCommits := ⟨true, true, true, ""⟩

/-- What the session has assigned to the row is written by the next commit, whoever makes it. -/
def commitRow (draft : Server) : Handler Unit := modifyServer draft.id fun s => { draft with id := s.id }

def commitMounts (serverId : Uuid) (mounts : List ServerVolume) : Handler Unit :=
  modify fun w => { w with serverVolumes := (w.serverVolumes.filter fun m => m.serverId ≠ serverId) ++ mounts }

def recreates (body : UpdateRequest) : Bool :=
  body.planId.isSome || body.environmentId.isSome || body.volumeMounts.isSome

def applyName (body : UpdateRequest) (server : Server) : Handler Server := do
  match body.name with
  | none => return server
  | some name =>
    match nameRefusal (← get) server.userId name (some server.id) with
    | some raise => throw raise
    | none => return { server with name := name }

/-- The server's devices are freed before the new number is reserved. -/
def reserveForPlan (draft : Server) (plan : ServerPlan) : Handler Unit := do
  if enabled (← get).settings ∧ plan.gpuLimit ≠ draft.allocatedGpu then
    release draft.id
    if plan.gpuLimit > 0 ∧ draft.status.active then
      match ← allocate draft.id plan.gpuLimit with
      | some _ => return
      | none =>
        if draft.allocatedGpu > 0 then
          let _ ← allocate draft.id draft.allocatedGpu
        throw (.http 429 "No GPUs available on the host for the new plan (all devices are in use)")

def withPlan (planId : Uuid) (plan : ServerPlan) (s : Server) : Server :=
  { s with planId := some planId, allocatedCpu := plan.cpuLimit, allocatedMemory := plan.memoryLimit,
           allocatedDisk := plan.diskLimit, allocatedGpu := plan.gpuLimit }

def applyPlan (answers : UpdateAnswers) (actorId : Uuid) (body : UpdateRequest) (draft : Server) : Handler Server := do
  match body.planId with
  | none => return draft
  | some planId =>
    match (← get).plans planId with
    | none => throw (.http 404 "Plan not found")
    | some plan =>
      if ¬ answers.canUsePlan then throw (.http 403 "Plan not available for your role")
      if ¬ plan.isActive then throw (.http 400 "Plan is not active")
      let refusal ← checkSpawnAllowed actorId planId (some draft.id)
      -- The recalculation of the usage has committed the session.
      commitRow draft
      match refusal with
      | some refusal => throw (.http 429 refusal.reason)
      | none =>
        reserveForPlan draft plan
        return withPlan planId plan draft

def applyEnvironment (answers : UpdateAnswers) (body : UpdateRequest) (draft : Server) : Handler Server := do
  match body.environmentId with
  | none => return draft
  | some environmentId =>
    if ((← get).environments environmentId).isNone then throw (.http 404 "Environment not found")
    if ¬ answers.canUseEnvironment then throw (.http 403 "Environment not available")
    return { draft with environmentId := some environmentId }

def diskLimit (w : World) (server : Server) : Int := ((planOf w server).map ServerPlan.diskLimit).getD server.allocatedDisk

/-- A quota row that has to be made on the way is committed with the session. -/
def checkNewVolumes (actorId : Uuid) (draft : Server) (newBytes : Int) : Handler Unit := do
  if newBytes ≠ 0 then
    if ((← get).quotas actorId).isNone then commitRow draft
    if let some refusal := ← checkVolumeCreationAllowed actorId newBytes then
      throw (.http 429 refusal.reason)

/-- The commit of the volume's record is the session's. -/
def createMountVolume (fault : Option VolumeFault) (message : String) (actorId : Uuid) (draft : Server) (idx : Nat)
    (maxSizeBytes : Int) : Handler Uuid := do
  let id ← createVolume (if fault = some .refresh then none else fault) message (autoVolumeName actorId draft.name idx)
    actorId maxSizeBytes
  commitRow draft
  if fault = some .refresh then throw (.exception message)
  return id

def prepareMounts (answers : UpdateAnswers) (message : String) (actorId : Uuid) (draft : Server) (limitBytes : Int) :
    List (MountRequest × Nat) → Handler (List VolumeMount)
  | [] => return []
  | (mount, idx) :: rest => do
    let volumeId ← match mount.volumeId with
      | some volumeId =>
        match answers.mountRefusal idx with
        | some detail => throw (.http 403 detail)
        | none => pure volumeId
      | none =>
        createMountVolume (answers.volumeFault idx) message actorId draft idx (sizeOr mount.maxSizeBytes limitBytes)
    let mounts ← prepareMounts answers message actorId draft limitBytes rest
    return mountFor mount idx volumeId :: mounts

/-- The new mounts of a request that has any, the first of them the primary one. -/
def applyMounts (answers : UpdateAnswers) (message : String) (actorId : Uuid) (body : UpdateRequest) (draft : Server) :
    Handler (Option (List VolumeMount)) := do
  match body.volumeMounts with
  | none => return none
  | some requested =>
    let limitBytes := diskLimit (← get) draft * mebibyte
    checkNewVolumes actorId draft
      ((requested.filter fun m => m.volumeId.isNone).map fun m => sizeOr m.maxSizeBytes limitBytes).sum
    let mounts ← prepareMounts answers message actorId draft limitBytes requested.zipIdx
    if mounts ≠ [] then
      if let some reason := answers.volumesRefusal then throw (.http 400 reason)
    return some mounts

def stopContainer (runtime : Runtime) (body : UpdateRequest) (draft : Server) : Handler Server := do
  if recreates body ∧ draft.containerId.isSome then
    if ¬ (← Spawner.delete runtime draft.containerId) then
      throw (.http 503 "Failed to stop the server container for update. Please try again.")
    let now ← utcNow
    return { draft with containerId := none, status := .stopped, stoppedAt := some now }
  return draft

def mountRow (serverId : Uuid) (mount : VolumeMount) : ServerVolume where
  serverId := serverId
  volumeId := mount.volumeId
  mountPath := mount.mountPath
  mode := mount.mode
  isPrimary := mount.isPrimary

/-- The rows of the new mounts, one a volume. Marking a home volume commits the
session with the rows so far. -/
def saveMounts (answers : UpdateAnswers) (message home : String) (draft : Server) :
    List (VolumeMount × Nat) → List ServerVolume → Handler (List ServerVolume)
  | [], rows => return rows
  | (mount, idx) :: rest, rows => do
    if rows.any fun r => r.volumeId = mount.volumeId then throw (.exception message)
    let rows := rows ++ [mountRow draft.id mount]
    if mount.mountPath = home ∧ answers.marksHome idx then
      commitRow draft
      commitMounts draft.id rows
    saveMounts answers message home draft rest rows

/-- The row and its mounts are saved, and the volume of the first mount with them. -/
def saveUpdate (answers : UpdateAnswers) (commits : UpdateCommits) (actorName : String) (mounts : Option (List VolumeMount))
    (draft : Server) : Handler Server := do
  match mounts with
  | none =>
    if ¬ commits.saved then throw (.exception commits.message)
    commitRow draft
    return draft
  | some mounts =>
    let home := "/home/" ++ ownerName (← get) draft actorName
    let rows ← saveMounts answers commits.message home draft mounts.zipIdx []
    let draft := { draft with volumeId := (primaryVolume mounts).or draft.volumeId }
    if ¬ commits.saved then throw (.exception commits.message)
    commitRow draft
    commitMounts draft.id rows
    return draft

def respawnedFields (new : Server) (now : Instant) (s : Server) : Server :=
  { s with containerId := new.containerId, volumeId := new.volumeId, status := .running, startedAt := some now,
           lastActivity := some now, stopReason := none, stoppedAt := none }

def brokenFields (s : Server) : Server :=
  { s with
    status := .stopped
    statusReason := some ("Failed to recreate container with new configuration. " ++
      "Please try starting the server again.") }

/-- A server without a container is spawned again. That it could not be is
recorded on the row. -/
def respawnUpdated (runtime : Runtime) (commits : UpdateCommits) (actorName : String) (draft : Server) :
    Handler Server := do
  let w ← get
  let plan := planOf w draft
  let devices ← ensureGpuDevices draft.id (serverGpuCount draft plan)
  match ← attempt (spawn runtime (spawnRequestFor w draft plan (ownerName w draft actorName) devices)) with
  | .ok new =>
    -- After a failed commit the session takes no statement, the recording's neither.
    if ¬ commits.started then throw (.exception commits.message)
    let now ← utcNow
    commitRow (respawnedFields new now draft)
    return respawnedFields new now draft
  | .error _ =>
    if ¬ commits.recorded then throw (.exception commits.message)
    commitRow (brokenFields draft)
    release draft.id
    throw (.http 500 "Failed to apply configuration changes. Please try again or contact support.")

def applyUpdate (answers : UpdateAnswers) (runtime : Runtime) (commits : UpdateCommits) (actorId : Uuid) (actorName : String)
    (body : UpdateRequest) (draft : Server) : Handler Server := do
  let draft ← applyPlan answers actorId body draft
  let draft ← applyEnvironment answers body draft
  let mounts ← applyMounts answers runtime.message actorId body draft
  let draft ← stopContainer runtime body draft
  let draft ← saveUpdate answers commits actorName mounts draft
  if recreates body ∧ draft.containerId = none then respawnUpdated runtime commits actorName draft
  else return draft

def updateServer (answers : UpdateAnswers) (runtime : Runtime) (commits : UpdateCommits) (actorId : Uuid)
    (actorName : String) (serverId : Uuid) (body : UpdateRequest) : Handler Server := do
  match ← findServer serverId with
  | none => throw (.http 404 "Server not found")
  | some server =>
    match answers.accessRefusal with
    | some raise => throw raise
    | none =>
      let draft ← applyName body server
      applyUpdate answers runtime commits actorId actorName body draft

end NukeLab.ServerUpdate
