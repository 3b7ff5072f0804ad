import NukeLab.DockerNames

namespace NukeLab.Spawner

open Records State DockerNames

structure VolumeMount where
  volumeId : Uuid
  mountPath : String
  mode : String
  isPrimary : Bool
  deriving DecidableEq

structure SpawnRequest where
  userId : Uuid
  username : String
  serverName : String
  environmentId : Option Uuid
  cpu : ℚ
  memory : Int
  disk : Int
  gpu : Int
  gpuDevices : List Device
  volumeMounts : List VolumeMount
  serverId : Uuid

def removeContainer (id : Option Uuid) : Handler Unit :=
  modify fun w => { w with containers := w.containers.filter fun c => some c.id ≠ id }

def removeNamed (name : String) : Handler Unit :=
  modify fun w => { w with containers := w.containers.filter fun c => c.name ≠ name }

/-- False when the runtime failed and the container may still be there. -/
def delete (runtime : Runtime) (containerId : Option Uuid) : Handler Bool := do
  if runtime.deletes then removeContainer containerId
  return runtime.deletes

def ensureVolumes (names : List String) : Handler Unit :=
  modify fun w => { w with dockerVolumes := w.dockerVolumes ++ names.filter fun n => n ∉ w.dockerVolumes }

def mountedVolumeName (volumes : List Volume) (volumeId : Uuid) : String :=
  match volumes.find? fun v => v.id = volumeId with
  | some volume => volume.name
  | none => "nukelab-vol-" ++ String.ofList ((uuidText volumeId).toList.take 8)

def mountedVolumeNames (w : World) (request : SpawnRequest) : List String :=
  if request.volumeMounts = [] then [dataVolumeName request.userId request.serverName "data"]
  else request.volumeMounts.map fun mount => mountedVolumeName w.volumes mount.volumeId

def primaryVolume (mounts : List VolumeMount) : Option Uuid :=
  ((mounts.find? fun m => m.isPrimary).or mounts.head?).map VolumeMount.volumeId

/-- The record handed back for a new container; the caller saves it. -/
def serverRecord (request : SpawnRequest) (containerId : Uuid) (now : Instant) : Server where
  id := request.serverId
  name := request.serverName
  userId := request.userId
  environmentId := request.environmentId
  planId := none
  containerId := some containerId
  volumeId := primaryVolume request.volumeMounts
  status := .running
  allocatedCpu := request.cpu
  allocatedMemory := request.memory
  allocatedDisk := request.disk
  allocatedGpu := request.gpu
  stopReason := none
  totalCost := 0
  lastBilledAt := none
  expiresAt := none
  startedAt := some now
  stoppedAt := none
  lastActivity := none

/-- Replaces whatever container has the server's name, and hands back the
record of the new one. A broken-off creation removes what it made. -/
def spawn (runtime : Runtime) (request : SpawnRequest) : Handler Server := do
  let w ← get
  if request.gpu > 0 ∧ ¬ w.settings.gpuEnabled then
    throw (.exception ("GPU requested but GPU support is disabled. " ++
      "Set GPU_ENABLED=true on the backend to enable NVIDIA GPU support."))
  if runtime.spawnFault = some .beforeWork then throw (.exception runtime.message)
  let name := containerName request.userId request.serverName
  removeNamed name
  let volumes := mountedVolumeNames w request
  match runtime.spawnFault with
  | some (.ensuringVolumes ensured) =>
    ensureVolumes (volumes.take ensured)
    throw (.exception runtime.message)
  | some .creatingContainer =>
    ensureVolumes (volumes ++ runtime.toolchainVolume.toList)
    removeNamed name
    throw (.exception ("Failed to spawn server: " ++ runtime.message))
  | _ =>
    ensureVolumes (volumes ++ runtime.toolchainVolume.toList)
    let containerId ← newUuid
    modify fun w =>
      { w with
        containers := w.containers ++
          [{ id := containerId, name := name, serverId := request.serverId, devices := request.gpuDevices,
             volumes := volumes ++ runtime.toolchainVolume.toList }] }
    return serverRecord request containerId w.now

end NukeLab.Spawner
