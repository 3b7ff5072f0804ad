import NukeLab.Lifecycle

namespace NukeLab.Creation

open Records State Ledger GpuAllocator Quota DockerNames Spawner Lifecycle

/-- A mount asked for; one without a volume has a volume made for it. -/
structure MountRequest where
  volumeId : Option Uuid
  mountPath : String
  mode : String
  maxSizeBytes : Option Int
  deriving DecidableEq

structure CreateRequest where
  name : String
  planId : Uuid
  environmentId : Uuid
  volumeId : Option Uuid
  volumeMode : Option String
  volumeMounts : List MountRequest
  deriving DecidableEq

/-- How making one volume breaks off: the driver refuses, the driver fails, the
record is not committed, or it is and cannot be read back. -/
inductive VolumeFault
  | driverError
  | driverFailure
  | commit
  | refresh
  deriving DecidableEq

/-- What the services a creation asks answer for this request, and how the
volumes it makes, numbered by their mounts, break off. -/
structure CreateAnswers where
  canUsePlan : Bool
  canUseEnvironment : Bool
  accessRefusal : Option String
  volumesRefusal : Option String
  volumeFault : Nat → Option VolumeFault

inductive CreateReply
  | created (serverId : Uuid)
  | queued (queueId : Uuid)
  deriving DecidableEq

def orText (text fallback : String) : String := if text = "" then fallback else text

def sizeOr (size : Option Int) (fallback : Int) : Int :=
  match size with
  | some n => if n = 0 then fallback else n
  | none => fallback

def planDiskBytes (plan : ServerPlan) : Int := plan.diskLimit * mebibyte

/-- The mounts a request comes down to: its list, or the one volume of the older
form, or a home volume made for the server. -/
def requestedMounts (request : CreateRequest) (username : String) : List MountRequest :=
  if request.volumeMounts ≠ [] then request.volumeMounts
  else
    match request.volumeId with
    | some volumeId => [⟨some volumeId, "/home/" ++ username, (request.volumeMode.map (orText · "read_write")).getD "read_write", none⟩]
    | none => [⟨none, "/home/" ++ username, "read_write", none⟩]

def newVolumeBytes (mounts : List MountRequest) (plan : ServerPlan) : Int :=
  ((mounts.filter fun m => m.volumeId.isNone).map fun m => sizeOr m.maxSizeBytes (planDiskBytes plan)).sum

def autoVolumeName (userId : Uuid) (serverName : String) (idx : Nat) : String :=
  dataVolumeName userId serverName (if idx = 0 then "data" else "data-" ++ toString idx)

def mountFor (mount : MountRequest) (idx : Nat) (volumeId : Uuid) : VolumeMount where
  volumeId := volumeId
  mountPath := orText mount.mountPath "/data"
  mode := orText mount.mode "read_write"
  isPrimary := idx = 0

def maxVolumeNameLength : Nat := 255

def validVolumeName (name : String) : Bool :=
  name.length ≤ maxVolumeNameLength &&
    match name.toList with
    | [] => false
    | c :: cs => c.isAlphanum && cs.all fun c => c.isAlphanum || isSeparator c

def createVolume (fault : Option VolumeFault) (message name : String) (ownerId : Uuid) (maxSizeBytes : Int) :
    Handler Uuid := do
  if ¬ validVolumeName name then throw (.http 400 ("Invalid Docker volume name: '" ++ name ++ "'"))
  if fault = some .driverError then throw (.http 400 ("Failed to create Docker volume: " ++ message))
  if fault = some .driverFailure then throw (.exception message)
  ensureVolumes [name]
  -- The name column is unique.
  if ((← get).volumes.any fun v => v.name = name) ∨ fault = some .commit then throw (.exception message)
  let id ← newUuid
  modify fun w =>
    { w with volumes := w.volumes ++ [{ id := id, name := name, ownerId := ownerId, maxSizeBytes := some maxSizeBytes }] }
  if fault = some .refresh then throw (.exception message)
  return id

/-- How a creation breaks off: with what error, with the names of which volumes begun, and whether the rollback has
expired the rows that were read, the user's among them. -/
structure Broken where
  raise : Raise
  listed : List String
  expired : Bool

abbrev Creating (α : Type) := EStateM Broken World α

def listing {α : Type} (listed : List String) (expired : Bool) (h : Handler α) : Creating α := fun w =>
  match h.run w with
  | .ok a w' => .ok a w'
  | .error raise w' => .error ⟨raise, listed, expired⟩ w'

theorem listing_run {α : Type} (listed : List String) (expired : Bool) (h : Handler α) (v : World) :
    (listing listed expired h).run v =
      match h.run v with
      | .ok a t => .ok a t
      | .error raise t => .error ⟨raise, listed, expired⟩ t :=
  rfl

@[simp] theorem final_listing {α : Type} (listed : List String) (expired : Bool) (h : Handler α) (v : World) :
    Program.final (listing listed expired h) v = Program.final h v := by
  rw [Program.final, Program.final, listing_run]
  cases h.run v <;> rfl

theorem final_listing_bind {α β : Type} {listed : List String} {expired : Bool} {h : Handler α} {f : α → Creating β}
    {g : α → Handler β} (hfg : ∀ a v, Program.final (f a) v = Program.final (g a) v) (v : World) :
    Program.final (listing listed expired h >>= f) v = Program.final (h >>= g) v := by
  rw [Program.final, Program.final, EStateM.run_bind, EStateM.run_bind, listing_run]
  cases h.run v with
  | ok a t => exact hfg a t
  | error raise t => rfl

/-- A volume's name is listed before the volume is made. -/
def prepareMounts (answers : CreateAnswers) (message : String) (userId : Uuid) (serverName : String)
    (plan : ServerPlan) : List (MountRequest × Nat) → List String → Creating (List VolumeMount)
  | [], _ => pure []
  | (mount, idx) :: rest, listed =>
    match mount.volumeId with
    | some volumeId => do
      let mounts ← prepareMounts answers message userId serverName plan rest listed
      return mountFor mount idx volumeId :: mounts
    | none => do
      let name := autoVolumeName userId serverName idx
      let volumeId ← listing (listed ++ [name]) true
        (createVolume (answers.volumeFault idx) message name userId
          (sizeOr mount.maxSizeBytes (planDiskBytes plan)))
      let mounts ← prepareMounts answers message userId serverName plan rest (listed ++ [name])
      return mountFor mount idx volumeId :: mounts

def autoVolumeNames (userId : Uuid) (serverName : String) (mounts : List (MountRequest × Nat)) : List String :=
  (mounts.filter fun m => m.1.volumeId.isNone).map fun m => autoVolumeName userId serverName m.2

def namesakes (w : World) (userId : Uuid) (name : String) (exclude : Option Uuid) : List Server :=
  w.servers.rows.filter fun s => s.userId = userId ∧ s.name = name ∧ some s.id ≠ exclude

/-- The name is looked up as if it were unique. -/
def nameRefusal (w : World) (userId : Uuid) (name : String) (exclude : Option Uuid) : Option Raise :=
  match namesakes w userId name exclude with
  | [] => none
  | [_] => some (.http 409 ("A server named '" ++ name ++ "' already exists"))
  | _ => some (.exception "Multiple rows were found when one or none was required")

/-- A creation is refused before anything is looked at twice. -/
def createRefusal (w : World) (answers : CreateAnswers) (userId : Uuid) (request : CreateRequest) :
    Except Raise ServerPlan :=
  match nameRefusal w userId request.name none with
  | some raise => .error raise
  | none =>
    match w.plans request.planId with
    | none => .error (.http 404 "Plan not found")
    | some plan =>
      if ¬ answers.canUsePlan then .error (.http 403 "Plan not available for your role")
      else if ¬ plan.isActive then .error (.http 400 "Plan is not active")
      else if (w.environments request.environmentId).isNone then .error (.http 404 "Environment not found")
      else if ¬ answers.canUseEnvironment then .error (.http 403 "Environment not available")
      else .ok plan

def admissionRefusal (w : World) (refusal : Option SpawnRefusal) (userId : Uuid) (plan : ServerPlan) : Option Raise :=
  match refusal with
  | some refusal => some (.http 429 refusal.reason)
  | none =>
    if w.settings.creditsEnabled ∧ balance w userId < plan.costPerHour then
      some (.http 402 ("Insufficient NUKE credits. Required: " ++ toString plan.costPerHour ++ " for 1 hour"))
    else none

def mountsRefusal (answers : CreateAnswers) : Option Raise :=
  match answers.accessRefusal, answers.volumesRefusal with
  | some detail, _ => some (.http 403 detail)
  | none, some reason => some (.http 400 reason)
  | none, none => none

def checkMounts (answers : CreateAnswers) : Handler Unit :=
  match mountsRefusal answers with
  | some raise => throw raise
  | none => pure ()

def spawnRequestOf (userId : Uuid) (user : User) (request : CreateRequest) (plan : ServerPlan) (mounts : List VolumeMount)
    (serverId : Uuid) (devices : Option (List Device)) : SpawnRequest :=
  { userId := userId, username := user.username, serverName := request.name,
    environmentId := some request.environmentId, cpu := plan.cpuLimit, memory := plan.memoryLimit,
    disk := plan.diskLimit, gpu := plan.gpuLimit, gpuDevices := devices.getD [], volumeMounts := mounts,
    serverId := serverId }

/-- The steps once every volume is there: the last checks, the devices, the spawn. -/
def spawnPrepared (answers : CreateAnswers) (runtime : Runtime) (commits : Commits) (userId : Uuid) (user : User)
    (request : CreateRequest) (plan : ServerPlan) (listed : List String) (mounts : List VolumeMount) :
    Creating CreateReply := do
  listing listed true (checkMounts answers)
  let serverId ← listing listed true newUuid
  let devices ← listing listed true (ensureGpuDevices serverId plan.gpuLimit)
  let spawned := spawnRequestOf userId user request plan mounts serverId devices
  -- The release of the devices has been committed, and nothing is left for the rollback.
  let new ← listing listed false (spawnNew runtime spawned)
  let server ← listing listed true (recordSpawned commits new spawned request.planId user)
  return .created server.id

theorem final_spawnPrepared (answers : CreateAnswers) (runtime : Runtime) (commits : Commits) (userId : Uuid) (user : User)
    (request : CreateRequest) (plan : ServerPlan) (listed : List String) (mounts : List VolumeMount) (v : World) :
    Program.final (spawnPrepared answers runtime commits userId user request plan listed mounts) v =
      Program.final (do
        checkMounts answers
        let serverId ← newUuid
        let devices ← ensureGpuDevices serverId plan.gpuLimit
        let server ← provision runtime commits (spawnRequestOf userId user request plan mounts serverId devices)
          request.planId user
        return .created server.id : Handler CreateReply) v := by
  refine final_listing_bind (fun _ v => final_listing_bind (fun serverId v => final_listing_bind (fun devices v => ?_) v) v) v
  simp only [provision, bind_assoc]
  exact final_listing_bind (fun new v => final_listing_bind (fun server v => rfl) v) v

/-- The disk quota is asked once for all the volumes to be made. -/
def checkNewVolumes (userId : Uuid) (newBytes : Int) : Handler Unit := do
  if newBytes ≠ 0 then
    if let some refusal := ← checkVolumeCreationAllowed userId newBytes then
      throw (.http 429 refusal.reason)

def createNow (answers : CreateAnswers) (runtime : Runtime) (commits : Commits) (userId : Uuid) (user : User)
    (request : CreateRequest) (plan : ServerPlan) : Creating CreateReply := do
  let requested := requestedMounts request user.username
  listing [] true (checkNewVolumes userId (newVolumeBytes requested plan))
  let mounts ← prepareMounts answers runtime.message userId request.name plan requested.zipIdx []
  spawnPrepared answers runtime commits userId user request plan (autoVolumeNames userId request.name requested.zipIdx)
    mounts

def cleanUp (listed : List String) (container : Option String) : Handler Unit :=
  modify fun w =>
    { w with
      dockerVolumes := w.dockerVolumes.filter fun n => n ∉ listed
      volumes := w.volumes.filter fun v => v.name ∉ listed
      containers := w.containers.filter fun c => some c.name ≠ container }

/-- An HTTP error passes through uncleaned. The container's name is made from the user's id, and reading that of an
expired row raises, which is let pass. -/
def cleaningUp {α : Type} (container : String) (body : Creating α) : Handler α := fun w =>
  match body.run w with
  | .ok a w' => .ok a w'
  | .error ⟨.http status detail, _, _⟩ w' => .error (.http status detail) w'
  | .error ⟨.exception _, listed, expired⟩ w' =>
    .error (.http 500 "Failed to create server. Please try again or contact support.")
      (Program.final (cleanUp listed (if expired then none else some container)) w')

theorem cleaningUp_run {α : Type} (body : Creating α) (container : String) (v : World) :
    (cleaningUp container body).run v =
      match body.run v with
      | .ok a t => .ok a t
      | .error ⟨.http status detail, _, _⟩ t => .error (.http status detail) t
      | .error ⟨.exception _, listed, expired⟩ t =>
        .error (.http 500 "Failed to create server. Please try again or contact support.")
          (Program.final (cleanUp listed (if expired then none else some container)) t) :=
  rfl

def enqueue (commits : Commits) (userId : Uuid) (request : CreateRequest) (plan : ServerPlan) : Handler CreateReply := do
  let queueId ← newUuid
  commit commits.queueEntry commits.message fun w =>
    { w with
      queue := w.queue ++
        [{ id := queueId, userId := userId, environmentId := request.environmentId, planId := request.planId,
           status := .pending, priority := plan.priority, serverName := request.name,
           requestedCpu := plan.cpuLimit, requestedMemory := plan.memoryLimit, requestedDisk := plan.diskLimit,
           requestedAt := w.now, startedAt := none, errorMessage := none, retryCount := 0 }] }
  return .queued queueId

def createServer (answers : CreateAnswers) (runtime : Runtime) (commits : Commits) (userId : Uuid) (user : User)
    (request : CreateRequest) : Handler CreateReply := do
  match createRefusal (← get) answers userId request with
  | .error raise => throw raise
  | .ok plan =>
    let refusal ← checkSpawnAllowed userId request.planId none
    let w ← get
    match admissionRefusal w refusal userId plan with
    | some raise => throw raise
    | none =>
      if canFit w request.planId then
        cleaningUp (containerName userId request.name) (createNow answers runtime commits userId user request plan)
      else enqueue commits userId request plan

def oneUserWorld : World :=
  { blankWorld with
    users := fun u => if u = 1 then some (newUser "ada") else none
    plans := fun p => if p = 7 then some (newPlan "small" 5) else none
    environments := fun e => if e = 3 then some ⟨"jupyter", "jupyter:latest", none⟩ else none }

/-- A request for a server of that name there, with a home volume to be made. -/
def named (name : String) : CreateRequest where
  name := name
  planId := 7
  environmentId := 3
  volumeId := none
  volumeMode := none
  volumeMounts := []

def willing : CreateAnswers where
  canUsePlan := true
  canUseEnvironment := true
  accessRefusal := none
  volumesRefusal := none
  volumeFault := fun _ => none

end NukeLab.Creation
