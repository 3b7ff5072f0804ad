import NukeLab.CreationAtomicity
import NukeLab.ServerUpdate

namespace NukeLab.UpdateBreaks

open Program Tables Records State GpuAllocator Quota DockerNames Spawner Lifecycle Launches Creation ServerUpdate
open CreationAtomicity hiding Untouched IdsBelow Break Clean mountNames breakOf volumesBreak spawnBreak bodyBreak

/-- The server's row, its mounts and its device rows are as before. -/
structure Unchanged (serverId : Uuid) (w t : World) : Prop where
  row : t.servers.find serverId = w.servers.find serverId
  mounts : ∀ m : ServerVolume, m.serverId = serverId → (m ∈ t.serverVolumes ↔ m ∈ w.serverVolumes)
  gpuAllocations : ∀ r : GpuAllocation, r.serverId = serverId → (r ∈ t.gpuAllocations ↔ r ∈ w.gpuAllocations)

/-- Identifiers are drawn from a supply no one has seen. -/
structure IdsBelow (w : World) (body : UpdateRequest) : Prop where
  mounts : ∀ m ∈ w.serverVolumes, m.volumeId < w.nextUuid
  gpuAllocations : ∀ r ∈ w.gpuAllocations, r.id < w.nextUuid
  requested : ∀ mounts ∈ body.volumeMounts, ∀ m ∈ mounts, ∀ id ∈ m.volumeId, id < w.nextUuid

def NamesMade (w : World) (body : UpdateRequest) : Prop :=
  ∀ mounts ∈ body.volumeMounts, ∀ m ∈ mounts, ∀ id ∈ m.volumeId, id < w.nextUuid

instance (w : World) (body : UpdateRequest) : Decidable (NamesMade w body) :=
  inferInstanceAs (Decidable (∀ mounts ∈ body.volumeMounts, _))

/-- Where an update that raises breaks off. -/
inductive Break
  /-- before anything is committed -/
  | early
  /-- refused by the usage check -/
  | checked
  /-- with too few devices for the new plan -/
  | short
  /-- after the plan, with the row committed or not -/
  | configured (committed : Bool)
  /-- while the mounts are saved, with so many of them committed -/
  | mounted (count : Nat)
  /-- once everything is saved, with devices reserved for the respawn or not -/
  | saved (reserved : Bool)
  /-- by the respawn, which is recorded -/
  | broken
  deriving DecidableEq

section Drafts

variable (w : World) (body : UpdateRequest) (s : Server)

def named : Server :=
  match body.name with
  | some name => { s with name := name }
  | none => s

def requestedPlan : Option ServerPlan := body.planId.bind w.plans

def planned : Server :=
  match body.planId, requestedPlan w body with
  | some planId, some plan => withPlan planId plan s
  | _, _ => s

def placed : Server :=
  match body.environmentId with
  | some environmentId => { s with environmentId := some environmentId }
  | none => s

def configuredRow : Server := placed body (planned w body (named body s))

/-- The same, its container gone if the request takes another one. -/
def emptiedRow : Server :=
  let s := configuredRow w body s
  if recreates body ∧ s.containerId.isSome then
    { s with containerId := none, status := .stopped, stoppedAt := some w.now }
  else s

def savedRow : Server :=
  let s := emptiedRow w body s
  { s with volumeId := (body.volumeMounts.bind fun mounts => mounts.head?.bind MountRequest.volumeId).or s.volumeId }

def reaped : World :=
  { w with
    gpuAllocations :=
      if enabled w.settings then w.gpuAllocations.filter fun row => ¬ stale w.now w.servers.find row
      else w.gpuAllocations }

def freed (serverId : Uuid) : World := { w with gpuAllocations := withoutServer w.gpuAllocations serverId }

def changesDevices (plan : ServerPlan) : Bool := enabled w.settings && decide (plan.gpuLimit ≠ s.allocatedGpu)

def takesDevices (plan : ServerPlan) : Bool := decide (plan.gpuLimit > 0) && s.status.active

def plannedDevices : List GpuAllocation :=
  match requestedPlan w body with
  | none => w.gpuAllocations
  | some plan =>
    if ¬ changesDevices w s plan then (reaped w).gpuAllocations
    else if takesDevices s plan then (allocated (freed (reaped w) s.id) s.id plan.gpuLimit).gpuAllocations
    else (freed (reaped w) s.id).gpuAllocations

end Drafts

section Breaks

variable (answers : UpdateAnswers) (runtime : Runtime) (commits : UpdateCommits) (actorId : Uuid) (actorName : String)
  (body : UpdateRequest) (w : World) (server : Server)

def planBreak : Option Break :=
  match body.planId with
  | none => none
  | some planId =>
    match w.plans planId with
    | none => some .early
    | some plan =>
      let v := recalculatedWorld w actorId (some server.id)
      if ¬ answers.canUsePlan ∨ ¬ plan.isActive then some .early
      else if (spawnRefusal v (quotaOf v actorId) actorId planId (some server.id)).isSome then some .checked
      else if changesDevices w server plan ∧ takesDevices server plan ∧
          ¬ allocatable (freed (reaped w) server.id) plan.gpuLimit then some .short
      else none

def environmentBreak : Option Break :=
  match body.environmentId with
  | none => none
  | some environmentId =>
    if (w.environments environmentId).isNone ∨ ¬ answers.canUseEnvironment then some (.configured false) else none

/-- The row is committed with a quota row that is missing, unless the plan's check has made that. -/
def makesQuota : Bool := body.planId.isNone && (w.quotas actorId).isNone

def limitBytes : Int := diskLimit w (configuredRow w body server) * mebibyte

def newBytes (mounts : List MountRequest) : Int :=
  ((mounts.filter fun m => m.volumeId.isNone).map fun m => sizeOr m.maxSizeBytes (limitBytes body w server)).sum

/-- Whether making a volume breaks off, and then whether the row is committed by that. -/
def volumeBreak (fault : Option VolumeFault) (name : String) (taken : List String) (committed : Bool) : Option Bool :=
  if ¬ validVolumeName name ∨ name ∈ taken then some committed
  else
    match fault with
    | none => none
    | some .refresh => some true
    | some _ => some committed

def volumesBreak : List (MountRequest × Nat) → List String → Bool → Option Bool
  | [], _, _ => none
  | (mount, idx) :: rest, taken, committed =>
    match mount.volumeId with
    | some _ => if (answers.mountRefusal idx).isSome then some committed else volumesBreak rest taken committed
    | none =>
      let name := autoVolumeName actorId (named body server).name idx
      match volumeBreak (answers.volumeFault idx) name taken committed with
      | some committed => some committed
      | none => volumesBreak rest (taken ++ [name]) true

-- The equation is checked without evaluating the test of a name.
seal volumeBreak in
theorem volumesBreak_cons (mount : MountRequest) (idx : Nat) (rest : List (MountRequest × Nat)) (taken : List String)
    (committed : Bool) :
    volumesBreak answers actorId body server ((mount, idx) :: rest) taken committed =
      match mount.volumeId with
      | some _ =>
        if (answers.mountRefusal idx).isSome then some committed
        else volumesBreak answers actorId body server rest taken committed
      | none =>
        let name := autoVolumeName actorId (named body server).name idx
        match volumeBreak (answers.volumeFault idx) name taken committed with
        | some committed => some committed
        | none => volumesBreak answers actorId body server rest (taken ++ [name]) true := rfl

def committed (mounts : List MountRequest) : Bool :=
  (newBytes body w server mounts != 0 && makesQuota actorId body w) || mounts.any fun m => m.volumeId.isNone

def mountsBreak : Option Break :=
  match body.volumeMounts with
  | none => none
  | some mounts =>
    let made := newBytes body w server mounts != 0 && makesQuota actorId body w
    if newBytes body w server mounts ≠ 0 ∧
        (diskRefusal w (quotaOf w actorId) actorId (newBytes body w server mounts)).isSome then
      some (.configured made)
    else
      match volumesBreak answers actorId body server mounts.zipIdx (w.volumes.map Volume.name) made with
      | some committed => some (.configured committed)
      | none =>
        if mounts ≠ [] ∧ answers.volumesRefusal.isSome then some (.configured (committed actorId body w server mounts))
        else none

/-- How many of the mounts are committed before one names a volume again, or before the last commit. -/
def homed (home : String) : List (MountRequest × Nat) → List Uuid → Nat → Nat
  | [], _, count => count
  | (mount, idx) :: rest, seen, count =>
    let marked := orText mount.mountPath "/data" = home ∧ answers.marksHome idx
    match mount.volumeId with
    | some id => if id ∈ seen then count else homed home rest (seen ++ [id]) (if marked then idx + 1 else count)
    | none => homed home rest seen (if marked then idx + 1 else count)

def saveBreak : Option Break :=
  let requested := body.volumeMounts.getD []
  let home := "/home/" ++ ownerName w server actorName
  let count := homed answers home requested.zipIdx [] 0
  if recreates body ∧ server.containerId.isSome ∧ ¬ runtime.deletes then
    some (.configured (committed actorId body w server requested))
  else if (requested.filterMap MountRequest.volumeId).Nodup ∧ commits.saved then none
  else if count = 0 then some (.configured (committed actorId body w server requested))
  else some (.mounted count)

def lacksDevices (w : World) (serverId : Uuid) (count : Int) : Bool :=
  enabled w.settings && decide (count > 0) && (devicesOf w.gpuAllocations serverId).isEmpty

def respawnBreak : Option Break :=
  let s := configuredRow w body server
  let count := serverGpuCount s (planOf w s)
  let v := { w with gpuAllocations := plannedDevices w body server }
  let missing := lacksDevices v server.id count
  if ¬ recreates body then none
  else if missing ∧ ¬ allocatable v count then some (.saved false)
  else if (spawnFails runtime w count []).isSome then if commits.recorded then some .broken else some (.saved missing)
  else if commits.started then none
  else some (.saved missing)

/-- Where this update breaks off, told from the request, the world before and
what is answered meanwhile. -/
def breakOf (serverId : Uuid) : Option Break :=
  match w.servers.find serverId with
  | none => some .early
  | some server =>
    if answers.accessRefusal.isSome ∨
        (body.name.bind fun name => nameRefusal w server.userId name (some server.id)).isSome then some .early
    else
      (planBreak answers actorId body w server).or
        ((environmentBreak answers body w).or
          ((mountsBreak answers actorId body w server).or
            ((saveBreak answers runtime commits actorId actorName body w server).or
              (respawnBreak runtime commits body w server))))

end Breaks

/-- What the second world has of the first: everything but containers and volumes. -/
structure Beside (w t : World) : Prop where
  now : t.now = w.now := by rfl
  settings : t.settings = w.settings := by rfl
  plans : t.plans = w.plans := by rfl
  environments : t.environments = w.environments := by rfl
  users : t.users = w.users := by rfl
  servers : t.servers = w.servers := by rfl
  serverVolumes : t.serverVolumes = w.serverVolumes := by rfl
  gpuAllocations : t.gpuAllocations = w.gpuAllocations := by rfl
  nextUuid : w.nextUuid ≤ t.nextUuid := by first | exact Nat.le_refl _ | exact Nat.le_add_right _ _

instance : IsPreorder World Beside where
  refl _ := ⟨rfl, rfl, rfl, rfl, rfl, rfl, rfl, rfl, le_rfl⟩
  trans _ _ _ h h' :=
    ⟨h'.now.trans h.now, h'.settings.trans h.settings, h'.plans.trans h.plans, h'.environments.trans h.environments,
      h'.users.trans h.users, h'.servers.trans h.servers, h'.serverVolumes.trans h.serverVolumes,
      h'.gpuAllocations.trans h.gpuAllocations, h.nextUuid.trans h'.nextUuid⟩

structure Held (w : World) (serverId : Uuid) (row : Server) (mounts : Option (List ServerVolume))
    (devices : List GpuAllocation) (v : World) : Prop where
  now : v.now = w.now
  settings : v.settings = w.settings
  plans : v.plans = w.plans
  environments : v.environments = w.environments
  users : v.users = w.users
  found : v.servers.find serverId = some row
  mounts : ∀ m, m.serverId = serverId → (m ∈ v.serverVolumes ↔ m ∈ mounts.getD w.serverVolumes)
  devices : v.gpuAllocations = devices
  bound : w.nextUuid ≤ v.nextUuid

section Holding

variable {w v t : World} {serverId : Uuid} {row draft : Server} {mounts : Option (List ServerVolume)}
  {devices : List GpuAllocation}

theorem held_start (hfind : w.servers.find serverId = some row) : Held w serverId row none w.gpuAllocations w :=
  ⟨rfl, rfl, rfl, rfl, rfl, hfind, fun _ _ => Iff.rfl, rfl, le_rfl⟩

theorem Held.commitRow (h : Held w serverId row mounts devices v) (hid : draft.id = serverId) :
    Held w serverId draft mounts devices (final (commitRow draft) v) := by
  have hrow : row.id = serverId := Table.key_of_find h.found
  refine ⟨h.now, h.settings, h.plans, h.environments, h.users, ?_, h.mounts, h.devices, h.bound⟩
  subst hid
  have hfound := Table.find_modify_self (fun s => { draft with id := s.id }) (fun _ => rfl) h.found
  rw [hrow] at hfound
  exact hfound

theorem Held.commitMounts (h : Held w serverId row mounts devices v) (rows : List ServerVolume) :
    Held w serverId row (some rows) devices (final (commitMounts serverId rows) v) := by
  refine ⟨h.now, h.settings, h.plans, h.environments, h.users, h.found, fun m hm => ?_, h.devices, h.bound⟩
  simp [ServerUpdate.commitMounts, hm]

theorem Held.offBooks (h : Held w serverId row mounts devices v) (hbooks : OffBooks v t)
    (henvironments : t.environments = v.environments) (hmounts : t.serverVolumes = v.serverVolumes) :
    Held w serverId row mounts t.gpuAllocations t :=
  ⟨hbooks.now.trans h.now, hbooks.settings.trans h.settings, hbooks.plans.trans h.plans,
    henvironments.trans h.environments, hbooks.users.trans h.users, hbooks.servers ▸ h.found, hmounts ▸ h.mounts, rfl,
    h.bound.trans hbooks.nextUuid⟩

theorem Held.withDevices {serverId : Uuid} {row : Server} {mounts : Option (List ServerVolume)}
    {devices : List GpuAllocation} (h : Held w serverId row mounts devices v) (devices' : List GpuAllocation)
    {nextUuid : Uuid} (hbound : v.nextUuid ≤ nextUuid) :
    Held w serverId row mounts devices' { v with gpuAllocations := devices', nextUuid := nextUuid } :=
  ⟨h.now, h.settings, h.plans, h.environments, h.users, h.found, h.mounts, rfl, h.bound.trans hbound⟩

theorem Held.freed {serverId : Uuid} {row : Server} {mounts : Option (List ServerVolume)}
    {devices : List GpuAllocation} (h : Held w serverId row mounts devices v) :
    Held w serverId row mounts (withoutServer devices serverId) (freed v serverId) :=
  ⟨h.now, h.settings, h.plans, h.environments, h.users, h.found, h.mounts,
    congrArg (withoutServer · serverId) h.devices, h.bound⟩

theorem Held.beside {serverId : Uuid} {row : Server} {mounts : Option (List ServerVolume)}
    {devices : List GpuAllocation} (h : Held w serverId row mounts devices v) (hvt : Beside v t) :
    Held w serverId row mounts devices t :=
  ⟨hvt.now.trans h.now, hvt.settings.trans h.settings, hvt.plans.trans h.plans, hvt.environments.trans h.environments,
    hvt.users.trans h.users, hvt.servers ▸ h.found, hvt.serverVolumes ▸ h.mounts, hvt.gpuAllocations.trans h.devices,
    h.bound.trans hvt.nextUuid⟩

def SameMounts (serverId : Uuid) (w : World) (mounts : Option (List ServerVolume)) : Prop :=
  ∀ m, m.serverId = serverId → (m ∈ mounts.getD w.serverVolumes ↔ m ∈ w.serverVolumes)

def SameDevices (serverId : Uuid) (w : World) (devices : List GpuAllocation) : Prop :=
  ∀ r, r.serverId = serverId → (r ∈ devices ↔ r ∈ w.gpuAllocations)

theorem Held.unchanged_iff {server : Server} (hfind : w.servers.find serverId = some server)
    (h : Held w serverId row mounts devices t) :
    Unchanged serverId w t ↔ row = server ∧ SameMounts serverId w mounts ∧ SameDevices serverId w devices := by
  constructor
  · intro hsame
    refine ⟨Option.some.inj (h.found.symm.trans (hsame.row.trans hfind)), fun m hm => ?_, fun r hr => ?_⟩
    · rw [← h.mounts m hm, hsame.mounts m hm]
    · rw [← h.devices, hsame.gpuAllocations r hr]
  · rintro ⟨rfl, hmounts, hdevices⟩
    refine ⟨h.found.trans hfind.symm, fun m hm => ?_, fun r hr => ?_⟩
    · rw [h.mounts m hm, hmounts m hm]
    · rw [h.devices, hdevices r hr]

end Holding

section Devices

variable {w : World} {serverId : Uuid} {server : Server} {body : UpdateRequest}

def NoneStale (w : World) (serverId : Uuid) : Prop :=
  enabled w.settings → ∀ r ∈ w.gpuAllocations, r.serverId = serverId → stale w.now w.servers.find r = false

def Unreserved (w : World) (serverId : Uuid) : Prop := ∀ r ∈ w.gpuAllocations, r.serverId ≠ serverId

/-- The change of the plan leaves the server's device rows as they are. -/
def DevicesKept (w : World) (body : UpdateRequest) (server : Server) : Prop :=
  ∀ plan ∈ requestedPlan w body,
    if changesDevices w server plan then Unreserved w server.id ∧ takesDevices server plan = false
    else NoneStale w server.id

theorem sameDevices_reaped : SameDevices serverId w (reaped w).gpuAllocations ↔ NoneStale w serverId := by
  unfold SameDevices NoneStale reaped
  cases enabled w.settings with
  | false => simp
  | true =>
      simp only [if_true, List.mem_filter, decide_eq_true_eq, Bool.not_eq_true, and_iff_left_iff_imp, forall_const]
      exact ⟨fun h r hr hid => h r hid hr, fun h r hid hr => h r hr hid⟩

theorem sameDevices_without (rows : List GpuAllocation) :
    SameDevices serverId w (withoutServer rows serverId) ↔ Unreserved w serverId := by
  have hnone (r : GpuAllocation) (hid : r.serverId = serverId) : r ∉ withoutServer rows serverId := by
    simp [withoutServer, hid]
  exact ⟨fun h r hr hid => hnone r hid ((h r hid).mpr hr), fun h r hid => iff_of_false (hnone r hid) fun hr => h r hr hid⟩

theorem not_sameDevices_allocated (serverId : Uuid) {v : World} {count : Int} (hids : ∀ r ∈ w.gpuAllocations, r.id < w.nextUuid)
    (hbound : w.nextUuid ≤ v.nextUuid) (hcount : 0 < count) (hall : allocatable v count = true) :
    ¬ SameDevices serverId w (allocated v serverId count).gpuAllocations := by
  intro h
  have hlength : count ≤ (taken v count).length := by
    rw [allocatable, Bool.and_eq_true, decide_eq_true_eq] at hall
    exact hall.1
  have hlt : 0 < (taken v count).length := by omega
  have hnew : ({ id := v.nextUuid + 0, serverId := serverId, device := (taken v count)[0], createdAt := v.now } :
      GpuAllocation) ∈ newRows serverId v.nextUuid (taken v count) v.now := List.mem_mapIdx.mpr ⟨0, hlt, rfl⟩
  have hold := (h _ rfl).mp (List.mem_append_right v.gpuAllocations hnew)
  exact absurd (hids _ hold) (not_lt.mpr hbound)

theorem sameDevices_planned (hids : ∀ r ∈ w.gpuAllocations, r.id < w.nextUuid)
    (hall : ∀ plan ∈ requestedPlan w body, changesDevices w server plan = true → takesDevices server plan = true →
      allocatable (freed (reaped w) server.id) plan.gpuLimit = true) :
    SameDevices server.id w (plannedDevices w body server) ↔ DevicesKept w body server := by
  unfold plannedDevices DevicesKept
  cases hplan : requestedPlan w body with
  | none => exact iff_of_true (fun _ _ => Iff.rfl) nofun
  | some plan =>
      have hsome (P : ServerPlan → Prop) : (∀ p ∈ some plan, P p) ↔ P plan := by simp
      rw [hsome]
      dsimp only
      cases hchanges : changesDevices w server plan with
      | false => simpa using sameDevices_reaped
      | true =>
          cases htakes : takesDevices server plan with
          | false => simpa [freed] using sameDevices_without (reaped w).gpuAllocations
          | true =>
              have hcount : 0 < plan.gpuLimit := by
                rw [takesDevices, Bool.and_eq_true, decide_eq_true_eq] at htakes
                exact htakes.1
              have hnot := not_sameDevices_allocated server.id (v := freed (reaped w) server.id) hids le_rfl
                hcount (hall plan hplan hchanges htakes)
              simpa using hnot

end Devices

section Leavings

variable {w v t : World} {body : UpdateRequest} {server : Server}

def namedMount (serverId : Uuid) (mount : MountRequest × Nat) : Option ServerVolume :=
  mount.1.volumeId.map fun id => mountRow serverId (mountFor mount.1 mount.2 id)

def MountsKept (w : World) (serverId : Uuid) (requested : List (MountRequest × Nat)) : Prop :=
  (∀ r ∈ requested, r.1.volumeId.isSome = true) ∧
    ∀ m, m.serverId = serverId → (m ∈ w.serverVolumes ↔ some m ∈ requested.map (namedMount serverId))

/-- What breaking off here must find in the request and the world before, to
leave the server as it was. -/
def Clean (w : World) (body : UpdateRequest) (server : Server) : Break → Prop
  | .early => True
  | .checked => named body server = server ∧ NoneStale w server.id
  | .short =>
    named body server = server ∧ Unreserved w server.id ∧
      ¬ (server.allocatedGpu > 0 ∧ allocatable (freed (reaped w) server.id) server.allocatedGpu = true)
  | .configured committed =>
    (if committed then configuredRow w body server = server else body.planId.isSome → named body server = server) ∧
      DevicesKept w body server
  | .mounted count =>
    emptiedRow w body server = server ∧ MountsKept w server.id ((body.volumeMounts.getD []).zipIdx.take count) ∧
      DevicesKept w body server
  | .saved reserved =>
    savedRow w body server = server ∧ (∀ mounts ∈ body.volumeMounts, MountsKept w server.id mounts.zipIdx) ∧
      DevicesKept w body server ∧ reserved = false
  | .broken =>
    brokenFields (savedRow w body server) = server ∧
      (∀ mounts ∈ body.volumeMounts, MountsKept w server.id mounts.zipIdx) ∧ Unreserved w server.id

/-- A mount of the request, with the volume it names or one made for it. -/
def Fills (w : World) (requested : MountRequest × Nat) (mount : VolumeMount) : Prop :=
  ∃ id, mount = mountFor requested.1 requested.2 id ∧
    match requested.1.volumeId with
    | some volumeId => id = volumeId
    | none => w.nextUuid ≤ id

/-- The mounts of a request. Volumes made later have later identifiers. -/
inductive FilledFrom : Uuid → List (MountRequest × Nat) → List VolumeMount → Prop
  | nil (next : Uuid) : FilledFrom next [] []
  | named {next : Uuid} {request : MountRequest} {idx : Nat} {rest : List (MountRequest × Nat)} {mounts : List VolumeMount}
      (id : Uuid) (hid : request.volumeId = some id) (h : FilledFrom next rest mounts) :
      FilledFrom next ((request, idx) :: rest) (mountFor request idx id :: mounts)
  | made {next : Uuid} {request : MountRequest} {idx : Nat} {rest : List (MountRequest × Nat)} {mounts : List VolumeMount}
      (id : Uuid) (hid : request.volumeId = none) (hnext : next ≤ id) (h : FilledFrom (id + 1) rest mounts) :
      FilledFrom next ((request, idx) :: rest) (mountFor request idx id :: mounts)

def Filled (w : World) (requested : List (MountRequest × Nat)) (mounts : List VolumeMount) : Prop :=
  List.Forall₂ (Fills w) requested mounts

theorem FilledFrom.filled {next : Uuid} {requested : List (MountRequest × Nat)} {mounts : List VolumeMount}
    (h : FilledFrom next requested mounts) (hnext : w.nextUuid ≤ next) : Filled w requested mounts := by
  induction h with
  | nil => exact .nil
  | named id hid _ ih => exact .cons ⟨id, rfl, by simp [hid]⟩ (ih hnext)
  | made id hid hle _ ih => exact .cons ⟨id, rfl, by simpa [hid] using hnext.trans hle⟩ (ih ((hnext.trans hle).trans (Nat.le_succ id)))

theorem FilledFrom.mono {next next' : Uuid} {requested : List (MountRequest × Nat)} {mounts : List VolumeMount}
    (h : FilledFrom next requested mounts) (hle : next' ≤ next) : FilledFrom next' requested mounts := by
  induction h generalizing next' with
  | nil => exact .nil next'
  | named id hid _ ih => exact .named id hid (ih hle)
  | made id hid hnext h _ => exact .made id hid (hle.trans hnext) h

theorem sameMounts_filled (hids : ∀ m ∈ w.serverVolumes, m.volumeId < w.nextUuid) {serverId : Uuid}
    {requested : List (MountRequest × Nat)} {mounts : List VolumeMount} (h : Filled w requested mounts) :
    SameMounts serverId w (some (mounts.map (mountRow serverId))) ↔ MountsKept w serverId requested := by
  have hrows (hnamed : ∀ r ∈ requested, r.1.volumeId.isSome = true) :
      (mounts.map (mountRow serverId)).map some = requested.map (namedMount serverId) := by
    induction h with
    | nil => rfl
    | @cons r m rs ms hfills _ ih =>
        obtain ⟨id, rfl, hid⟩ := hfills
        obtain ⟨volumeId, hvolume⟩ := Option.isSome_iff_exists.mp (hnamed r List.mem_cons_self)
        rw [hvolume] at hid
        simp only [List.map_cons, ih fun r' hr' => hnamed r' (List.mem_cons_of_mem _ hr'), namedMount, hvolume,
          Option.map_some, hid]
  have hmem (hnamed : ∀ r ∈ requested, r.1.volumeId.isSome = true) (m : ServerVolume) :
      m ∈ mounts.map (mountRow serverId) ↔ some m ∈ requested.map (namedMount serverId) := by
    rw [← hrows hnamed, List.mem_map_of_injective (Option.some_injective _)]
  constructor
  · intro hsame
    have hnamed : ∀ r ∈ requested, r.1.volumeId.isSome = true := by
      intro r hr
      by_contra hnone
      rw [Option.not_isSome_iff_eq_none] at hnone
      obtain ⟨i, hi, hget⟩ := List.getElem_of_mem hr
      have hfills := List.forall₂_iff_get.mp h
      obtain ⟨id, hmount, hid⟩ := hfills.2 i hi (hfills.1 ▸ hi)
      rw [List.get_eq_getElem, hget, hnone] at hid
      have hrow : mountRow serverId (mounts.get ⟨i, hfills.1 ▸ hi⟩) ∈ mounts.map (mountRow serverId) :=
        List.mem_map_of_mem (List.get_mem _ _)
      have hold := hids _ ((hsame _ rfl).mp hrow)
      rw [hmount] at hold
      exact absurd hid (not_le.mpr hold)
    exact ⟨hnamed, fun m hm => (hsame m hm).symm.trans (hmem hnamed m)⟩
  · rintro ⟨hnamed, hsame⟩
    exact fun m hm => (hmem hnamed m).trans (hsame m hm).symm

/-- The device rows once the old number has been asked for again. -/
def restoredDevices (w : World) (server : Server) : List GpuAllocation :=
  let v := freed (reaped w) server.id
  if server.allocatedGpu > 0 ∧ allocatable v server.allocatedGpu then
    (allocated v server.id server.allocatedGpu).gpuAllocations
  else v.gpuAllocations

def SavedAs (w : World) (body : UpdateRequest) (server row : Server) (mounts : Option (List ServerVolume)) : Prop :=
  match body.volumeMounts with
  | none => row = emptiedRow w body server ∧ mounts = none
  | some requested =>
    ∃ filled, Filled w requested.zipIdx filled ∧ mounts = some (filled.map (mountRow server.id)) ∧
      row = { emptiedRow w body server with volumeId := (primaryVolume filled).or (emptiedRow w body server).volumeId }

def Left (w : World) (body : UpdateRequest) (server : Server) (t : World) : Break → Prop
  | .early => Held w server.id server none w.gpuAllocations t
  | .checked => Held w server.id (named body server) none (reaped w).gpuAllocations t
  | .short => Held w server.id (named body server) none (restoredDevices w server) t
  | .configured committed =>
    Held w server.id
      (if committed then configuredRow w body server else if body.planId.isSome then named body server else server) none
      (plannedDevices w body server) t
  | .mounted count =>
    ∃ filled, Filled w ((body.volumeMounts.getD []).zipIdx.take count) filled ∧
      Held w server.id (emptiedRow w body server) (some (filled.map (mountRow server.id))) (plannedDevices w body server) t
  | .saved reserved =>
    ∃ row mounts, SavedAs w body server row mounts ∧
      if reserved then
        ∃ v count, 0 < count ∧ allocatable v count = true ∧ w.nextUuid ≤ v.nextUuid ∧
          Held w server.id row mounts (allocated v server.id count).gpuAllocations t
      else Held w server.id row mounts (plannedDevices w body server) t
  | .broken =>
    ∃ row mounts rows, SavedAs w body server row mounts ∧
      Held w server.id (brokenFields row) mounts (withoutServer rows server.id) t

theorem primaryVolume_filled {requested : List MountRequest} {filled : List VolumeMount}
    (h : Filled w requested.zipIdx filled) (hnamed : ∀ r ∈ requested.zipIdx, r.1.volumeId.isSome = true) :
    primaryVolume filled = requested.head?.bind MountRequest.volumeId := by
  cases requested with
  | nil =>
      cases h
      rfl
  | cons head rest =>
      rw [List.zipIdx_cons] at h hnamed
      obtain ⟨volumeId, hvolume⟩ := Option.isSome_iff_exists.mp (hnamed _ List.mem_cons_self)
      cases h with
      | cons hfills _ =>
          obtain ⟨id, rfl, hid⟩ := hfills
          rw [hvolume] at hid
          have hvolume : head.volumeId = some volumeId := hvolume
          simp [primaryVolume, mountFor, hid, hvolume]

theorem savedAs_iff (hids : ∀ m ∈ w.serverVolumes, m.volumeId < w.nextUuid) {row : Server}
    {mounts : Option (List ServerVolume)} (h : SavedAs w body server row mounts) (f : Server → Server) :
    f row = server ∧ SameMounts server.id w mounts ↔
      f (savedRow w body server) = server ∧ ∀ requested ∈ body.volumeMounts, MountsKept w server.id requested.zipIdx := by
  unfold SavedAs at h
  unfold savedRow
  cases hbody : body.volumeMounts with
  | none =>
      rw [hbody] at h
      obtain ⟨rfl, rfl⟩ := h
      exact ⟨fun h => ⟨h.1, nofun⟩, fun h => ⟨h.1, fun _ _ => Iff.rfl⟩⟩
  | some requested =>
      rw [hbody] at h
      obtain ⟨filled, hfilled, rfl, rfl⟩ := h
      have hmounts : (∀ r ∈ some requested, MountsKept w server.id r.zipIdx) ↔ MountsKept w server.id requested.zipIdx := by
        simp
      rw [sameMounts_filled hids hfilled, hmounts, and_comm, and_comm (b := MountsKept _ _ _)]
      refine and_congr_right fun hkept => ?_
      rw [primaryVolume_filled hfilled hkept.1, Option.bind_some]

theorem left_iff (hids : IdsBelow w body) (hfind : w.servers.find server.id = some server) {b : Break}
    (hall : b ≠ .early → b ≠ .checked → b ≠ .short →
      ∀ plan ∈ requestedPlan w body, changesDevices w server plan = true → takesDevices server plan = true →
        allocatable (freed (reaped w) server.id) plan.gpuLimit = true)
    (h : Left w body server t b) : Unchanged server.id w t ↔ Clean w body server b := by
  have hkept : SameMounts server.id w none := fun _ _ => Iff.rfl
  have hplanned (hearly : b ≠ .early) (hchecked : b ≠ .checked) (hshort : b ≠ .short) :=
    sameDevices_planned hids.gpuAllocations (hall hearly hchecked hshort)
  cases b with
  | early =>
      rw [h.unchanged_iff hfind]
      exact iff_of_true ⟨rfl, hkept, fun _ _ => Iff.rfl⟩ trivial
  | checked =>
      rw [h.unchanged_iff hfind, sameDevices_reaped]
      exact and_congr_right fun _ => and_iff_right hkept
  | short =>
      rw [h.unchanged_iff hfind]
      refine and_congr_right fun _ => (and_iff_right hkept).trans ?_
      unfold restoredDevices
      dsimp only
      split
      · rename_i hrestored
        have hnot := not_sameDevices_allocated server.id (v := freed (reaped w) server.id)
          hids.gpuAllocations le_rfl hrestored.1 hrestored.2
        exact iff_of_false hnot fun hclean => hclean.2 hrestored
      · rename_i hshort
        exact (sameDevices_without _).trans (and_iff_left hshort).symm
  | configured committed =>
      rw [h.unchanged_iff hfind, hplanned nofun nofun nofun]
      cases committed with
      | true => exact and_congr_right fun _ => and_iff_right hkept
      | false =>
          cases hplan : body.planId.isSome with
          | true => simp [Clean, hkept, hplan]
          | false => simp [Clean, hkept, hplan]
  | mounted count =>
      obtain ⟨filled, hfilled, h⟩ := h
      rw [h.unchanged_iff hfind, hplanned nofun nofun nofun, sameMounts_filled hids.mounts hfilled]
      rfl
  | saved reserved =>
      obtain ⟨row, mounts, hsaved, h⟩ := h
      have hiff := savedAs_iff hids.mounts hsaved id
      cases reserved with
      | true =>
          obtain ⟨v, count, hcount, hall, hbound, h⟩ := h
          rw [h.unchanged_iff hfind]
          have hnot := not_sameDevices_allocated server.id hids.gpuAllocations hbound hcount hall
          exact iff_of_false (fun hsame => hnot hsame.2.2) fun hclean => Bool.false_ne_true hclean.2.2.2.symm
      | false =>
          have h : Held w server.id row mounts (plannedDevices w body server) t := h
          rw [h.unchanged_iff hfind, hplanned nofun nofun nofun, ← and_assoc]
          refine Iff.trans (and_congr_left fun _ => hiff) ?_
          simp [Clean, and_assoc]
  | broken =>
      obtain ⟨row, mounts, rows, hsaved, h⟩ := h
      rw [h.unchanged_iff hfind, sameDevices_without, ← and_assoc, savedAs_iff hids.mounts hsaved brokenFields, and_assoc]
      rfl

end Leavings

end NukeLab.UpdateBreaks
