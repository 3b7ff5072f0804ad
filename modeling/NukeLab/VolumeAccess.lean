import NukeLab.Creation
import NukeLab.Machine
import Mathlib.Logic.Function.Basic

namespace NukeLab.VolumeAccess

open Tables Machine Records State Creation

structure VolumeInfo where
  displayName : String
  ownerId : Uuid
  visibility : String

structure SharedWorkspace where
  id : Uuid
  ownerId : Uuid

structure WorkspaceMember where
  workspaceId : Uuid
  userId : Uuid
  role : String

structure WorkspaceVolume where
  workspaceId : Uuid
  volumeId : Uuid
  role : String

structure Mount where
  volumeId : Uuid
  mode : String

/-- A server with the mounts recorded for it, and those its container was made with. -/
structure ServerMounts where
  id : Uuid
  userId : Uuid
  mounts : List Mount
  container : Option (List Mount)

/-- Volumes, their sharing and the servers. What was started last is kept. -/
structure Site where
  volumes : Uuid → Option VolumeInfo
  workspaces : List SharedWorkspace
  members : List WorkspaceMember
  links : List WorkspaceVolume
  servers : Table ServerMounts.id
  nextVolume : Uuid
  started : List (Uuid × Mount)

def mostRestrictive (a b : Option String) : Option String :=
  match a, b with
  | none, b => b
  | a, none => a
  | some a, some b => if a = "read_only" ∨ b = "read_only" then some "read_only" else some "read_write"

def memberAccess (link : WorkspaceVolume) (member : WorkspaceMember) : String :=
  if link.role = "read_only" then "read_only" else if member.role = "read_only" then "read_only" else "read_write"

def linkAccess (s : Site) (userId : Uuid) (link : WorkspaceVolume) : Option String :=
  if s.workspaces.any fun w => w.id = link.workspaceId ∧ w.ownerId = userId then some link.role
  else (s.members.find? fun m => m.workspaceId = link.workspaceId ∧ m.userId = userId).map (memberAccess link)

def getWorkspaceAccess (s : Site) (volumeId userId : Uuid) : Option String :=
  (s.links.filter fun link => link.volumeId = volumeId).foldl
    (fun access link => mostRestrictive access (linkAccess s userId link)) none

def computeEffectiveAccess (personal workspace : Option String) : Option String := mostRestrictive personal workspace

def canAccessVolume (s : Site) (volumeId userId : Uuid) (mode : String) : Bool :=
  match s.volumes volumeId with
  | none => false
  | some volume =>
    let personal := if volume.ownerId = userId then some "read_write" else none
    match computeEffectiveAccess personal (getWorkspaceAccess s volumeId userId) with
    | none => volume.visibility = "public" ∧ mode = "read_only"
    | some effective =>
      if mode = "read_only" then effective = "read_only" ∨ effective = "read_write"
      else if mode = "read_write" then effective = "read_write"
      else false

def canManageVolume (s : Site) (volumeId userId : Uuid) : Bool :=
  match s.volumes volumeId with
  | none => false
  | some volume => volume.ownerId = userId

def workspaceOf (s : Site) (workspaceId : Uuid) : Option SharedWorkspace := s.workspaces.find? fun w => w.id = workspaceId

def memberOf (s : Site) (workspaceId userId : Uuid) : Option WorkspaceMember :=
  s.members.find? fun m => m.workspaceId = workspaceId ∧ m.userId = userId

def canManageWorkspace (s : Site) (workspaceId userId : Uuid) : Bool :=
  match workspaceOf s workspaceId with
  | none => false
  | some w => w.ownerId = userId ∨ ∃ m ∈ memberOf s workspaceId userId, m.role = "admin"

def setRole (s : Site) (workspaceId userId : Uuid) (role : String) : Site :=
  { s with
    members := s.members.map fun m => if m.workspaceId = workspaceId ∧ m.userId = userId then { m with role := role } else m }

def createWorkspace (s : Site) (workspaceId ownerId : Uuid) : Site :=
  { s with
    workspaces := s.workspaces ++ [⟨workspaceId, ownerId⟩]
    members := s.members ++ [⟨workspaceId, ownerId, "admin"⟩] }

def deleteWorkspace (s : Site) (workspaceId : Uuid) : Site :=
  { s with
    workspaces := s.workspaces.filter fun w => w.id ≠ workspaceId
    members := s.members.filter fun m => m.workspaceId ≠ workspaceId
    links := s.links.filter fun link => link.workspaceId ≠ workspaceId }

def addVolume (s : Site) (actorId workspaceId volumeId : Uuid) (role : String) : Except String Site :=
  if (workspaceOf s workspaceId).isNone then .error "Workspace not found"
  else if ¬ canManageWorkspace s workspaceId actorId then
    .error "You don't have permission to manage this workspace's volumes"
  else if ¬ canManageVolume s volumeId actorId then .error "You don't have permission to share this volume"
  else if role ≠ "read_only" ∧ role ≠ "read_write" then .error "Invalid role. Must be: read_only, read_write"
  else .ok { s with links := s.links ++ [⟨workspaceId, volumeId, role⟩] }

def removeVolume (s : Site) (workspaceId volumeId : Uuid) : Site :=
  { s with links := s.links.filter fun link => ¬ (link.workspaceId = workspaceId ∧ link.volumeId = volumeId) }

def updateVolumeRole (s : Site) (workspaceId volumeId : Uuid) (role : String) : Site :=
  { s with
    links := s.links.map fun link =>
      if link.workspaceId = workspaceId ∧ link.volumeId = volumeId then { link with role := role } else link }

def acceptInvitation (s : Site) (workspaceId userId : Uuid) (role : String) : Site :=
  { s with members := s.members ++ [⟨workspaceId, userId, role⟩] }

def removeMember (s : Site) (workspaceId userId : Uuid) : Except String Site :=
  match workspaceOf s workspaceId with
  | none => .error "Workspace not found"
  | some w =>
    if w.ownerId = userId then .error "Cannot remove the owner from the workspace. Transfer ownership first."
    else .ok { s with members := s.members.filter fun m => ¬ (m.workspaceId = workspaceId ∧ m.userId = userId) }

def updateMemberRole (s : Site) (workspaceId userId : Uuid) (role : String) : Except String Site :=
  match workspaceOf s workspaceId with
  | none => .error "Workspace not found"
  | some w =>
    if w.ownerId = userId then .error "Cannot change the owner's role. Transfer ownership first."
    else .ok (setRole s workspaceId userId role)

def transferOwnership (s : Site) (workspaceId currentOwnerId newOwnerId : Uuid) : Except String Site :=
  match workspaceOf s workspaceId with
  | none => .error "Workspace not found"
  | some w =>
    if w.ownerId ≠ currentOwnerId then .error "Only the owner can transfer ownership"
    else if currentOwnerId = newOwnerId then .error "Cannot transfer ownership to yourself"
    else if (memberOf s workspaceId newOwnerId).isNone then .error "Target user must be a workspace member"
    else
      let s :=
        if (memberOf s workspaceId currentOwnerId).isSome then setRole s workspaceId currentOwnerId "admin"
        else { s with members := s.members ++ [⟨workspaceId, currentOwnerId, "admin"⟩] }
      let s :=
        { s with
          workspaces := s.workspaces.map fun w => if w.id = workspaceId then { w with ownerId := newOwnerId } else w }
      .ok (setRole s workspaceId newOwnerId "admin")

def setVisibility (s : Site) (volumeId : Uuid) (visibility : String) : Site :=
  { s with
    volumes := Function.update s.volumes volumeId ((s.volumes volumeId).map fun v => { v with visibility := visibility }) }

inductive Sharing
  | createWorkspace (workspaceId ownerId : Uuid)
  | deleteWorkspace (workspaceId : Uuid)
  | addVolume (actorId workspaceId volumeId : Uuid) (role : String)
  | removeVolume (workspaceId volumeId : Uuid)
  | updateVolumeRole (workspaceId volumeId : Uuid) (role : String)
  | acceptInvitation (workspaceId userId : Uuid) (role : String)
  | removeMember (workspaceId userId : Uuid)
  | updateMemberRole (workspaceId userId : Uuid) (role : String)
  | transferOwnership (workspaceId currentOwnerId newOwnerId : Uuid)
  | setVisibility (volumeId : Uuid) (visibility : String)

def share (s : Site) : Sharing → Except String Site
  | .createWorkspace workspaceId ownerId => .ok (createWorkspace s workspaceId ownerId)
  | .deleteWorkspace workspaceId => .ok (deleteWorkspace s workspaceId)
  | .addVolume actorId workspaceId volumeId role => addVolume s actorId workspaceId volumeId role
  | .removeVolume workspaceId volumeId => .ok (removeVolume s workspaceId volumeId)
  | .updateVolumeRole workspaceId volumeId role => .ok (updateVolumeRole s workspaceId volumeId role)
  | .acceptInvitation workspaceId userId role => .ok (acceptInvitation s workspaceId userId role)
  | .removeMember workspaceId userId => removeMember s workspaceId userId
  | .updateMemberRole workspaceId userId role => updateMemberRole s workspaceId userId role
  | .transferOwnership workspaceId currentOwnerId newOwnerId =>
    transferOwnership s workspaceId currentOwnerId newOwnerId
  | .setVisibility volumeId visibility => .ok (setVisibility s volumeId visibility)

/-- A mount asked for; one without a volume has a volume made for it. -/
structure Request where
  volumeId : Option Uuid
  mode : String

def prepare (actorId : Uuid) : Site → List Request → Site × List Mount
  | s, [] => (s, [])
  | s, request :: rest =>
    let mode := orText request.mode "read_write"
    match request.volumeId with
    | some volumeId =>
      let (t, mounts) := prepare actorId s rest
      (t, ⟨volumeId, mode⟩ :: mounts)
    | none =>
      let made :=
        { s with
          volumes := Function.update s.volumes s.nextVolume (some ⟨"data", actorId, "private"⟩)
          nextVolume := s.nextVolume + 1 }
      let (t, mounts) := prepare actorId made rest
      (t, ⟨s.nextVolume, mode⟩ :: mounts)

def accessDenied (s : Site) (volumeId : Uuid) (mode : String) : String :=
  let name :=
    match s.volumes volumeId with
    | some volume => volume.displayName
    | none => uuidText volumeId
  "Volume '" ++ name ++ "' cannot be mounted as " ++ (if mode = "read_write" then "read-write" else "read-only") ++
    ". You may have read-only access via a shared workspace. Contact the workspace owner to request write access."

/-- Every mount of a new server is checked, the made ones as well. -/
def createServer (s : Site) (userId serverId : Uuid) (requests : List Request) (fault : Option String) :
    Except String Site :=
  let requests := if requests = [] then [⟨none, "read_write"⟩] else requests
  let (t, mounts) := prepare userId s requests
  match mounts.find? fun m => ¬ canAccessVolume t m.volumeId userId m.mode with
  | some m => .error (accessDenied t m.volumeId m.mode)
  | none =>
    match fault with
    | some detail => .error detail
    | none =>
      .ok
        { t with
          servers := t.servers.insert ⟨serverId, userId, mounts, some mounts⟩
          started := mounts.map fun m => (userId, m) }

/-- A queued server is spawned without recorded mounts, on a volume of Docker's only. -/
def launchQueued (s : Site) (userId serverId : Uuid) : Site :=
  { s with servers := s.servers.insert ⟨serverId, userId, [], some []⟩, started := [] }

inductive Path
  | start
  | restart
  | schedule
  | bulk
  | health

/-- Only a plain start goes on where the container is gone. -/
def Path.spawnsAnew : Path → Bool
  | .start => true
  | .restart => false
  | .schedule => false
  | .bulk => false
  | .health => false

def recreated (mounts : List Mount) (server : ServerMounts) : ServerMounts :=
  { server with mounts := mounts, container := some mounts }

/-- A container is started as it was made, or made again from the recorded mounts. -/
def launch (s : Site) (path : Path) (serverId : Uuid) (respawn : Bool) : Except String Site :=
  match s.servers.find serverId with
  | none => .error "Server not found"
  | some server =>
    let made :=
      { s with
        servers := s.servers.modify serverId (fun r => { r with container := some r.mounts }) fun _ => rfl
        started := server.mounts.map fun m => (server.userId, m) }
    match server.container with
    | some mounts => .ok (if respawn then made else { s with started := mounts.map fun m => (server.userId, m) })
    | none => if path.spawnsAnew then .ok made else .error "No container associated with this server"

/-- Mounts given by volume are checked for the actor; those made are not. -/
def updateRefusal (s : Site) (actorId : Uuid) (requests : List Request) : Option String :=
  (requests.filterMap fun r => r.volumeId.map fun volumeId => (volumeId, r.mode)).findSome? fun m =>
    if canAccessVolume s m.1 actorId m.2 then none else some (accessDenied s m.1 m.2)

def updateServer (s : Site) (actorId serverId : Uuid) (requests : Option (List Request)) (fault : Option String) :
    Except String Site :=
  match s.servers.find serverId with
  | none => .error "Server not found"
  | some server =>
    match requests.bind (updateRefusal s actorId), fault with
    | some detail, _ => .error detail
    | none, some detail => .error detail
    | none, none =>
      let (t, mounts) :=
        match requests with
        | some requests => prepare actorId s requests
        | none => (s, server.mounts)
      .ok
        { t with
          servers := t.servers.modify serverId (recreated mounts) fun _ => rfl
          started := mounts.map fun m => (server.userId, m) }

inductive Event
  | share (change : Sharing)
  | createServer (userId serverId : Uuid) (requests : List Request) (fault : Option String)
  | launchQueued (userId serverId : Uuid)
  | launch (path : Path) (serverId : Uuid) (respawn : Bool)
  | updateServer (actorId serverId : Uuid) (requests : Option (List Request)) (fault : Option String)
  | stopServer (serverId : Uuid)
  | deleteServer (serverId : Uuid)

def attempt (s : Site) : Event → Except String Site
  | .share change => (share s change).map fun t => { t with started := [] }
  | .createServer userId serverId requests fault => createServer s userId serverId requests fault
  | .launchQueued userId serverId => .ok (launchQueued s userId serverId)
  | .launch path serverId respawn => launch s path serverId respawn
  | .updateServer actorId serverId requests fault => updateServer s actorId serverId requests fault
  | .stopServer serverId =>
    .ok
      { s with
        servers := s.servers.modify serverId (fun r => { r with container := none }) fun _ => rfl
        started := [] }
  | .deleteServer serverId => .ok { s with servers := s.servers.erase serverId, started := [] }

def step : Step Site Event := fun s event => (attempt s event).toOption

def Current (s : Site) : Prop :=
  ∀ start ∈ s.started, canAccessVolume s start.2.volumeId start.1 start.2.mode = true

def Usable (s : Site) : Prop :=
  ∀ server ∈ s.servers.rows, ∀ m ∈ server.mounts, canAccessVolume s m.volumeId server.userId m.mode = true

instance : DecidablePred Usable := fun s =>
  inferInstanceAs
    (Decidable (∀ server ∈ s.servers.rows, ∀ m ∈ server.mounts, canAccessVolume s m.volumeId server.userId m.mode = true))

instance : DecidablePred Current := fun s =>
  inferInstanceAs (Decidable (∀ start ∈ s.started, canAccessVolume s start.2.volumeId start.1 start.2.mode = true))

def knownMode (mode : String) : Prop := mode = "read_only" ∨ mode = "read_write"

/-- No change of sharing takes a mounted volume from a server's owner, and new mounts
are chosen by him. -/
def Guarded (s : Site) : Event → Prop
  | .share change => ∀ t, share s change = .ok t → Usable t
  | .updateServer actorId serverId requests _ =>
    ∀ given ∈ requests,
      (∀ server ∈ s.servers.find serverId, server.userId = actorId) ∧
        ∀ r ∈ given, r.volumeId = none → knownMode (orText r.mode "read_write")
  | _ => True

/-- Containers have the recorded mounts, and what is made next has not been shared yet. -/
structure Tidy (s : Site) : Prop where
  baked : ∀ server ∈ s.servers.rows, ∀ mounts ∈ server.container, mounts = server.mounts
  linked : ∀ link ∈ s.links, link.volumeId < s.nextVolume
  unmade : ∀ volumeId, s.nextVolume ≤ volumeId → s.volumes volumeId = none

section Access

variable {s t : Site} {volumeId userId : Uuid} {mode : String}

theorem exists_of_canAccess (h : canAccessVolume s volumeId userId mode = true) : ∃ volume, s.volumes volumeId = some volume := by
  rw [canAccessVolume] at h
  split at h
  · cases h
  next volume hvolume => exact ⟨volume, hvolume⟩

theorem lt_of_canAccess (hs : Tidy s) (h : canAccessVolume s volumeId userId mode = true) : volumeId < s.nextVolume := by
  obtain ⟨volume, hvolume⟩ := exists_of_canAccess h
  by_contra hle
  rw [hs.unmade volumeId (not_lt.mp hle)] at hvolume
  cases hvolume

theorem canAccess_congr (hvolume : t.volumes volumeId = s.volumes volumeId) (hworkspaces : t.workspaces = s.workspaces)
    (hmembers : t.members = s.members) (hlinks : t.links = s.links) :
    canAccessVolume t volumeId userId mode = canAccessVolume s volumeId userId mode := by
  have hlink : linkAccess t userId = linkAccess s userId := by
    funext link
    rw [linkAccess, linkAccess, hworkspaces, hmembers]
  rw [canAccessVolume, canAccessVolume, hvolume, getWorkspaceAccess, getWorkspaceAccess, hlinks, hlink]

theorem mode_ne_empty (h : canAccessVolume s volumeId userId mode = true) : mode ≠ "" := by
  rintro rfl
  rw [canAccessVolume] at h
  split at h
  · cases h
  · dsimp only at h
    split at h
    · simp at h
    · simp at h

theorem canAccess_of_owner {volume : VolumeInfo} (hvolume : s.volumes volumeId = some volume) (howner : volume.ownerId = userId)
    (hlinks : ∀ link ∈ s.links, link.volumeId ≠ volumeId) (hmode : knownMode mode) :
    canAccessVolume s volumeId userId mode = true := by
  have hnone : s.links.filter (fun link => link.volumeId = volumeId) = [] :=
    List.filter_eq_nil_iff.mpr fun link hlink => by simpa using hlinks link hlink
  rw [canAccessVolume, hvolume]
  dsimp only
  rw [if_pos howner, getWorkspaceAccess, hnone]
  obtain rfl | rfl := hmode <;> rfl

end Access

/-- What preparing mounts leaves: the volumes there were, and made ones of the actor's. -/
structure Prepared (actorId : Uuid) (requests : List Request) (s t : Site) (mounts : List Mount) : Prop where
  workspaces : t.workspaces = s.workspaces
  members : t.members = s.members
  links : t.links = s.links
  servers : t.servers = s.servers
  grown : s.nextVolume ≤ t.nextVolume
  kept : ∀ volumeId < s.nextVolume, t.volumes volumeId = s.volumes volumeId
  unmade : ∀ volumeId, t.nextVolume ≤ volumeId → t.volumes volumeId = none
  mounted : ∀ m ∈ mounts, ∃ r ∈ requests, m.mode = orText r.mode "read_write" ∧
    (r.volumeId = some m.volumeId ∨
      r.volumeId = none ∧ s.nextVolume ≤ m.volumeId ∧ t.volumes m.volumeId = some ⟨"data", actorId, "private"⟩)

theorem prepared (actorId : Uuid) {s : Site} (hs : ∀ volumeId, s.nextVolume ≤ volumeId → s.volumes volumeId = none)
    (requests : List Request) :
    Prepared actorId requests s (prepare actorId s requests).1 (prepare actorId s requests).2 := by
  induction requests generalizing s with
  | nil => exact ⟨rfl, rfl, rfl, rfl, le_rfl, fun _ _ => rfl, hs, List.forall_mem_nil _⟩
  | cons request rest ih =>
      rw [prepare]
      dsimp only
      split
      next volumeId hvolume =>
        have h := ih hs
        refine ⟨h.workspaces, h.members, h.links, h.servers, h.grown, h.kept, h.unmade, fun m hm => ?_⟩
        obtain rfl | hm := List.mem_cons.mp hm
        · exact ⟨request, List.mem_cons_self, rfl, .inl hvolume⟩
        · obtain ⟨r, hr, hmode, hcase⟩ := h.mounted m hm
          exact ⟨r, List.mem_cons_of_mem _ hr, hmode, hcase⟩
      next hvolume =>
        have hmade : ∀ volumeId, s.nextVolume + 1 ≤ volumeId →
            Function.update s.volumes s.nextVolume (some ⟨"data", actorId, "private"⟩) volumeId = none := by
          intro volumeId hle
          rw [Function.update_of_ne (Nat.lt_of_succ_le hle).ne']
          exact hs volumeId (Nat.le_of_succ_le hle)
        have h := ih (s := { s with
          volumes := Function.update s.volumes s.nextVolume (some ⟨"data", actorId, "private"⟩)
          nextVolume := s.nextVolume + 1 }) hmade
        refine ⟨h.workspaces, h.members, h.links, h.servers, Nat.le_of_succ_le h.grown, fun volumeId hlt => ?_, h.unmade,
          fun m hm => ?_⟩
        · exact (h.kept volumeId (Nat.lt_succ_of_lt hlt)).trans (Function.update_of_ne hlt.ne _ _)
        · obtain rfl | hm := List.mem_cons.mp hm
          · refine ⟨request, List.mem_cons_self, rfl, .inr ⟨hvolume, le_rfl, ?_⟩⟩
            exact (h.kept s.nextVolume (Nat.lt_succ_self _)).trans (Function.update_self ..)
          · obtain ⟨r, hr, hmode, hcase⟩ := h.mounted m hm
            refine ⟨r, List.mem_cons_of_mem _ hr, hmode, hcase.imp id fun hnew => ?_⟩
            exact ⟨hnew.1, Nat.le_of_succ_le hnew.2.1, hnew.2.2⟩

section Steps

variable {s t : Site} {actorId userId serverId : Uuid} {requests : List Request} {mounts : List Mount}

theorem Prepared.canAccess (h : Prepared actorId requests s t mounts) (hs : Tidy s) {volumeId : Uuid} {mode : String}
    (haccess : canAccessVolume s volumeId userId mode = true) : canAccessVolume t volumeId userId mode = true := by
  rw [canAccess_congr (h.kept volumeId (lt_of_canAccess hs haccess)) h.workspaces h.members h.links]
  exact haccess

theorem Prepared.canAccess_made (h : Prepared actorId requests s t mounts) (hs : Tidy s) {m : Mount}
    (hle : s.nextVolume ≤ m.volumeId) (hmade : t.volumes m.volumeId = some ⟨"data", actorId, "private"⟩)
    (hmode : knownMode m.mode) : canAccessVolume t m.volumeId actorId m.mode = true := by
  apply canAccess_of_owner hmade rfl _ hmode
  intro link hlink heq
  rw [h.links] at hlink
  exact absurd (hs.linked link hlink) (not_lt.mpr (hle.trans heq.ge))

theorem Prepared.usable (h : Prepared actorId requests s t mounts) (hs : Tidy s) (husable : Usable s) : Usable t := by
  intro server hserver m hm
  rw [h.servers] at hserver
  exact h.canAccess hs (husable server hserver m hm)

theorem Prepared.tidy (h : Prepared actorId requests s t mounts) (hs : Tidy s) : Tidy t where
  baked server hserver := by
    rw [h.servers] at hserver
    exact hs.baked server hserver
  linked link hlink := by
    rw [h.links] at hlink
    exact (hs.linked link hlink).trans_le h.grown
  unmade := h.unmade

structure Kept (s : Site) : Prop where
  tidy : Tidy s
  usable : Usable s
  current : Current s

theorem current_of_mounts (h : ∀ m ∈ mounts, canAccessVolume s m.volumeId userId m.mode = true) {t : Site}
    (hsame : ∀ volumeId userId mode, canAccessVolume t volumeId userId mode = canAccessVolume s volumeId userId mode)
    (hstarted : t.started = mounts.map fun m => (userId, m)) : Current t := by
  intro start hstart
  rw [hstarted] at hstart
  obtain ⟨m, hm, rfl⟩ := List.mem_map.mp hstart
  exact (hsame _ _ _).trans (h m hm)

theorem kept_insert (hs : Tidy s) (husable : Usable s)
    (hmounts : ∀ m ∈ mounts, canAccessVolume s m.volumeId userId m.mode = true) :
    Kept
      { s with
        servers := s.servers.insert ⟨serverId, userId, mounts, some mounts⟩
        started := mounts.map fun m => (userId, m) } where
  tidy :=
    { baked := fun server hserver made hmade => by
        obtain hserver | rfl := Table.mem_or_eq_of_mem_insert hserver
        · exact hs.baked server hserver made hmade
        · exact (Option.some.inj hmade).symm
      linked := hs.linked
      unmade := hs.unmade }
  usable server hserver m hm := by
    obtain hserver | rfl := Table.mem_or_eq_of_mem_insert hserver
    · exact husable server hserver m hm
    · exact hmounts m hm
  current := current_of_mounts hmounts (fun _ _ _ => rfl) rfl

theorem kept_createServer (hs : Kept s) {fault : Option String} (h : createServer s userId serverId requests fault = .ok t) :
    Kept t := by
  rw [createServer] at h
  dsimp only at h
  split at h
  · cases h
  next hnone =>
    split at h
    · cases h
    · cases h
      have hprepared := prepared userId hs.tidy.unmade (if requests = [] then [⟨none, "read_write"⟩] else requests)
      apply kept_insert (hprepared.tidy hs.tidy) (hprepared.usable hs.tidy hs.usable)
      intro m hm
      have hdenied := List.find?_eq_none.mp hnone m hm
      simpa using hdenied

theorem made_eq (mounts : List Mount) : ∀ made ∈ some mounts, made = mounts := fun _ hmade =>
  (Option.some.inj hmade).symm

theorem usable_modify {f : ServerMounts → ServerMounts} (hf : ∀ r, (f r).id = r.id) (husable : Usable s)
    (h : ∀ r ∈ s.servers.rows, r.id = serverId → ∀ m ∈ (f r).mounts, canAccessVolume s m.volumeId (f r).userId m.mode = true)
    (started : List (Uuid × Mount)) : Usable { s with servers := s.servers.modify serverId f hf, started := started } := by
  intro server hserver m hm
  obtain ⟨r, hr, rfl⟩ := List.mem_map.mp hserver
  split at hm
  next hid =>
    rw [if_pos hid]
    exact h r hr hid m hm
  next hid =>
    rw [if_neg hid]
    exact husable r hr m hm

theorem tidy_modify {f : ServerMounts → ServerMounts} (hf : ∀ r, (f r).id = r.id) (hs : Tidy s)
    (h : ∀ r, ∀ mounts ∈ (f r).container, mounts = (f r).mounts) (started : List (Uuid × Mount)) :
    Tidy { s with servers := s.servers.modify serverId f hf, started := started } := by
  refine ⟨fun server hserver made hmade => ?_, hs.linked, hs.unmade⟩
  obtain ⟨r, hr, rfl⟩ := List.mem_map.mp hserver
  split at hmade
  next hid =>
    rw [if_pos hid]
    exact h r made hmade
  next hid =>
    rw [if_neg hid]
    exact hs.baked r hr made hmade

theorem kept_started (hs : Kept s) {server : ServerMounts} (hfind : s.servers.find serverId = some server) :
    Current { s with started := server.mounts.map fun m => (server.userId, m) } :=
  current_of_mounts (hs.usable server (Table.mem_of_find hfind)) (fun _ _ _ => rfl) rfl

theorem kept_launch (hs : Kept s) {path : Path} {respawn : Bool} (h : launch s path serverId respawn = .ok t) : Kept t := by
  rw [launch] at h
  split at h
  · cases h
  next server hfind =>
    have hcurrent := kept_started hs hfind
    have hmade : Kept
        { s with
          servers := s.servers.modify serverId (fun r => { r with container := some r.mounts }) fun _ => rfl
          started := server.mounts.map fun m => (server.userId, m) } :=
      { tidy := tidy_modify (f := fun r => { r with container := some r.mounts }) _ hs.tidy (fun _ => made_eq _) _
        usable := usable_modify (f := fun r => { r with container := some r.mounts }) _ hs.usable
          (fun r hr _ => hs.usable r hr) _
        current := hcurrent }
    dsimp only at h
    split at h
    next mounts hcontainer =>
      cases h
      split
      · exact hmade
      · obtain rfl := hs.tidy.baked server (Table.mem_of_find hfind) mounts hcontainer
        exact ⟨⟨hs.tidy.baked, hs.tidy.linked, hs.tidy.unmade⟩, hs.usable, hcurrent⟩
    · split at h
      · cases h
        exact hmade
      · cases h

theorem usable_of_updateRefusal (hnone : updateRefusal s actorId requests = none) {r : Request} (hr : r ∈ requests)
    {volumeId : Uuid} (hvolume : r.volumeId = some volumeId) :
    canAccessVolume s volumeId actorId (orText r.mode "read_write") = true := by
  have hmem : (volumeId, r.mode) ∈ requests.filterMap fun r => r.volumeId.map fun volumeId => (volumeId, r.mode) :=
    List.mem_filterMap.mpr ⟨r, hr, by rw [hvolume]; rfl⟩
  have hcheck := List.findSome?_eq_none_iff.mp hnone _ hmem
  dsimp only at hcheck
  split at hcheck
  next haccess =>
    rw [orText, if_neg (mode_ne_empty haccess)]
    exact haccess
  · cases hcheck

theorem kept_updateServer (hs : Kept s) {given : Option (List Request)} {fault : Option String}
    (hguard : Guarded s (.updateServer actorId serverId given fault))
    (h : updateServer s actorId serverId given fault = .ok t) : Kept t := by
  rw [updateServer] at h
  split at h
  · cases h
  next server hfind =>
    split at h
    · cases h
    · cases h
    next hrefusal =>
      have hmem := Table.mem_of_find hfind
      have hone : ∀ r ∈ s.servers.rows, r.id = serverId → r = server := fun r hr hid =>
        Table.eq_of_mem_of_key hr hmem (hid.trans (Table.key_of_find hfind).symm)
      cases given with
      | none =>
          cases h
          refine ⟨tidy_modify (f := recreated server.mounts) _ hs.tidy (fun _ => made_eq _) _,
            usable_modify (f := recreated server.mounts) _ hs.usable (fun r hr hid => ?_) _, kept_started hs hfind⟩
          rw [hone r hr hid]
          exact hs.usable server hmem
      | some requests =>
          cases h
          obtain ⟨howner, hmodes⟩ := hguard requests rfl
          have hprepared := prepared actorId hs.tidy.unmade requests
          have hmounts : ∀ m ∈ (prepare actorId s requests).2,
              canAccessVolume (prepare actorId s requests).1 m.volumeId server.userId m.mode = true := by
            intro m hm
            rw [howner server hfind]
            obtain ⟨r, hr, hmode, hvolume | ⟨hnew, hle, hmade⟩⟩ := hprepared.mounted m hm
            · rw [hmode]
              exact hprepared.canAccess hs.tidy (usable_of_updateRefusal hrefusal hr hvolume)
            · exact hprepared.canAccess_made hs.tidy hle hmade (hmode ▸ hmodes r hr hnew)
          refine ⟨tidy_modify (f := recreated _) _ (hprepared.tidy hs.tidy) (fun _ => made_eq _) _,
            usable_modify (f := recreated _) _ (hprepared.usable hs.tidy hs.usable) (fun r hr hid => ?_) _,
            current_of_mounts hmounts (fun _ _ _ => rfl) rfl⟩
          rw [hprepared.servers] at hr
          rw [hone r hr hid]
          exact hmounts

theorem lt_of_canManage (hs : Tidy s) {volumeId : Uuid} (h : canManageVolume s volumeId userId = true) :
    volumeId < s.nextVolume := by
  rw [canManageVolume] at h
  split at h
  · cases h
  next volume hvolume =>
    by_contra hle
    rw [hs.unmade volumeId (not_lt.mp hle)] at hvolume
    cases hvolume

theorem transferOwnership_frame {workspaceId currentOwnerId newOwnerId : Uuid}
    (h : transferOwnership s workspaceId currentOwnerId newOwnerId = .ok t) :
    t.servers = s.servers ∧ t.links = s.links ∧ t.volumes = s.volumes ∧ t.nextVolume = s.nextVolume := by
  rw [transferOwnership] at h
  split at h
  · cases h
  · split at h
    · cases h
    · split at h
      · cases h
      · split at h
        · cases h
        · cases h
          split <;> exact ⟨rfl, rfl, rfl, rfl⟩

theorem tidy_share (hs : Tidy s) {change : Sharing} (h : share s change = .ok t) : Tidy t := by
  cases change with
  | createWorkspace workspaceId ownerId =>
      cases h
      exact ⟨hs.baked, hs.linked, hs.unmade⟩
  | deleteWorkspace workspaceId =>
      cases h
      exact ⟨hs.baked, fun link hlink => hs.linked link (List.mem_of_mem_filter hlink), hs.unmade⟩
  | addVolume actorId workspaceId volumeId role =>
      rw [share, addVolume] at h
      split at h
      · cases h
      · split at h
        · cases h
        · split at h
          · cases h
          next hmanage =>
            split at h
            · cases h
            · cases h
              refine ⟨hs.baked, fun link hlink => ?_, hs.unmade⟩
              obtain hlink | hnew := List.mem_append.mp hlink
              · exact hs.linked link hlink
              · obtain rfl := List.mem_singleton.mp hnew
                exact lt_of_canManage hs (not_not.mp hmanage)
  | removeVolume workspaceId volumeId =>
      cases h
      exact ⟨hs.baked, fun link hlink => hs.linked link (List.mem_of_mem_filter hlink), hs.unmade⟩
  | updateVolumeRole workspaceId volumeId role =>
      cases h
      refine ⟨hs.baked, fun link hlink => ?_, hs.unmade⟩
      obtain ⟨old, hold, rfl⟩ := List.mem_map.mp hlink
      have hlt := hs.linked old hold
      split
      · exact hlt
      · exact hlt
  | acceptInvitation workspaceId userId role =>
      cases h
      exact ⟨hs.baked, hs.linked, hs.unmade⟩
  | removeMember workspaceId userId =>
      rw [share, removeMember] at h
      split at h
      · cases h
      · split at h
        · cases h
        · cases h
          exact ⟨hs.baked, hs.linked, hs.unmade⟩
  | updateMemberRole workspaceId userId role =>
      rw [share, updateMemberRole] at h
      split at h
      · cases h
      · split at h
        · cases h
        · cases h
          exact ⟨hs.baked, hs.linked, hs.unmade⟩
  | transferOwnership workspaceId currentOwnerId newOwnerId =>
      obtain ⟨hservers, hlinks, hvolumes, hnext⟩ := transferOwnership_frame h
      refine ⟨?_, ?_, ?_⟩
      · rw [hservers]
        exact hs.baked
      · rw [hlinks, hnext]
        exact hs.linked
      · rw [hvolumes, hnext]
        exact hs.unmade
  | setVisibility volumeId visibility =>
      cases h
      refine ⟨hs.baked, hs.linked, fun other hle => ?_⟩
      have hnone := hs.unmade other hle
      by_cases heq : other = volumeId
      · subst heq
        exact (Function.update_self ..).trans (by rw [hnone]; rfl)
      · exact (Function.update_of_ne heq _ _).trans hnone

theorem kept_step (event : Event) (hs : Kept s) (hguard : Guarded s event) (h : step s event = some t) : Kept t := by
  have hattempt : attempt s event = .ok t := Program.ok_of_toOption h
  cases event with
  | share change =>
      rw [attempt] at hattempt
      cases hshare : share s change with
      | error detail =>
          rw [hshare] at hattempt
          cases hattempt
      | ok u =>
          rw [hshare] at hattempt
          cases hattempt
          have htidy := tidy_share hs.tidy hshare
          exact ⟨⟨htidy.baked, htidy.linked, htidy.unmade⟩, hguard u hshare, List.forall_mem_nil _⟩
  | createServer userId serverId requests fault => exact kept_createServer hs hattempt
  | launchQueued userId serverId =>
      cases hattempt
      exact kept_insert hs.tidy hs.usable (List.forall_mem_nil _)
  | launch path serverId respawn => exact kept_launch hs hattempt
  | updateServer actorId serverId requests fault => exact kept_updateServer hs hguard hattempt
  | stopServer serverId =>
      cases hattempt
      exact
        { tidy := tidy_modify (f := fun r => { r with container := none }) _ hs.tidy (fun _ _ hmade => (Option.not_mem_none _ hmade).elim) _
          usable := usable_modify (f := fun r => { r with container := none }) _ hs.usable
            (fun r hr _ => hs.usable r hr) _
          current := List.forall_mem_nil _ }
  | deleteServer serverId =>
      cases hattempt
      exact
        { tidy := ⟨fun r hr => hs.tidy.baked r (List.mem_of_mem_filter hr), hs.tidy.linked, hs.tidy.unmade⟩
          usable := fun r hr => hs.usable r (List.mem_of_mem_filter hr)
          current := List.forall_mem_nil _ }

end Steps

def site : Site := ⟨fun _ => none, [], [], [], Table.empty ServerMounts.id, 0, []⟩

theorem tidy_site : Tidy site where
  baked _ hserver := by cases hserver
  linked _ hlink := by cases hlink
  unmade _ _ := rfl

theorem usable_site : Usable site := by
  intro server hserver
  cases hserver

theorem guarded_share {s t : Site} {change : Sharing} (h : share s change = .ok t) (ht : Usable t) :
    Guarded s (.share change) := by
  intro u hu
  obtain rfl := Except.ok.inj (h.symm.trans hu)
  exact ht

end NukeLab.VolumeAccess
