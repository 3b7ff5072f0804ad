import NukeLab.Exits
import NukeLab.UpdateAtomicity

namespace NukeLab.ScheduledStarts

open Program Tables Quantities Records State GpuAllocator Quota Spawner Lifecycle Launches
open Creation (orText)
open CreationAtomicity (spawnFails)
open UpdateBreaks (lacksDevices)
open UpdateAtomicity (ensureGpuDevices_run spawn_fails spawn_runs)

deriving instance DecidableEq for GpuAllocation
deriving instance DecidableEq for Server

/-- What the middleware reads for a request: the mode, and who asks. -/
structure Gate where
  maintenanceMode : Bool
  maintenanceMessage : String
  admin : Bool
  rateLimited : Bool

def dispatch {α : Type} (gate : Gate) (callNext : Handler α) : Handler α :=
  if ¬ gate.maintenanceMode then callNext
  else if gate.admin then callNext
  else if gate.rateLimited then throw (.http 429 "Too many requests. Please try again later.")
  else throw (.http 503 (orText gate.maintenanceMessage "System under maintenance"))

def startServer (gate : Gate) (runtime : Runtime) (answers : Answers) (server : Server) (owner : User) : Handler Reply :=
  dispatch gate (performServerStart runtime answers server owner.username)

inductive ScheduleResult
  | executed (success : Bool) (message : String)
  | failed (error : String)
  deriving DecidableEq

def ScheduleResult.success : ScheduleResult → Bool
  | .executed success _ => success
  | .failed _ => false

def raiseText : Raise → String
  | .http status detail => toString status ++ ": " ++ detail
  | .exception text => text

/-- What is reported of a scheduled start that raised nothing. -/
def startReport (w : World) (runtime : Runtime) (server : Server) : ScheduleResult :=
  if server.containerId.isNone then .executed false "Server container missing, cannot auto-start"
  else if runtime.status ≠ .stopped then .executed false ""
  else if gpuRequiresRecreate w server none ∨ runtime.starts then
    .executed true ("Server '" ++ server.name ++ "' started by schedule")
  else .failed ("Server '" ++ server.name ++ "' failed to start (runtime error)")

/-- A schedule's start. Nobody asked for it, and nothing of the owner's is looked at. -/
def executeStart (runtime : Runtime) (server : Server) : Handler ScheduleResult := do
  let w ← get
  match ← attempt (scheduledStart runtime server) with
  | .ok _ => return startReport w runtime server
  | .error raise => return .failed (raiseText raise)

structure Outcome where
  row : Option Server
  usage : Usage
  devices : List GpuAllocation
  deriving DecidableEq

def outcome (server : Server) (w : World) : Outcome :=
  ⟨w.servers.find server.id, (quotaOf w server.userId).usage, w.gpuAllocations⟩

def started {α : Type} (server : Server) (succeeded : α → Bool) (m : Handler α) (w : World) : Option Outcome :=
  match m.run w with
  | .ok a t => if succeeded a then some (outcome server t) else none
  | .error _ _ => none

/-- A start by schedule succeeds where the owner's request does, with what it leaves. -/
def Agrees (w : World) (gate : Gate) (answers : Answers) (runtime : Runtime) (server : Server) (owner : User) : Prop :=
  started server ScheduleResult.success (executeStart runtime server) w =
    started server (fun _ => true) (startServer gate runtime answers server owner) w

instance (w : World) (gate : Gate) (answers : Answers) (runtime : Runtime) (server : Server) (owner : User) :
    Decidable (Agrees w gate answers runtime server owner) :=
  inferInstanceAs (Decidable (_ = _))

section Condition

variable (w : World) (gate : Gate) (answers : Answers) (runtime : Runtime) (server : Server) (owner : User)

def gpuCount : Int := serverGpuCount server (planOf w server)

def devicesThere : Bool := !lacksDevices w server.id (gpuCount w server) || allocatable w (gpuCount w server)

def canRemake : Bool := devicesThere w server && (spawnFails runtime w (gpuCount w server) []).isNone

def scheduleStarts : Bool :=
  server.containerId.isSome && decide (runtime.status = .stopped) &&
    if gpuRequiresRecreate w server none then canRemake w runtime server else runtime.starts

def admits : Bool := !gate.maintenanceMode || gate.admin

def configured : Bool :=
  match server.environmentId, server.planId with
  | some environmentId, some planId => (w.environments environmentId).isSome && (w.plans planId).isSome
  | _, _ => false

def startable : Bool :=
  match server.containerId with
  | some _ =>
    match runtime.status with
    | .running => true
    | .paused => if gpuRequiresRecreate w server (planOf w server) then canRemake w runtime server else runtime.starts
    | _ => canRemake w runtime server
  | none => configured w server && canRemake w runtime server

/-- The owner's request is let in, refused nothing, and can be carried out. -/
def requestStarts : Bool := admits gate && (startRefusal w answers server).isNone && startable w runtime server

/-- The schedule starts only what the owner could start as well, a server of exclusive
devices whose row needs no mending, and leaves out only what the owner cannot start. -/
def Uniform : Prop :=
  if scheduleStarts w runtime server then
    gpuRequiresRecreate w server none ∧ admits gate ∧ startRefusal w answers server = none ∧
      server.stoppedAt = none ∧ server.stopReason = none ∧ server.expiresAt = serverExpiry w owner
  else ¬ requestStarts w gate answers runtime server

def reserved : World :=
  if lacksDevices w server.id (gpuCount w server) then allocated w server.id (gpuCount w server) else w

end Condition

section Remake

variable {w u : World} {runtime : Runtime} {server : Server}

theorem spawn_record {request : SpawnRequest} :
    Returns (spawn runtime request) u fun new _ => new = serverRecord request u.nextUuid u.now := by
  unfold spawn
  refine .get_bind (.ite (fun _ => .throw_bind _) fun _ => .ite (fun _ => .throw_bind _) fun _ => ?_)
  refine .bind_of_ok rfl ?_
  split
  · exact .bind fun _ _ _ => .throw _
  · exact .bind fun _ _ _ => .bind fun _ _ _ => .throw _
  · exact .bind_of_ok rfl (.bind_of_ok rfl (.bind_of_ok rfl (.pure rfl)))

theorem loadServerVolumeMounts_congr (h : u.serverVolumes = w.serverVolumes) :
    loadServerVolumeMounts u server.id = loadServerVolumeMounts w server.id := by
  rw [loadServerVolumeMounts, loadServerVolumeMounts, h]

structure Prepared (w : World) (server : Server) (u : World) : Prop where
  books : OffBooks w u
  serverVolumes : u.serverVolumes = w.serverVolumes
  gpuAllocations : u.gpuAllocations = (reserved w server).gpuAllocations
  nextUuid : u.nextUuid = (reserved w server).nextUuid

structure Remade (w : World) (server new : Server) (t : World) : Prop where
  books : OffBooks w t
  gpuAllocations : t.gpuAllocations = (reserved w server).gpuAllocations
  containerId : new.containerId = some (reserved w server).nextUuid
  volumeId : new.volumeId = primaryVolume (loadServerVolumeMounts w server.id)

theorem Prepared.cleared (h : Prepared w server u) (containers : List Container) :
    Prepared w server { u with containers := containers } where
  books := trans_of OffBooks h.books {}
  serverVolumes := h.serverVolumes
  gpuAllocations := h.gpuAllocations
  nextUuid := h.nextUuid

theorem delete_returns (containerId : Option Uuid) :
    Returns (Spawner.delete runtime containerId) u fun _ t => ∃ containers, t = { u with containers := containers } := by
  intro _ t hr
  rw [Exits.delete_run] at hr
  cases hr
  split
  · exact ⟨_, rfl⟩
  · exact ⟨u.containers, rfl⟩

theorem delete_raises (containerId : Option Uuid) {Q : Raise → World → Prop} :
    Raises (Spawner.delete runtime containerId) u Q := by
  intro _ _ hr
  rw [Exits.delete_run] at hr
  cases hr

theorem ensure_returns (containers : List Container) :
    Returns (ensureGpuDevices server.id (gpuCount w server)) { w with containers := containers } fun _ u =>
      devicesThere w server = true ∧ Prepared w server u := by
  intro a u hr
  obtain ⟨devices, hrun⟩ := ensureGpuDevices_run { w with containers := containers } server.id (gpuCount w server)
  rw [hrun] at hr
  have hlacks : lacksDevices { w with containers := containers } server.id (gpuCount w server) =
      lacksDevices w server.id (gpuCount w server) := rfl
  have hallocatable : allocatable { w with containers := containers } (gpuCount w server) =
      allocatable w (gpuCount w server) := rfl
  rw [hlacks, hallocatable] at hr
  split at hr
  next hmissing =>
    split at hr
    next hall =>
      cases hr
      refine ⟨by rw [devicesThere, hall, Bool.or_true], {}, rfl, ?_, ?_⟩
      · rw [reserved, if_pos hmissing]
        rfl
      · rw [reserved, if_pos hmissing]
        rfl
    · cases hr
  next howned =>
    cases hr
    refine ⟨by rw [devicesThere, Bool.eq_false_of_not_eq_true howned, Bool.not_false, Bool.true_or], {}, rfl, ?_, ?_⟩
    · rw [reserved, if_neg howned]
    · rw [reserved, if_neg howned]

theorem ensure_raises (containers : List Container) :
    Raises (ensureGpuDevices server.id (gpuCount w server)) { w with containers := containers } fun _ _ =>
      devicesThere w server = false := by
  intro raise u hr
  obtain ⟨devices, hrun⟩ := ensureGpuDevices_run { w with containers := containers } server.id (gpuCount w server)
  rw [hrun] at hr
  split at hr
  next hmissing =>
    split at hr
    · cases hr
    next hshort =>
      have hlacks : lacksDevices w server.id (gpuCount w server) = true := hmissing
      have hnone : allocatable w (gpuCount w server) = false := Bool.eq_false_of_not_eq_true hshort
      rw [devicesThere, hlacks, hnone]
      rfl
  · cases hr

theorem spawn_remade (h : Prepared w server u) (username : String) (devices : Option (List Device)) :
    Returns (spawn runtime (spawnRequestFor u server (planOf w server) username devices)) u fun new t =>
      (spawnFails runtime w (gpuCount w server) []).isNone = true ∧ Remade w server new t := by
  intro new t hr
  have hfails := spawn_runs runtime _ h.books.settings new t hr
  obtain ⟨hbooks, -⟩ := spawn_returns runtime _ u new t hr
  obtain ⟨-, hspawned, -⟩ := CreationAtomicity.spawn_spawned new t hr
  have hnew : new = serverRecord (spawnRequestFor u server (planOf w server) username devices) u.nextUuid u.now :=
    spawn_record new t hr
  refine ⟨Option.not_isSome_iff_eq_none.mp hfails ▸ rfl, trans_of OffBooks h.books hbooks, ?_, ?_, ?_⟩
  · exact hspawned.gpuAllocations.trans h.gpuAllocations
  · rw [hnew, ← h.nextUuid]
    rfl
  · rw [hnew, ← loadServerVolumeMounts_congr h.serverVolumes]
    rfl

theorem spawn_refused (h : Prepared w server u) (username : String) (devices : Option (List Device)) :
    Raises (spawn runtime (spawnRequestFor u server (planOf w server) username devices)) u fun _ _ =>
      (spawnFails runtime w (gpuCount w server) []).isNone = false := by
  intro raise t hr
  have hfails := spawn_fails runtime _ h.books.settings raise t hr
  exact Option.isNone_eq_false_iff.mpr hfails

theorem respawn_remade (containers : List Container) (username : String) :
    Returns (respawn runtime server (planOf w server) username) { w with containers := containers } fun new t =>
      canRemake w runtime server = true ∧ Remade w server new t := by
  refine .bind fun devices u hr => ?_
  obtain ⟨hthere, hprepared⟩ := ensure_returns containers devices u hr
  refine .get_bind fun new t hr' => ?_
  obtain ⟨hspawns, hremade⟩ := spawn_remade hprepared _ devices new t hr'
  exact ⟨by rw [canRemake, hthere, hspawns, Bool.and_self], hremade⟩

theorem respawn_refused (containers : List Container) (username : String) :
    Raises (respawn runtime server (planOf w server) username) { w with containers := containers } fun _ _ =>
      canRemake w runtime server = false := by
  refine .bind (fun raise t hr => ?_) fun devices u hr => .get_bind fun raise t hr' => ?_
  · rw [canRemake, ensure_raises containers raise t hr, Bool.false_and]
  · obtain ⟨-, hprepared⟩ := ensure_returns containers devices u hr
    rw [canRemake, spawn_refused hprepared _ devices raise t hr', Bool.and_false]

theorem respawnServerContainer_remade (username : String) :
    Returns (respawnServerContainer runtime server username) w fun new t =>
      canRemake w runtime server = true ∧ Remade w server new t := by
  refine .get_bind (.bind fun devices u hr => ?_)
  obtain ⟨hthere, hprepared⟩ := ensure_returns w.containers devices u hr
  have hspawn (containers : List Container) :
      Returns (do
        let v ← get
        spawn runtime (spawnRequestFor v server (planOf w server) (ownerName v server username) devices))
        { u with containers := containers } fun new t => canRemake w runtime server = true ∧ Remade w server new t := by
    refine .get_bind fun new t hr' => ?_
    obtain ⟨hspawns, hremade⟩ := spawn_remade (hprepared.cleared containers) _ devices new t hr'
    exact ⟨by rw [canRemake, hthere, hspawns, Bool.and_self], hremade⟩
  refine .ite (fun _ => .bind fun _ v hr' => ?_) fun _ => hspawn u.containers
  obtain ⟨containers, rfl⟩ := delete_returns _ _ v hr'
  exact hspawn containers

theorem respawnServerContainer_refused (username : String) :
    Raises (respawnServerContainer runtime server username) w fun _ _ => canRemake w runtime server = false := by
  refine .get_bind (.bind (fun raise t hr => ?_) fun devices u hr => ?_)
  · rw [canRemake, ensure_raises w.containers raise t hr, Bool.false_and]
  obtain ⟨-, hprepared⟩ := ensure_returns w.containers devices u hr
  have hspawn (containers : List Container) :
      Raises (do
        let v ← get
        spawn runtime (spawnRequestFor v server (planOf w server) (ownerName v server username) devices))
        { u with containers := containers } fun _ _ => canRemake w runtime server = false := by
    refine .get_bind fun raise t hr' => ?_
    rw [canRemake, spawn_refused (hprepared.cleared containers) _ devices raise t hr', Bool.and_false]
  refine .ite (fun _ => .bind (delete_raises _) fun _ v hr' => ?_) fun _ => hspawn u.containers
  obtain ⟨containers, rfl⟩ := delete_returns _ _ v hr'
  exact hspawn containers

end Remake

section Request

variable {w : World} {gate : Gate} {answers : Answers} {runtime : Runtime} {server : Server} {owner : User}

/-- The row of a server whose container is made again. -/
def remade (w : World) (server : Server) : Server :=
  { server with
    containerId := some (reserved w server).nextUuid
    volumeId := primaryVolume (loadServerVolumeMounts w server.id)
    status := .running
    startedAt := some w.now
    lastActivity := some w.now }

def requested (w : World) (server : Server) (owner : User) : Outcome :=
  ⟨some { remade w server with stopReason := none, stoppedAt := none, expiresAt := serverExpiry w owner },
    (quotaOf w server.userId).usage, (reserved w server).gpuAllocations⟩

theorem outcome_modify {v : World} (hfind : w.servers.find server.id = some server) (hv : OffBooks w v) (f : Server → Server)
    (hid : ∀ s, (f s).id = s.id) :
    outcome server { v with servers := v.servers.modify server.id f hid } =
      ⟨some (f server), (quotaOf w server.userId).usage, v.gpuAllocations⟩ := by
  have hrow : (v.servers.modify server.id f hid).find server.id = some (f server) :=
    Table.find_modify_self f hid (hv.servers ▸ hfind)
  rw [outcome, hrow, quotaOf, quotaOf, hv.quotas, hv.settings]

theorem ownerExpiry_run {v : World} (howner : w.users server.userId = some owner) (hv : OffBooks w v) :
    (ownerExpiry server).run v = .ok (serverExpiry w owner) v := by
  have hsame : v.users server.userId = some owner := by rw [hv.users, howner]
  have hexpiry : serverExpiry v owner = serverExpiry w owner := by
    rw [serverExpiry, serverExpiry, hv.settings, hv.now]
  rw [ownerExpiry, EStateM.run_bind, EStateM.run_get]
  dsimp only
  rw [hsame, ← hexpiry]
  rfl

theorem opened_run {v : World} {α : Type} (reply : α) (howner : w.users server.userId = some owner) (hv : OffBooks w v)
    (f : Instant → Option Instant → Server → Server) (hid : ∀ now expiry s, (f now expiry s).id = s.id) :
    (do
      let expiry ← ownerExpiry server
      let now ← utcNow
      modifyServer server.id (f now expiry) (hid now expiry)
      return reply : Handler α).run v =
        .ok reply { v with servers := v.servers.modify server.id (f w.now (serverExpiry w owner)) (hid _ _) } := by
  rw [EStateM.run_bind, ownerExpiry_run howner hv, ← hv.now]
  rfl

theorem recreate_remade (howner : w.users server.userId = some owner) (hfind : w.servers.find server.id = some server)
    (username : String) :
    Returns (recreate runtime server (planOf w server) username true) w fun _ t =>
      canRemake w runtime server = true ∧ outcome server t = requested w server owner := by
  unfold recreate
  rw [if_pos rfl]
  refine .bind fun _ v hr => .bind fun new u hr' => ?_
  obtain ⟨containers, rfl⟩ := delete_returns _ _ v hr
  obtain ⟨hcan, hremade⟩ := respawn_remade containers username new u hr'
  refine .bind_of_ok (ownerExpiry_run howner hremade.books) (.bind_of_ok rfl fun _ t hr'' => ?_)
  cases hr''
  refine ⟨hcan, (outcome_modify hfind hremade.books _ _).trans ?_⟩
  rw [hremade.gpuAllocations, hremade.books.now, recreatedFields, hremade.containerId, hremade.volumeId]
  rfl

theorem recreate_refused (howner : w.users server.userId = some owner) (username : String) :
    Raises (recreate runtime server (planOf w server) username true) w fun _ _ => canRemake w runtime server = false := by
  unfold recreate
  rw [if_pos rfl]
  refine .bind (delete_raises _) fun _ v hr => ?_
  obtain ⟨containers, rfl⟩ := delete_returns _ _ v hr
  refine .bind (respawn_refused containers username) fun new u hr' => ?_
  obtain ⟨-, hremade⟩ := respawn_remade containers username new u hr'
  exact .bind_of_ok (ownerExpiry_run howner hremade.books) fun _ _ hr'' => by cases hr''

theorem checkStart_passes :
    Returns (checkStart answers server) w fun plan t => startRefusal w answers server = none ∧ t = w ∧ plan = planOf w server := by
  refine .get_bind ?_
  cases startRefusal w answers server with
  | some raise => exact .throw _
  | none => exact .pure ⟨rfl, rfl, rfl⟩

theorem checkStart_refuses :
    Raises (checkStart answers server) w fun _ _ => startRefusal w answers server ≠ none := by
  refine .get_bind ?_
  cases startRefusal w answers server with
  | some raise => exact .throw (Option.some_ne_none raise)
  | none => exact .pure

/-- The container is made again unless it is paused, and the server needs no devices of its own. -/
theorem startable_some {containerId : Uuid} (hc : server.containerId = some containerId) (hstatus : runtime.status ≠ .running) :
    startable w runtime server =
      if runtime.status = .unknown ∨ runtime.status = .stopped ∨ gpuRequiresRecreate w server (planOf w server) = true then
        canRemake w runtime server
      else runtime.starts := by
  rw [startable, hc]
  dsimp only
  cases hs : runtime.status with
  | running => exact absurd hs hstatus
  | paused => simp
  | stopped => simp
  | unknown => simp

theorem performServerStart_returns (howner : w.users server.userId = some owner)
    (hfind : w.servers.find server.id = some server) (username : String) :
    Returns (performServerStart runtime answers server username) w fun _ t =>
      startRefusal w answers server = none ∧ startable w runtime server = true ∧
        (server.containerId.isSome = true → runtime.status = .stopped → outcome server t = requested w server owner) := by
  refine .bind fun plan v hr => ?_
  obtain ⟨hrefusal, rfl, rfl⟩ := checkStart_passes plan v hr
  cases hc : server.containerId with
  | some containerId =>
      refine returns_orServerError (.ite (fun hrunning => .pure ?_) fun hrunning => .get_bind (.ite (fun hremakes => ?_) fun hplain => ?_))
      · exact ⟨hrefusal, by rw [startable, hc, hrunning], fun _ hstopped => by rw [hrunning] at hstopped; cases hstopped⟩
      · refine .bind fun _ t hr' => .pure ?_
        obtain ⟨hcan, hleft⟩ := recreate_remade howner hfind username _ t hr'
        exact ⟨hrefusal, by rw [startable_some hc hrunning, if_pos hremakes, hcan], fun _ _ => hleft⟩
      · refine .ite (fun _ => .throw_bind _) fun hstarts => fun _ t hr' => ?_
        refine ⟨hrefusal, ?_, fun _ hstopped => absurd (.inr (.inl hstopped)) hplain⟩
        rw [startable_some hc hrunning, if_neg hplain]
        exact not_not.mp hstarts
  | none =>
      refine .get_bind ?_
      dsimp only
      split
      next environmentId planId henvironment hplan =>
        refine .ite (fun _ => .throw_bind _) fun hthere => .ite (fun _ => .throw_bind _) fun hknown => ?_
        refine returns_orServerError (.bind fun new u hr' => fun _ t _ => ?_)
        obtain ⟨hcan, -⟩ := respawn_remade v.containers username new u hr'
        refine ⟨hrefusal, ?_, fun hsome => by cases hsome⟩
        rw [startable, hc, configured, henvironment, hplan]
        dsimp only
        rw [hcan, Bool.and_true, Bool.and_eq_true]
        exact ⟨Option.isNone_eq_false_iff.mp (Bool.eq_false_of_not_eq_true hthere),
          Option.isNone_eq_false_iff.mp (Bool.eq_false_of_not_eq_true hknown)⟩
      · exact .throw _

theorem performServerStart_raises (howner : w.users server.userId = some owner)
    (hfind : w.servers.find server.id = some server) (username : String) :
    Raises (performServerStart runtime answers server username) w fun _ _ =>
      startRefusal w answers server ≠ none ∨ startable w runtime server = false := by
  refine .bind (fun raise t hr => .inl (checkStart_refuses raise t hr)) fun plan v hr => ?_
  obtain ⟨-, rfl, rfl⟩ := checkStart_passes plan v hr
  cases hc : server.containerId with
  | some containerId =>
      refine raises_orServerError (.ite (fun _ => .pure) fun hrunning => .get_bind (.ite (fun hremakes => ?_) fun hplain => ?_))
      · refine .bind (fun raise t hr' => .inr ?_) fun _ _ _ => .pure
        rw [startable_some hc hrunning, if_pos hremakes, recreate_refused howner username raise t hr']
      · refine .ite (fun hstarts => .throw_bind (.inr ?_)) fun _ => fun raise t hr' => ?_
        · rw [startable_some hc hrunning, if_neg hplain]
          exact Bool.eq_false_of_not_eq_true hstarts
        · rw [opened_run _ howner (refl_of OffBooks v) startedFields fun _ _ _ => rfl] at hr'
          cases hr'
  | none =>
      refine .get_bind ?_
      dsimp only
      split
      next environmentId planId henvironment hplan =>
        have hstartable : startable v runtime server =
            ((v.environments environmentId).isSome && (v.plans planId).isSome && canRemake v runtime server) := by
          rw [startable, hc, configured, henvironment, hplan]
        refine .ite (fun hnone => .throw_bind (.inr ?_)) fun _ => .ite (fun hnone => .throw_bind (.inr ?_)) fun _ => ?_
        · rw [hstartable, Option.isNone_iff_eq_none.mp hnone]
          rfl
        · rw [hstartable, Option.isNone_iff_eq_none.mp hnone, Option.isSome_none, Bool.and_false, Bool.false_and]
        · refine raises_orServerError (.bind (fun raise t hr' => .inr ?_) fun new u hr' => fun raise t hr'' => ?_)
          · rw [hstartable, respawn_refused v.containers username raise t hr', Bool.and_false]
          · obtain ⟨-, hremade⟩ := respawn_remade v.containers username new u hr'
            rw [opened_run _ howner hremade.books
              (fun now expiry s =>
                { recreatedFields new now expiry s with
                  allocatedCpu := new.allocatedCpu, allocatedMemory := new.allocatedMemory }) fun _ _ _ => rfl] at hr''
            cases hr''
      next hnone =>
        refine .throw (.inr ?_)
        rw [startable, hc, configured]
        dsimp only
        split
        next henvironment hplan => exact (hnone _ _ henvironment hplan).elim
        · rfl

theorem startServer_returns (howner : w.users server.userId = some owner)
    (hfind : w.servers.find server.id = some server) :
    Returns (startServer gate runtime answers server owner) w fun _ t =>
      requestStarts w gate answers runtime server = true ∧
        (server.containerId.isSome = true → runtime.status = .stopped → outcome server t = requested w server owner) := by
  have hlet (hadmits : admits gate = true) :
      Returns (performServerStart runtime answers server owner.username) w fun _ t =>
        requestStarts w gate answers runtime server = true ∧
          (server.containerId.isSome = true → runtime.status = .stopped → outcome server t = requested w server owner) := by
    intro reply t hr
    obtain ⟨hrefusal, hstartable, hleft⟩ := performServerStart_returns howner hfind owner.username reply t hr
    exact ⟨by rw [requestStarts, hadmits, hrefusal, hstartable]; rfl, hleft⟩
  unfold startServer dispatch
  refine .ite (fun hoff => hlet ?_) fun hon => .ite (fun hadmin => hlet ?_) fun _ => .ite (fun _ => .throw _) fun _ => .throw _
  · rw [admits, Bool.eq_false_of_not_eq_true hoff]
    rfl
  · rw [admits, hadmin, Bool.or_true]

theorem startServer_raises (howner : w.users server.userId = some owner)
    (hfind : w.servers.find server.id = some server) :
    Raises (startServer gate runtime answers server owner) w fun _ _ =>
      requestStarts w gate answers runtime server = false := by
  have hlet : Raises (performServerStart runtime answers server owner.username) w fun _ _ =>
      requestStarts w gate answers runtime server = false := by
    intro raise t hr
    rw [requestStarts]
    obtain hrefusal | hnot := performServerStart_raises howner hfind owner.username raise t hr
    · rw [Option.isNone_eq_false_iff.mpr (Option.isSome_iff_ne_none.mpr hrefusal), Bool.and_false, Bool.false_and]
    · rw [hnot, Bool.and_false]
  have hshut (hon : ¬ ¬ gate.maintenanceMode = true) (hadmin : ¬ gate.admin = true) :
      requestStarts w gate answers runtime server = false := by
    rw [requestStarts, admits, not_not.mp hon, Bool.eq_false_of_not_eq_true hadmin]
    rfl
  unfold startServer dispatch
  refine .ite (fun _ => hlet) fun hon => .ite (fun _ => hlet) fun hadmin => .ite (fun _ => .throw ?_) fun _ => .throw ?_
  · exact hshut hon hadmin
  · exact hshut hon hadmin

end Request

section Schedule

variable {w : World} {runtime : Runtime} {server : Server}

/-- Where a schedule's start leads: the stop it ends stays on record. -/
def scheduled (w : World) (server : Server) : Outcome :=
  if gpuRequiresRecreate w server none then
    ⟨some (remade w server), (quotaOf w server.userId).usage, (reserved w server).gpuAllocations⟩
  else
    ⟨some { server with status := .running, startedAt := some w.now, lastActivity := some w.now },
      (quotaOf w server.userId).usage, w.gpuAllocations⟩

theorem attempt_raises {α : Type} {body : Handler α} {Q : Raise → World → Prop} : Raises (attempt body) w Q := by
  intro raise t hr
  rw [attempt_run] at hr
  split at hr <;> cases hr

theorem attempt_returns {α : Type} {body : Handler α} {Q : Except Raise α → World → Prop}
    (hok : Returns body w fun a t => Q (.ok a) t) (herror : Raises body w fun raise t => Q (.error raise) t) :
    Returns (attempt body) w Q := by
  intro result t hr
  rw [attempt_run] at hr
  cases hrun : body.run w with
  | ok a u =>
      rw [hrun] at hr
      cases hr
      exact hok a t hrun
  | error raise u =>
      rw [hrun] at hr
      cases hr
      exact herror raise t hrun

theorem success_startReport : (startReport w runtime server).success =
    (server.containerId.isSome && decide (runtime.status = .stopped) &&
      (gpuRequiresRecreate w server none || runtime.starts)) := by
  unfold startReport
  cases server.containerId with
  | none => rfl
  | some containerId =>
      rw [if_neg (by simp)]
      split
      next hstatus =>
        rw [decide_eq_false hstatus]
        rfl
      next hstatus =>
        rw [decide_eq_true (not_not.mp hstatus)]
        split
        next hstarts => simpa [ScheduleResult.success] using hstarts
        next hstarts => simpa [ScheduleResult.success, not_or] using hstarts

theorem scheduledStart_leaves (hfind : w.servers.find server.id = some server) :
    Returns (scheduledStart runtime server) w fun _ t =>
      (startReport w runtime server).success = scheduleStarts w runtime server ∧
        (scheduleStarts w runtime server = true → outcome server t = scheduled w server) := by
  rw [success_startReport, scheduleStarts]
  refine .ite (fun hfound => ?_) fun hnone => .pure ?_
  · rw [hfound.1, decide_eq_true hfound.2]
    refine .get_bind (.get_bind (.ite (fun hgpu => .bind fun new v hr => fun _ t hr' => ?_) fun hplain => ?_))
    · obtain ⟨hcan, hremade⟩ := respawnServerContainer_remade server.name new v hr
      cases hr'
      rw [hgpu, if_pos rfl, hcan]
      refine ⟨rfl, fun _ => (outcome_modify hfind hremade.books _ _).trans ?_⟩
      rw [scheduled, if_pos hgpu, hremade.gpuAllocations, hremade.containerId, hremade.volumeId]
      rfl
    · rw [Bool.eq_false_of_not_eq_true hplain, if_neg Bool.false_ne_true, Bool.false_or]
      refine .ite (fun hstarts => fun _ t hr' => ?_) fun hstops => .pure ⟨rfl, fun hstarts => absurd hstarts hstops⟩
      cases hr'
      refine ⟨rfl, fun _ => (outcome_modify hfind (refl_of OffBooks w) _ _).trans ?_⟩
      rw [scheduled, if_neg hplain]
  · have hfalse : (server.containerId.isSome && decide (runtime.status = .stopped)) = false := by
      rw [Bool.and_eq_false_iff, decide_eq_false_iff_not, ← Bool.not_eq_true]
      exact not_and_or.mp hnone
    rw [hfalse]
    exact ⟨rfl, fun h => by cases h⟩

theorem scheduledStart_breaks :
    Raises (scheduledStart runtime server) w fun _ _ => scheduleStarts w runtime server = false := by
  rw [scheduleStarts]
  refine .ite (fun hfound => ?_) fun _ => .pure
  refine .get_bind (.get_bind (.ite (fun hgpu => .bind (fun raise t hr => ?_) fun new v hr => ?_) fun _ => .ite (fun _ => ?_) fun _ => .pure))
  · rw [if_pos hgpu, respawnServerContainer_refused server.name raise t hr, Bool.and_false]
  · exact fun _ _ hr' => by cases hr'
  · exact fun _ _ hr' => by cases hr'

theorem executeStart_returns (hfind : w.servers.find server.id = some server) :
    Returns (executeStart runtime server) w fun result t =>
      result.success = scheduleStarts w runtime server ∧
        (scheduleStarts w runtime server = true → outcome server t = scheduled w server) := by
  refine .get_bind (.bind fun result t hr => ?_)
  have h := attempt_returns (Q := fun result t =>
      match result with
      | .ok _ => (startReport w runtime server).success = scheduleStarts w runtime server ∧
          (scheduleStarts w runtime server = true → outcome server t = scheduled w server)
      | .error _ => scheduleStarts w runtime server = false)
    (scheduledStart_leaves hfind) scheduledStart_breaks result t hr
  cases result with
  | ok a => exact .pure h
  | error raise =>
      refine .pure ⟨h.symm, fun hstarts => ?_⟩
      rw [h] at hstarts
      cases hstarts

theorem executeStart_raises {Q : Raise → World → Prop} : Raises (executeStart runtime server) w Q := by
  refine .get_bind (.bind attempt_raises fun result t _ => ?_)
  cases result <;> exact .pure

end Schedule

section Agreement

variable {w : World} {gate : Gate} {answers : Answers} {runtime : Runtime} {server : Server} {owner : User}

theorem started_eq {α : Type} {succeeded : α → Bool} {m : Handler α} {starts : Bool} {left : Outcome}
    (hreturns : Returns m w fun a t => succeeded a = starts ∧ (starts = true → outcome server t = left))
    (hraises : Raises m w fun _ _ => starts = false) :
    started server succeeded m w = if starts then some left else none := by
  rw [started]
  cases hr : m.run w with
  | ok a t =>
      obtain ⟨hsucceeded, hleft⟩ := hreturns a t hr
      dsimp only
      rw [hsucceeded]
      cases starts with
      | true => rw [hleft rfl]
      | false => rfl
  | error raise t =>
      rw [hraises raise t hr]
      rfl

theorem started_executeStart (hfind : w.servers.find server.id = some server) :
    started server ScheduleResult.success (executeStart runtime server) w =
      if scheduleStarts w runtime server then some (scheduled w server) else none :=
  started_eq (executeStart_returns hfind) executeStart_raises

theorem isSome_started_startServer (howner : w.users server.userId = some owner)
    (hfind : w.servers.find server.id = some server) :
    (started server (fun _ => true) (startServer gate runtime answers server owner) w).isSome =
      requestStarts w gate answers runtime server := by
  rw [started]
  cases hr : (startServer gate runtime answers server owner).run w with
  | ok reply t => exact (startServer_returns howner hfind reply t hr).1.symm
  | error raise t => exact (startServer_raises howner hfind raise t hr).symm

theorem started_startServer (howner : w.users server.userId = some owner)
    (hfind : w.servers.find server.id = some server) (hcontainer : server.containerId.isSome = true)
    (hstopped : runtime.status = .stopped) :
    started server (fun _ => true) (startServer gate runtime answers server owner) w =
      if requestStarts w gate answers runtime server then some (requested w server owner) else none := by
  apply started_eq
  · intro reply t hr
    obtain ⟨hstarts, hleft⟩ := startServer_returns howner hfind reply t hr
    exact ⟨hstarts.symm, fun _ => hleft hcontainer hstopped⟩
  · exact startServer_raises howner hfind

theorem scheduleStarts_iff : scheduleStarts w runtime server = true ↔
    server.containerId.isSome = true ∧ runtime.status = .stopped ∧
      (if gpuRequiresRecreate w server none then canRemake w runtime server else runtime.starts) = true := by
  rw [scheduleStarts, Bool.and_eq_true, Bool.and_eq_true, decide_eq_true_eq, and_assoc]

theorem requestStarts_iff : requestStarts w gate answers runtime server = true ↔
    admits gate = true ∧ startRefusal w answers server = none ∧ startable w runtime server = true := by
  rw [requestStarts, Bool.and_eq_true, Bool.and_eq_true, Option.isNone_iff_eq_none, and_assoc]

theorem nextUuid_le_reserved (w : World) (server : Server) : w.nextUuid ≤ (reserved w server).nextUuid := by
  rw [reserved]
  split
  · exact Nat.le_add_right _ _
  · exact le_rfl

theorem scheduled_ne_requested (hfresh : ∀ containerId ∈ server.containerId, containerId < w.nextUuid)
    (hplain : gpuRequiresRecreate w server none = false) : scheduled w server ≠ requested w server owner := by
  intro h
  rw [scheduled, hplain, if_neg Bool.false_ne_true] at h
  have hcontainer : server.containerId = some (reserved w server).nextUuid :=
    congrArg Server.containerId (Option.some.inj (congrArg Outcome.row h))
  exact absurd (hfresh _ hcontainer) (not_lt.mpr (nextUuid_le_reserved w server))

theorem scheduled_eq_requested_iff (hgpu : gpuRequiresRecreate w server none = true) :
    scheduled w server = requested w server owner ↔
      server.stoppedAt = none ∧ server.stopReason = none ∧ server.expiresAt = serverExpiry w owner := by
  rw [scheduled, hgpu, if_pos rfl, requested]
  constructor
  · intro h
    have hrow := Option.some.inj (congrArg Outcome.row h)
    exact ⟨congrArg Server.stoppedAt hrow, congrArg Server.stopReason hrow, congrArg Server.expiresAt hrow⟩
  · rintro ⟨hstopped, hreason, hexpires⟩
    rw [← hexpires, ← hreason]
    nth_rewrite 1 [← hstopped]
    rfl

end Agreement

/-- A server of an owner without credits, on a plan that costs, stopped with its container kept. -/
def idleServer : Server := { newServer 5 1 3 6 "lab" 0 with status := .stopped, stoppedAt := some hour }

def idleOwner : User := { newUser "ada" with nukeBalance := 0 }

def idleWorld (owner : User) (server : Server) : World :=
  { blankWorld with
    now := 2 * hour
    settings := { blankWorld.settings with gpuDeviceList := ["nvidia.com/gpu=0"] }
    users := fun u => if u = 1 then some owner else none
    plans := fun p => if p = 3 then some (newPlan "small" 7) else none
    environments := fun e => if e = 4 then some ⟨"dev", "lab:latest", none⟩ else none
    servers := (Table.empty Server.id).insert server }

def openGate : Gate := ⟨false, "", false, false⟩

end NukeLab.ScheduledStarts
