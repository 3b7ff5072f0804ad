import NukeLab.Settlement

namespace NukeLab.Launches

open Program Tables Quantities Records State Ledger GpuAllocator Quota Spawner Billing Lifecycle

/-- Nothing that billing and quota read has changed: only containers, Docker
volumes, device rows and the next identifier may have. -/
structure OffBooks (w w' : World) : Prop where
  now : w'.now = w.now := by rfl
  settings : w'.settings = w.settings := by rfl
  users : w'.users = w.users := by rfl
  plans : w'.plans = w.plans := by rfl
  servers : w'.servers = w.servers := by rfl
  transactions : w'.transactions = w.transactions := by rfl
  quotas : w'.quotas = w.quotas := by rfl
  nextUuid : w.nextUuid ≤ w'.nextUuid := by first | exact Nat.le_refl _ | exact Nat.le_add_right _ _

instance : IsPreorder World OffBooks where
  refl _ := ⟨rfl, rfl, rfl, rfl, rfl, rfl, rfl, le_rfl⟩
  trans _ _ _ h h' :=
    ⟨h'.now.trans h.now, h'.settings.trans h.settings, h'.users.trans h.users, h'.plans.trans h.plans,
      h'.servers.trans h.servers, h'.transactions.trans h.transactions, h'.quotas.trans h.quotas,
      h.nextUuid.trans h'.nextUuid⟩

section Frame

theorem offBooks_modify {f : World → World}
    (h : ∀ w, OffBooks w (f w)) : Moves OffBooks (modify f : Handler PUnit) := .modify h

theorem delete_offBooks (runtime : Runtime) (containerId : Option Uuid) :
    Moves OffBooks (Spawner.delete runtime containerId) := by
  unfold Spawner.delete
  exact .ite (.bind (offBooks_modify fun _ => ⟨rfl, rfl, rfl, rfl, rfl, rfl, rfl, le_rfl⟩) fun _ => .pure _) (.pure _)

theorem allocate_offBooks (serverId : Uuid) (count : Int) : Moves OffBooks (allocate serverId count) := by
  intro w
  rw [allocate, final_get_bind]
  by_cases hnone : count ≤ 0 ∨ ¬ enabled w.settings
  · rw [if_pos hnone]
    exact refl_of OffBooks w
  rw [if_neg hnone]
  dsimp only
  split
  · exact refl_of OffBooks w
  · split
    · exact refl_of OffBooks w
    · exact ⟨rfl, rfl, rfl, rfl, rfl, rfl, rfl, Nat.le_add_right _ _⟩

theorem ensureGpuDevices_offBooks (serverId : Uuid) (gpuCount : Int) :
    Moves OffBooks (ensureGpuDevices serverId gpuCount) := by
  unfold ensureGpuDevices
  refine .bind .get fun w => .ite (.pure _) (.bind (.of_final_eq fun _ => rfl) fun devices => .ite (.pure _) ?_)
  refine .bind (allocate_offBooks _ _) fun devices => ?_
  cases devices with
  | none => exact .throw _
  | some devices => exact .pure _

theorem ensureVolumes_offBooks (names : List String) : Moves OffBooks (ensureVolumes names) :=
  offBooks_modify fun _ => ⟨rfl, rfl, rfl, rfl, rfl, rfl, rfl, le_rfl⟩

/-- A spawn changes containers and volumes at the daemon, and draws an identifier. -/
theorem spawn_moves {R : World → World → Prop} [IsPreorder World R]
    (hR : ∀ w nextUuid containers dockerVolumes, w.nextUuid ≤ nextUuid →
      R w { w with nextUuid := nextUuid, containers := containers, dockerVolumes := dockerVolumes })
    (runtime : Runtime) (request : SpawnRequest) : Moves R (spawn runtime request) := by
  have hid : Moves R newUuid := fun w => hR w _ w.containers w.dockerVolumes (Nat.le_succ _)
  have hnamed (name : String) : Moves R (removeNamed name) :=
    .modify fun w => hR w w.nextUuid _ w.dockerVolumes le_rfl
  have hvolumes (names : List String) : Moves R (ensureVolumes names) :=
    .modify fun w => hR w w.nextUuid w.containers _ le_rfl
  unfold spawn
  refine .bind .get fun w => .ite (.bind (.throw _) fun _ => ?_) ?_
  all_goals
    refine .ite (.bind (.throw _) fun _ => ?_) ?_
    all_goals
      refine .bind (hnamed _) fun _ => ?_
      dsimp only
      split
      · exact .bind (hvolumes _) fun _ => .throw _
      · exact .bind (hvolumes _) fun _ => .bind (hnamed _) fun _ => .throw _
      · refine .bind (hvolumes _) fun _ => .bind hid fun _ => ?_
        exact .bind (.modify fun w => hR w w.nextUuid _ w.dockerVolumes le_rfl) fun _ => .pure _

theorem spawn_offBooks (runtime : Runtime) (request : SpawnRequest) : Moves OffBooks (spawn runtime request) :=
  spawn_moves (fun _ _ _ _ h => ⟨rfl, rfl, rfl, rfl, rfl, rfl, rfl, h⟩) runtime request

theorem spawn_returns (runtime : Runtime) (request : SpawnRequest) (w : World) :
    Returns (spawn runtime request) w fun new w' =>
      OffBooks w w' ∧ ∃ containerId, new = serverRecord request containerId w.now := by
  intro new w' hr
  refine ⟨final_of_ok hr ▸ spawn_offBooks runtime request w, ?_⟩
  revert new w' hr
  show Returns _ _ _
  unfold spawn
  refine .get_bind (.ite (fun _ => .throw_bind _) fun _ => .ite (fun _ => .throw_bind _) fun _ => ?_)
  refine .bind fun _ _ _ => ?_
  dsimp only
  split
  · exact .bind fun _ _ _ => .throw _
  · exact .bind fun _ _ _ => .bind fun _ _ _ => .throw _
  · exact .bind fun _ _ _ => .bind fun containerId _ _ => .bind fun _ _ _ => .pure ⟨containerId, rfl⟩

/-- A respawn hands back a container record with the plan's limits, or the
server's own allocation where there is no plan. -/
def Respawned (server : Server) (plan : Option ServerPlan) (w : World) (new : Server) (w' : World) : Prop :=
  OffBooks w w' ∧ new.allocatedCpu = (plan.map ServerPlan.cpuLimit).getD server.allocatedCpu ∧
    new.allocatedMemory = (plan.map ServerPlan.memoryLimit).getD server.allocatedMemory

theorem respawn_returns (runtime : Runtime) (server : Server) (plan : Option ServerPlan) (fallback : String)
    (w : World) : Returns (respawn runtime server plan fallback) w (Respawned server plan w) := by
  refine .bind_moves (ensureGpuDevices_offBooks _ _) fun devices v hv => .get_bind ?_
  intro new w' hr
  obtain ⟨hw', containerId, rfl⟩ := spawn_returns _ _ v new w' hr
  exact ⟨trans_of OffBooks hv hw', rfl, rfl⟩

theorem respawn_containerId (runtime : Runtime) (server : Server) (plan : Option ServerPlan) (fallback : String) (w : World) :
    Returns (respawn runtime server plan fallback) w fun new _ => new.containerId.isSome = true := by
  refine .bind fun devices v _ => .get_bind fun new w' hr => ?_
  obtain ⟨-, containerId, rfl⟩ := spawn_returns _ _ v new w' hr
  rfl

theorem respawnServerContainer_offBooks (runtime : Runtime) (server : Server) (fallback : String) :
    Moves OffBooks (respawnServerContainer runtime server fallback) := by
  unfold respawnServerContainer
  refine .bind .get fun _ => .bind (ensureGpuDevices_offBooks _ _) fun _ => .ite ?_ ?_
  · exact .bind (delete_offBooks _ _) fun _ => .bind .get fun _ => spawn_offBooks _ _
  · exact .bind .get fun _ => spawn_offBooks _ _

theorem checkStart_returns (w : World) (answers : Answers) (server : Server) :
    Returns (checkStart answers server) w fun plan w' => w' = w ∧ plan = planOf w server := by
  refine .get_bind ?_
  cases startRefusal w answers server with
  | some raise => exact .throw _
  | none => exact .pure ⟨rfl, rfl⟩

theorem ownerExpiry_offBooks (server : Server) : Moves OffBooks (ownerExpiry server) := by
  refine .bind .get fun w => ?_
  cases w.users server.userId with
  | none => exact .throw _
  | some owner => exact .pure _

theorem ownerExpiry_returns {w v : World} (server : Server) (hv : OffBooks w v) :
    Returns (ownerExpiry server) v fun expiry t => t = v ∧ expiry = (w.users server.userId).bind (serverExpiry w) := by
  refine .get_bind ?_
  rw [hv.users]
  cases w.users server.userId with
  | none => exact .throw _
  | some owner =>
      refine .pure ⟨rfl, ?_⟩
      rw [Option.bind_some, serverExpiry, serverExpiry, hv.settings, hv.now]

end Frame

inductive StartPath
  | start (answers : Answers) (username : String)
  | restart (answers : Answers) (username : String)
  | scheduledStart
  | scheduledRestart

def launch (path : StartPath) (runtime : Runtime) (server : Server) : Handler Unit :=
  match path with
  | .start answers username => do
    let _ ← performServerStart runtime answers server username
  | .restart answers username => do
    let _ ← performServerRestart runtime answers server username
  | .scheduledStart => Lifecycle.scheduledStart runtime server
  | .scheduledRestart => Lifecycle.scheduledRestart runtime server

/-- Whether a start that raises nothing begins a session. A start that finds the
container running, and a schedule that does not apply, do nothing. -/
def begins (path : StartPath) (w : World) (runtime : Runtime) (server : Server) : Bool :=
  match path with
  | .start _ _ => server.containerId.isNone || runtime.status != .running
  | .restart _ _ => true
  | .scheduledStart =>
    server.containerId.isSome && runtime.status == .stopped && (gpuRequiresRecreate w server none || runtime.starts)
  | .scheduledRestart =>
    server.containerId.isSome && server.status == .running &&
      (gpuRequiresRecreate w server none || runtime.stops && runtime.starts)

/-- What the server counts for after a start: only a start without a container
takes the limits of the plan over into the row. -/
def launchedUsage (path : StartPath) (w : World) (server : Server) : Usage :=
  match path, server.containerId with
  | .start _ _, none =>
    { serverUsage server with
      cpu := ((planOf w server).map ServerPlan.cpuLimit).getD server.allocatedCpu
      memoryMb := ((planOf w server).map ServerPlan.memoryLimit).getD server.allocatedMemory }
  | _, _ => serverUsage server

/-- A row edit that opens a run session at `now`. -/
structure OpensSession (now : Instant) (f : Server → Server) : Prop where
  userId : ∀ s, (f s).userId = s.userId := by intro _; rfl
  planId : ∀ s, (f s).planId = s.planId := by intro _; rfl
  startedAt : ∀ s, (f s).startedAt = some now := by intro _; rfl
  totalCost : ∀ s, (f s).totalCost = s.totalCost := by intro _; rfl

inductive Launched (server : Server) (usage : Usage) (w : World) : World → Prop
  | opened {v : World} (f : Server → Server) (hid : ∀ s, (f s).id = s.id) (hv : OffBooks w v)
      (hf : OpensSession w.now f) (hstatus : (f server).status = .running) (husage : serverUsage (f server) = usage) :
      Launched server usage w { v with servers := v.servers.modify server.id f hid }

/-- The row of a server that runs, nothing left on it of the stop before. -/
structure Reset (expiry : Option Instant) (row : Server) : Prop where
  status : row.status = .running := by rfl
  containerId : row.containerId.isSome = true
  stopReason : row.stopReason = none := by rfl
  stoppedAt : row.stoppedAt = none := by rfl
  expiresAt : row.expiresAt = expiry := by rfl

inductive Requested (server : Server) (usage : Usage) (w : World) : World → Prop
  | opened {v : World} (f : Server → Server) (hid : ∀ s, (f s).id = s.id) (hv : OffBooks w v)
      (hf : OpensSession w.now f) (hrow : Reset ((w.users server.userId).bind (serverExpiry w)) (f server))
      (husage : serverUsage (f server) = usage) :
      Requested server usage w { v with servers := v.servers.modify server.id f hid }

theorem Requested.launched {server : Server} {usage : Usage} {w w' : World} (h : Requested server usage w w') :
    Launched server usage w w' := by
  cases h with
  | opened f hid hv hf hrow husage => exact .opened f hid hv hf hrow.status husage

section Paths

variable {w : World} {runtime : Runtime} {server : Server}

theorem returns_orServerError {α : Type} {detail : String} {body : Handler α} {Q : α → World → Prop}
    (h : Returns body w Q) : Returns (orServerError detail body) w Q := by
  refine .tryCatch h fun raise t => ?_
  cases raise with
  | http status text => exact .throw _
  | exception text => exact .throw _

/-- The last steps of every start and restart by request: the owner's expiry,
the time, the row. -/
theorem returns_opened {v : World} {usage : Usage} {α : Type} (reply : α) (hv : OffBooks w v)
    (f : Instant → Option Instant → Server → Server) (hid : ∀ now expiry s, (f now expiry s).id = s.id)
    (hf : ∀ now expiry, OpensSession now (f now expiry)) (hrow : ∀ now expiry, Reset expiry (f now expiry server))
    (husage : ∀ now expiry, serverUsage (f now expiry server) = usage) :
    Returns (do
      let expiry ← ownerExpiry server
      let now ← utcNow
      modifyServer server.id (f now expiry) (hid now expiry)
      return reply) v fun _ w' => Requested server usage w w' := by
  refine .bind fun expiry v' hr => ?_
  obtain ⟨rfl, rfl⟩ := ownerExpiry_returns server hv expiry v' hr
  intro a t hr'
  cases hr'
  exact .opened _ (hid _ _) hv (hv.now ▸ hf v'.now _) (hrow _ _) (husage _ _)

theorem recreate_returns {plan : Option ServerPlan} (fallback : String) (removeOld : Bool) :
    Returns (recreate runtime server plan fallback removeOld) w fun _ w' =>
      Requested server (serverUsage server) w w' := by
  have hrest {v : World} (hv : OffBooks w v) :
      Returns (do
        let new ← respawn runtime server plan fallback
        let expiry ← ownerExpiry server
        let now ← utcNow
        modifyServer server.id (recreatedFields new now expiry)) v fun _ w' =>
          Requested server (serverUsage server) w w' := by
    refine .bind fun new v' hr => ?_
    have hv' := trans_of OffBooks hv (respawn_returns runtime server plan fallback v new v' hr).1
    have hnew := respawn_containerId runtime server plan fallback v new v' hr
    exact returns_opened () hv' _ _ (fun _ _ => ⟨fun _ => rfl, fun _ => rfl, fun _ => rfl, fun _ => rfl⟩) (fun _ _ => ⟨rfl, hnew, rfl, rfl, rfl⟩) fun _ _ => rfl
  unfold recreate
  exact .ite (fun _ => .bind_moves (delete_offBooks _ _) fun _ v hv => hrest hv) fun _ => hrest (refl_of OffBooks w)

theorem start_returns {answers : Answers} {username : String}
    (hbegins : begins (.start answers username) w runtime server = true) :
    Returns (performServerStart runtime answers server username) w fun _ w' =>
      Requested server (launchedUsage (.start answers username) w server) w w' := by
  refine .bind fun plan w' hr => ?_
  obtain ⟨rfl, rfl⟩ := checkStart_returns _ _ _ _ _ hr
  cases hc : server.containerId with
  | some containerId =>
      have hne : runtime.status ≠ .running := by simpa [begins, hc] using hbegins
      have hsome : server.containerId.isSome = true := by rw [hc]; rfl
      simp only [launchedUsage, hc]
      refine returns_orServerError (.ite (fun h => absurd h hne) fun _ => .get_bind ?_)
      refine .ite (fun _ => .bind fun _ _ hr => .pure (recreate_returns _ _ _ _ hr)) fun _ => ?_
      refine .ite (fun _ => .throw_bind _) fun _ => ?_
      exact returns_opened _ (refl_of OffBooks w') _ _ (fun _ _ => ⟨fun _ => rfl, fun _ => rfl, fun _ => rfl, fun _ => rfl⟩) (fun _ _ => ⟨rfl, hsome, rfl, rfl, rfl⟩) fun _ _ => rfl
  | none =>
      refine .get_bind ?_
      dsimp only
      split
      · refine .ite (fun _ => .throw_bind _) fun _ => .ite (fun _ => .throw_bind _) fun _ => ?_
        refine returns_orServerError (.bind fun new v hr => ?_)
        obtain ⟨hv, hcpu, hmemory⟩ := respawn_returns _ _ _ _ _ _ _ hr
        have hnew := respawn_containerId _ _ _ _ _ new v hr
        refine returns_opened _ hv _ _ (fun _ _ => ⟨fun _ => rfl, fun _ => rfl, fun _ => rfl, fun _ => rfl⟩) (fun _ _ => ⟨rfl, hnew, rfl, rfl, rfl⟩) fun _ _ => ?_
        simp only [launchedUsage, hc, ← hcpu, ← hmemory]
        rfl
      · exact .throw _

theorem restart_returns {answers : Answers} {username : String} :
    Returns (performServerRestart runtime answers server username) w fun _ w' =>
      Requested server (serverUsage server) w w' := by
  refine .bind fun plan w' hr => ?_
  obtain ⟨rfl, rfl⟩ := checkStart_returns _ _ _ _ _ hr
  cases hc : server.containerId with
  | none => exact .throw _
  | some containerId =>
      have hsome : server.containerId.isSome = true := by rw [hc]; rfl
      refine returns_orServerError (.get_bind ?_)
      refine .ite (fun _ => .bind fun _ _ hr => .pure (recreate_returns _ _ _ _ hr)) fun _ => ?_
      refine .ite (fun _ => .throw_bind _) fun _ => .ite (fun _ => .throw_bind _) fun _ => ?_
      exact returns_opened _ (refl_of OffBooks w') _ _ (fun _ _ => ⟨fun _ => rfl, fun _ => rfl, fun _ => rfl, fun _ => rfl⟩) (fun _ _ => ⟨rfl, hsome, rfl, rfl, rfl⟩) fun _ _ => rfl

theorem returns_edited {v : World} {usage : Usage} (hv : OffBooks w v) (f : Server → Server)
    (hid : ∀ s, (f s).id = s.id) (hf : OpensSession w.now f) (hstatus : (f server).status = .running)
    (husage : serverUsage (f server) = usage) :
    Returns (modifyServer server.id f hid) v fun _ w' => Launched server usage w w' := by
  rintro _ _ ⟨⟩
  exact .opened f hid hv hf hstatus husage

theorem scheduledStart_returns (hbegins : begins .scheduledStart w runtime server = true) :
    Returns (Lifecycle.scheduledStart runtime server) w fun _ w' => Launched server (serverUsage server) w w' := by
  obtain ⟨⟨hc, hs⟩, hstarts⟩ : (server.containerId.isSome = true ∧ runtime.status = .stopped) ∧
      (gpuRequiresRecreate w server none = true ∨ runtime.starts = true) := by
    simpa [begins] using hbegins
  rw [Lifecycle.scheduledStart, if_pos ⟨hc, hs⟩]
  refine .get_bind (.get_bind (.ite (fun _ => .bind fun new v hr => ?_) fun hno => ?_))
  · have hv := final_of_ok hr ▸ respawnServerContainer_offBooks runtime server server.name w
    exact returns_edited hv _ _ ⟨fun _ => rfl, fun _ => rfl, fun _ => rfl, fun _ => rfl⟩ rfl rfl
  · rw [if_pos (hstarts.resolve_left hno)]
    exact returns_edited (refl_of OffBooks w) _ _ ⟨fun _ => rfl, fun _ => rfl, fun _ => rfl, fun _ => rfl⟩ rfl rfl

theorem scheduledRestart_returns (hbegins : begins .scheduledRestart w runtime server = true) :
    Returns (Lifecycle.scheduledRestart runtime server) w fun _ w' => Launched server (serverUsage server) w w' := by
  obtain ⟨⟨hc, hs⟩, hrestarts⟩ : (server.containerId.isSome = true ∧ server.status = .running) ∧
      (gpuRequiresRecreate w server none = true ∨ runtime.stops = true ∧ runtime.starts = true) := by
    simpa [begins] using hbegins
  rw [Lifecycle.scheduledRestart, if_pos ⟨hc, hs⟩]
  refine .get_bind (.get_bind (.ite (fun _ => .bind fun new v hr => ?_) fun hno => ?_))
  · have hv := final_of_ok hr ▸ respawnServerContainer_offBooks runtime server server.name w
    exact returns_edited hv _ _ ⟨fun _ => rfl, fun _ => rfl, fun _ => rfl, fun _ => rfl⟩ hs rfl
  · obtain ⟨hstops, hstarts⟩ := hrestarts.resolve_left hno
    rw [if_pos hstops, if_pos hstarts]
    exact returns_edited (refl_of OffBooks w) _ _ ⟨fun _ => rfl, fun _ => rfl, fun _ => rfl, fun _ => rfl⟩ hs rfl

/-- Every way of beginning a session opens it on the row, and changes nothing
else that billing and quota read. -/
theorem launch_returns (path : StartPath) (hbegins : begins path w runtime server = true) :
    Returns (launch path runtime server) w fun _ w' => Launched server (launchedUsage path w server) w w' := by
  cases path with
  | start answers username => exact .bind fun _ _ hr => .pure (start_returns hbegins _ _ hr).launched
  | restart answers username => exact .bind fun _ _ hr => .pure (restart_returns _ _ hr).launched
  | scheduledStart => exact scheduledStart_returns hbegins
  | scheduledRestart => exact scheduledRestart_returns hbegins

theorem raises_orServerError {α : Type} {detail : String} {body : Handler α} {Q : World → Prop}
    (h : Raises body w fun _ t => Q t) : Raises (orServerError detail body) w fun _ t => Q t := by
  refine .tryCatch fun raise t hr => ?_
  cases raise with
  | http status text => exact .throw (h _ t hr)
  | exception text => exact .throw (h _ t hr)

theorem raises_opened {v : World} {α : Type} (reply : α) (hv : OffBooks w v)
    (f : Instant → Option Instant → Server → Server) (hid : ∀ now expiry s, (f now expiry s).id = s.id) :
    Raises (do
      let expiry ← ownerExpiry server
      let now ← utcNow
      modifyServer server.id (f now expiry) (hid now expiry)
      return reply) v fun _ t => OffBooks w t :=
  .bind_moves (ownerExpiry_offBooks server) (fun _ _ h => trans_of OffBooks hv h) fun _ _ _ => fun _ _ hr => nomatch hr

theorem respawn_offBooks (plan : Option ServerPlan) (fallback : String) :
    Moves OffBooks (respawn runtime server plan fallback) :=
  .bind (ensureGpuDevices_offBooks _ _) fun _ => .bind .get fun _ => spawn_offBooks _ _

theorem recreate_raises {plan : Option ServerPlan} (fallback : String) (removeOld : Bool) :
    Raises (recreate runtime server plan fallback removeOld) w fun _ t => OffBooks w t := by
  have hrest {v : World} (hv : OffBooks w v) :
      Raises (do
        let new ← respawn runtime server plan fallback
        let expiry ← ownerExpiry server
        let now ← utcNow
        modifyServer server.id (recreatedFields new now expiry)) v fun _ t => OffBooks w t :=
    .bind_moves (respawn_offBooks plan fallback) (fun _ _ h => trans_of OffBooks hv h) fun new v' h =>
      raises_opened () (trans_of OffBooks hv h) (recreatedFields new) fun _ _ _ => rfl
  unfold recreate
  refine .ite (fun _ => ?_) fun _ => hrest (refl_of OffBooks w)
  exact .bind_moves (delete_offBooks _ _) (fun _ _ h => h) fun _ v hv => hrest hv

theorem checkStart_offBooks (answers : Answers) (server : Server) : Moves OffBooks (checkStart answers server) := by
  refine .bind .get fun w => ?_
  cases startRefusal w answers server with
  | some raise => exact .throw _
  | none => exact .pure _

theorem start_raises {answers : Answers} {username : String} :
    Raises (performServerStart runtime answers server username) w fun _ t => OffBooks w t := by
  refine .bind (.of_moves (checkStart_offBooks answers server)) fun plan w' hr => ?_
  obtain ⟨rfl, rfl⟩ := checkStart_returns _ _ _ _ _ hr
  cases server.containerId with
  | some containerId =>
      refine raises_orServerError (.ite (fun _ => .pure) fun _ => .get_bind ?_)
      refine .ite (fun _ => .bind (recreate_raises _ _) fun _ _ _ => .pure) fun _ => ?_
      refine .ite (fun _ => .throw_bind (refl_of OffBooks w')) fun _ => ?_
      exact raises_opened _ (refl_of OffBooks w') startedFields fun _ _ _ => rfl
  | none =>
      refine .get_bind ?_
      dsimp only
      split
      · refine .ite (fun _ => .throw_bind (refl_of OffBooks w')) fun _ => ?_
        refine .ite (fun _ => .throw_bind (refl_of OffBooks w')) fun _ => raises_orServerError ?_
        refine .bind_moves (respawn_offBooks _ _) (fun _ _ h => h) fun new v hv => ?_
        exact raises_opened _ hv
          (fun now expiry s =>
            { recreatedFields new now expiry s with
              allocatedCpu := new.allocatedCpu, allocatedMemory := new.allocatedMemory }) fun _ _ _ => rfl
      · exact .throw (refl_of OffBooks w')

theorem restart_raises {answers : Answers} {username : String} :
    Raises (performServerRestart runtime answers server username) w fun _ t => OffBooks w t := by
  refine .bind (.of_moves (checkStart_offBooks answers server)) fun plan w' hr => ?_
  obtain ⟨rfl, rfl⟩ := checkStart_returns _ _ _ _ _ hr
  cases server.containerId with
  | none => exact .throw (refl_of OffBooks w')
  | some containerId =>
      refine raises_orServerError (.get_bind ?_)
      refine .ite (fun _ => .bind (recreate_raises _ _) fun _ _ _ => .pure) fun _ => ?_
      refine .ite (fun _ => .throw_bind (refl_of OffBooks w')) fun _ => ?_
      refine .ite (fun _ => .throw_bind (refl_of OffBooks w')) fun _ => ?_
      exact raises_opened _ (refl_of OffBooks w') startedFields fun _ _ _ => rfl

theorem launch_raises (path : StartPath) : Raises (launch path runtime server) w fun _ t => OffBooks w t := by
  have hwrites {v : World} (f : Server → Server) (hid : ∀ s, (f s).id = s.id) :
      Raises (modifyServer server.id f hid) v fun _ t => OffBooks w t := fun _ _ hr => nomatch hr
  have hrespawn (f : Server → Server → Server) (hid : ∀ new s, (f new s).id = s.id) :
      Raises (do
        let new ← respawnServerContainer runtime server server.name
        modifyServer server.id (f new) (hid new)) w fun _ t => OffBooks w t :=
    .bind_moves (respawnServerContainer_offBooks _ _ _) (fun _ _ h => h) fun _ _ _ => hwrites _ _
  cases path with
  | start answers username => exact .bind start_raises fun _ _ _ => .pure
  | restart answers username => exact .bind restart_raises fun _ _ _ => .pure
  | scheduledStart =>
      refine .ite (fun _ => .get_bind (.get_bind (.ite (fun _ => hrespawn _ _) fun _ => ?_))) fun _ => .pure
      exact .ite (fun _ => hwrites _ _) fun _ => .pure
  | scheduledRestart =>
      refine .ite (fun _ => .get_bind (.get_bind (.ite (fun _ => hrespawn _ _) fun _ => ?_))) fun _ => .pure
      exact .ite (fun _ => .ite (fun _ => hwrites _ _) fun _ => .pure) fun _ => .pure

theorem launch_idle (path : StartPath) (hbegins : begins path w runtime server = false) :
    Returns (launch path runtime server) w fun _ t => OffBooks w t := by
  cases path with
  | start answers username =>
      obtain ⟨hc, hs⟩ : server.containerId.isSome = true ∧ runtime.status = .running := by
        simpa [begins, Option.isSome_iff_ne_none] using hbegins
      obtain ⟨containerId, hc⟩ := Option.isSome_iff_exists.mp hc
      refine .bind (.bind fun plan w' hr => ?_)
      obtain ⟨rfl, rfl⟩ := checkStart_returns _ _ _ _ _ hr
      rw [hc]
      refine returns_orServerError (.ite (fun _ => .pure (.pure (refl_of OffBooks w'))) fun hne => absurd hs hne)
  | restart answers username => exact nomatch hbegins
  | scheduledStart =>
      refine .ite (fun hc => ?_) fun _ => .pure (refl_of OffBooks w)
      obtain ⟨hgpu, hstarts⟩ : gpuRequiresRecreate w server none = false ∧ runtime.starts = false := by
        simpa [begins, hc.1, hc.2] using hbegins
      refine .get_bind (.get_bind (.ite (fun h => ?_) fun _ => .ite (fun h => ?_) fun _ => .pure (refl_of OffBooks w)))
      · exact absurd h (by simp [hgpu])
      · exact absurd h (by simp [hstarts])
  | scheduledRestart =>
      refine .ite (fun hc => ?_) fun _ => .pure (refl_of OffBooks w)
      obtain ⟨hgpu, hrestarts⟩ : gpuRequiresRecreate w server none = false ∧
          (runtime.stops = true → runtime.starts = false) := by
        simpa [begins, hc.1, hc.2] using hbegins
      refine .get_bind (.get_bind (.ite (fun h => ?_) fun _ => .ite (fun hstops => .ite (fun h => ?_) fun _ => ?_) fun _ => ?_))
      · exact absurd h (by simp [hgpu])
      · exact absurd h (by simp [hrestarts hstops])
      · exact .pure (refl_of OffBooks w)
      · exact .pure (refl_of OffBooks w)

end Paths

section Creation

variable {w : World} {runtime : Runtime} {commits : Commits} {request : SpawnRequest} {planId : Uuid} {user : User}

structure NewRow (request : SpawnRequest) (planId : Uuid) (now : Instant) (row : Server) : Prop where
  id : row.id = request.serverId
  userId : row.userId = request.userId
  planId : row.planId = some planId
  status : row.status = .running
  startedAt : row.startedAt = some now
  totalCost : row.totalCost = 0
  usage : serverUsage row = ⟨request.cpu, request.memory, request.gpu, 1⟩

/-- What creating a server comes down to: its row, and the counters moved by its plan. -/
inductive Created (request : SpawnRequest) (planId : Uuid) (w : World) : World → Prop
  | saved {v : World} (row : Server) (quota : ResourceQuota) (mounts : List ServerVolume)
      (hv : OffBooks w v) (hrow : NewRow request planId w.now row)
      (hquota : quota.usage = movedBy Usage.plus (w.plans planId) (quotaOf w request.userId).usage) :
      Created request planId w
        { v with
          servers := w.servers.insert row
          quotas := Function.update w.quotas request.userId (some quota)
          serverVolumes := mounts }

theorem spawnNew_returns :
    Returns (spawnNew runtime request) w fun new w' =>
      OffBooks w w' ∧ ∃ containerId, new = serverRecord request containerId w.now := by
  exact .tryCatch (spawn_returns runtime request w) fun _ _ => .bind fun _ _ _ => .throw _

theorem saveServer_returns {v : World} {containerId : Uuid} {now : Instant} (hv : OffBooks w v) :
    Returns (saveServer commits (serverRecord request containerId now) planId user) v fun row w' =>
      commits.server = true ∧ NewRow request planId now row ∧ w' = { v with servers := w.servers.insert row } := by
  refine .get_bind (.bind fun _ w' hr => .pure ?_)
  obtain ⟨hserver, rfl⟩ := commit_returns _ w' hr
  exact ⟨hserver, ⟨rfl, rfl, rfl, rfl, rfl, rfl, rfl⟩, by rw [← hv.servers]⟩

theorem incremented_returns {v : World} {row : Server} (mounts : List ServerVolume) (hv : OffBooks w v)
    (hrow : NewRow request planId w.now row) :
    Returns (do
      let _ ← incrementUsage request.userId planId
      return row) { v with servers := w.servers.insert row, serverVolumes := mounts } fun _ w' =>
        Created request planId w w' := by
  obtain ⟨quota, hrun, hquota⟩ := adjustUsage_run Usage.plus request.userId planId
    { v with servers := w.servers.insert row, serverVolumes := mounts }
  intro a t hr
  rw [EStateM.run_bind, incrementUsage, hrun] at hr
  cases hr
  simp only [quotaOf, hv.plans, hv.quotas, hv.settings] at hquota
  have h := Created.saved row quota mounts hv hrow hquota
  rw [← hv.quotas] at h
  exact h

theorem provision_returns :
    Returns (provision runtime commits request planId user) w fun _ w' => Created request planId w w' := by
  refine .bind fun new v hr => ?_
  obtain ⟨hv, containerId, rfl⟩ := spawnNew_returns new v hr
  refine .bind fun row v' hr' => ?_
  obtain ⟨-, hrow, rfl⟩ := saveServer_returns hv row v' hr'
  refine .bind fun _ t hr'' => ?_
  obtain ⟨-, rfl⟩ := commit_returns _ t hr''
  have h := incremented_returns (v.serverVolumes ++ mountsOf row request.volumeMounts) hv hrow
  exact .ite (fun _ => .throw_bind _) fun _ => h

def queuedCharge (request : SpawnRequest) (plan : ServerPlan) : TransactionDraft where
  userId := request.userId
  amount := -plan.costPerHour
  type := .serverUsage
  description := "Initial spawn cost for queued server '" ++ request.serverName ++ "'"
  actorId := none
  serverId := none
  metadata := []

theorem chargeQueued_recorded (plan : ServerPlan) :
    final (chargeQueued commits request plan) w = w ∨
      ∃ draft, draft.serverId = none ∧ Recorded draft w (final (chargeQueued commits request plan) w) := by
  rw [chargeQueued, final_get_bind]
  split
  · split
    · exact .inl rfl
    · refine .inr ⟨queuedCharge request plan, rfl, ?_⟩
      dsimp only
      rw [final_bind_pure]
      exact createTransaction_recorded _ w
  · exact .inl rfl

theorem recordQueued_returns {v : World} {containerId : Uuid} (hv : OffBooks w v) :
    Returns (recordQueued commits (serverRecord request containerId w.now) request.userId planId user) v fun _ w' =>
      Created request planId w w' := by
  refine .bind fun row u hr => ?_
  obtain ⟨-, hrow, rfl⟩ := saveServer_returns hv row u hr
  exact .ite (fun _ => .throw_bind _) fun _ => incremented_returns v.serverVolumes hv hrow

theorem provisionQueued_returns {plan : ServerPlan} :
    Returns (provisionQueued runtime commits request planId plan user) w fun _ w' =>
      ∃ v, (v = w ∨ ∃ draft, draft.serverId = none ∧ Recorded draft w v) ∧ Created request planId v w' := by
  refine .bind fun _ v hr => .bind fun new u hr' => fun row t hr'' => ⟨v, final_of_ok hr ▸ chargeQueued_recorded plan, ?_⟩
  obtain ⟨hu, containerId, rfl⟩ := spawn_returns _ _ _ new u hr'
  exact recordQueued_returns hu row t hr''

end Creation

end NukeLab.Launches
