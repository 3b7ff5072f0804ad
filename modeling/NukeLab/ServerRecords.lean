import NukeLab.Frames
import NukeLab.Machine
import NukeLab.ScheduledStarts
import NukeLab.UpdateAtomicity
import NukeLab.UsageCounters

namespace NukeLab.ServerRecords

open Program Machine Tables Quantities Records State Ledger GpuAllocator Quota Spawner Billing Lifecycle ServerQueue
  ServerUpdate Settlement Exits Launches Frames
open Creation (CreateAnswers CreateRequest CreateReply createServer)
open ScheduledStarts (canRemake scheduleStarts)
open UpdateBreaks (NamesMade Held SavedAs breakOf configuredRow emptiedRow named placed planned)

def limitEnabled (settings : Settings) (user : User) : Bool :=
  user.maxServerRuntimeEnabled &&
    match user.maxServerRuntime with
    | none => decide (settings.serverMaxRuntime > 0)
    | some minutes => decide (minutes > 0)

def limited (w : World) (userId : Uuid) : Bool := (w.users userId).any (limitEnabled w.settings)

structure PreferencesUpdate where
  maxServerRuntimeEnabled : Option Bool
  maxServerRuntime : Option Int
  deriving DecidableEq

/-- Minutes are clamped between half an hour and three days. -/
def updatePreferences (request : PreferencesUpdate) (user : User) : User :=
  { user with
    maxServerRuntimeEnabled := request.maxServerRuntimeEnabled.getD user.maxServerRuntimeEnabled
    maxServerRuntime := (request.maxServerRuntime.map fun minutes => max 30 (min minutes 4320)).or user.maxServerRuntime }

def resetPreferences (user : User) : User := { user with maxServerRuntimeEnabled := true, maxServerRuntime := some 1440 }

inductive Operation
  | launch (path : StartPath) (runtime : Runtime)
  | leave (path : ExitPath) (runtime : Runtime)
  | bulkStart (runtime : Runtime)
  | sync (runtime : Runtime)
  | update (answers : UpdateAnswers) (runtime : Runtime) (commits : UpdateCommits) (actorId : Uuid) (actorName : String)
      (body : UpdateRequest)
  | enforceVolumeQuota (runtime : Runtime)
  | autoRestart (allowed : Bool) (runtime : Runtime)

def perform (op : Operation) (server : Server) : Handler Unit :=
  match op with
  | .launch path runtime => Launches.launch path runtime server
  | .leave path runtime => Exits.leave path runtime server
  | .bulkStart runtime => Lifecycle.bulkStart runtime server
  | .sync runtime => syncServer runtime server
  | .update answers runtime commits actorId actorName body => do
    let _ ← updateServer answers runtime commits actorId actorName server.id body
  | .enforceVolumeQuota runtime => Lifecycle.enforceVolumeQuota runtime server
  | .autoRestart allowed runtime => Lifecycle.autoRestart allowed runtime server

/-- The tasks and the logout go through the servers that are live, and a request
can name only volumes that have been made. -/
def applies (w : World) (op : Operation) (server : Server) : Bool :=
  match op with
  | .leave path _ => path.selects server.status
  | .update _ _ _ _ _ body => NamesMade w body
  | .enforceVolumeQuota _ => server.status = .running || server.status = .healthy
  | .autoRestart _ _ => server.status = .running
  | _ => true

def bulkStarts (w : World) (runtime : Runtime) (server : Server) : Bool :=
  server.containerId.isSome && if gpuRequiresRecreate w server none then canRemake w runtime server else runtime.starts

/-- A server's container is stopped and started, or made again, because its health checks fail. -/
def autoRestarts (w : World) (allowed : Bool) (runtime : Runtime) (server : Server) : Bool :=
  allowed && server.containerId.isSome &&
    if gpuRequiresRecreate w server none then canRemake w runtime server else runtime.stops && runtime.starts

/-- The container begins to run, or is found to have begun, where nothing is raised. -/
def opens (w : World) (op : Operation) (server : Server) : Bool :=
  match op with
  | .launch path runtime => begins path w runtime server
  | .leave path runtime => resumes path runtime server
  | .bulkStart runtime => bulkStarts w runtime server && (gpuRequiresRecreate w server none || runtime.status ≠ .running)
  | .sync runtime => resumes .listServers runtime server
  | .update _ _ _ _ _ body => recreates body
  | .enforceVolumeQuota _ => false
  | .autoRestart allowed runtime => autoRestarts w allowed runtime server

/-- The world, and when the session of each server has begun that it is in or was in last. -/
structure Site where
  world : World
  session : Uuid → Option Instant

def Site.after (s : Site) (opened : Uuid → Bool) (w : World) : Site where
  world := w
  session id := if opened id then some s.world.now else s.session id

def Site.created (s : Site) (w : World) : Site :=
  s.after (fun id => (s.world.servers.find id).isNone && (w.servers.find id).isSome) w

theorem Site.session_after (s : Site) (opened : Uuid → Bool) (w : World) (id : Uuid) :
    (s.after opened w).session id = if opened id then some s.world.now else s.session id := rfl

inductive Event
  | create (answers : CreateAnswers) (runtime : Runtime) (commits : Commits) (userId : Uuid) (request : CreateRequest)
  | processQueue (runtime : Runtime) (commits : Commits)
  | write (serverId : Uuid) (op : Operation)
  | updatePreferences (userId : Uuid) (request : PreferencesUpdate)
  | resetPreferences (userId : Uuid)
  | wait (duration : Nat)

def writeUser (w : World) (userId : Uuid) (f : User → User) : World :=
  { w with users := Function.update w.users userId ((w.users userId).map f) }

def step : Step Site Event := fun s event =>
  let w := s.world
  match event with
  | .create answers runtime commits userId request =>
    (w.users userId).map fun user => s.created (final (createServer answers runtime commits userId user request) w)
  | .processQueue runtime commits =>
    (getNextInQueue w).map fun entry => s.created (final (processEntry runtime commits entry) w)
  | .write serverId op =>
    match w.servers.find serverId with
    | some server =>
      if applies w op server then
        let opened := opens w op server && (raised (perform op server) w).isNone
        some (s.after (fun id => decide (id = serverId) && opened) (final (perform op server) w))
      else none
    | none => none
  | .updatePreferences userId request =>
    some { s with world := writeUser w userId (ServerRecords.updatePreferences request) }
  | .resetPreferences userId => some { s with world := writeUser w userId ServerRecords.resetPreferences }
  | .wait duration => some { s with world := { w with now := w.now + duration } }

structure Reading where
  id : Uuid
  userId : Uuid
  status : ServerStatus
  containerId : Option Uuid
  stopReason : Option String
  expiresAt : Option Instant
  startedAt : Option Instant
  stoppedAt : Option Instant

def reading (s : Server) : Reading :=
  ⟨s.id, s.userId, s.status, s.containerId, s.stopReason, s.expiresAt, s.startedAt, s.stoppedAt⟩

/-- What is to be read of a server in a session begun then, under a limit or not. -/
def Right (session : Option Instant) (limited : Bool) (r : Reading) : Prop :=
  (r.status = .running →
      r.containerId.isSome = true ∧ r.stoppedAt = none ∧ r.stopReason = none ∧
        (r.startedAt.isSome = true ∧ r.startedAt = session) ∧ r.expiresAt.isSome = limited) ∧
    (r.status = .stopped → r.stoppedAt.isSome = true)

instance (session : Option Instant) (limited : Bool) : DecidablePred (Right session limited) :=
  fun _ => inferInstanceAs (Decidable (_ ∧ _))

def Recorded (s : Site) : Prop :=
  ∀ row ∈ s.world.servers.rows, Right (s.session row.id) (limited s.world row.userId) (reading row)

instance : DecidablePred Recorded := fun s => inferInstanceAs (Decidable (∀ row ∈ s.world.servers.rows, _))

/-- The operation leaves nothing on the row that belongs to another session, and
leaves out nothing of its own. -/
def Fits (w : World) (op : Operation) (server : Server) : Prop :=
  match op with
  | .launch .scheduledStart runtime => scheduleStarts w runtime server = true → server.status = .running
  | .launch _ _ => True
  | .leave path runtime =>
    resumes path runtime server = false ∧
      ∀ ps ∈ parts path w runtime server, ps.stamps = true ∨ server.status = .stopped
  | .bulkStart runtime =>
    bulkStarts w runtime server = true →
      gpuRequiresRecreate w server none = false ∧ runtime.status = .running ∧ server.status = .running
  | .sync runtime => resumes .listServers runtime server = true → server.expiresAt.isSome = limited w server.userId
  | .update answers runtime commits actorId actorName body =>
    recreates body = true → breakOf answers runtime commits actorId actorName body w server.id = none →
      server.expiresAt.isSome = limited w server.userId
  | .enforceVolumeQuota _ => True
  | .autoRestart allowed runtime => autoRestarts w allowed runtime server = false

instance (w : World) (op : Operation) (server : Server) : Decidable (Fits w op server) :=
  match op with
  | .launch path runtime =>
    match path with
    | .scheduledStart => inferInstanceAs (Decidable (scheduleStarts w runtime server = true → server.status = .running))
    | .start _ _ | .restart _ _ | .scheduledRestart => inferInstanceAs (Decidable True)
  | .leave path runtime =>
    inferInstanceAs (Decidable (resumes path runtime server = false ∧
      ∀ ps ∈ parts path w runtime server, ps.stamps = true ∨ server.status = .stopped))
  | .bulkStart runtime =>
    inferInstanceAs (Decidable (bulkStarts w runtime server = true →
      gpuRequiresRecreate w server none = false ∧ runtime.status = .running ∧ server.status = .running))
  | .sync runtime =>
    inferInstanceAs (Decidable (resumes .listServers runtime server = true →
      server.expiresAt.isSome = limited w server.userId))
  | .update answers runtime commits actorId actorName body =>
    inferInstanceAs (Decidable (recreates body = true →
      breakOf answers runtime commits actorId actorName body w server.id = none →
        server.expiresAt.isSome = limited w server.userId))
  | .enforceVolumeQuota _ => inferInstanceAs (Decidable True)
  | .autoRestart allowed runtime => inferInstanceAs (Decidable (autoRestarts w allowed runtime server = false))

/-- The limit of a user with running servers stays enabled, or not. -/
def KeepsLimit (w : World) (userId : Uuid) (f : User → User) : Prop :=
  (∃ row ∈ w.servers.rows, row.userId = userId ∧ row.status = .running) →
    ∀ user ∈ w.users userId, limitEnabled w.settings (f user) = limitEnabled w.settings user

def Guarded (s : Site) : Event → Prop
  | .write serverId op => ∀ server ∈ s.world.servers.find serverId, Fits s.world op server
  | .updatePreferences userId request => KeepsLimit s.world userId (updatePreferences request)
  | .resetPreferences userId => KeepsLimit s.world userId resetPreferences
  | _ => True

instance (w : World) (userId : Uuid) (f : User → User) : Decidable (KeepsLimit w userId f) :=
  inferInstanceAs (Decidable ((∃ row ∈ w.servers.rows, _) → _))

instance (s : Site) (event : Event) : Decidable (Guarded s event) :=
  match event with
  | .write serverId op => inferInstanceAs (Decidable (∀ server ∈ s.world.servers.find serverId, Fits s.world op server))
  | .updatePreferences userId request => inferInstanceAs (Decidable (KeepsLimit s.world userId (updatePreferences request)))
  | .resetPreferences userId => inferInstanceAs (Decidable (KeepsLimit s.world userId resetPreferences))
  | .create _ _ _ _ _ | .processQueue _ _ | .wait _ => inferInstanceAs (Decidable True)

/-- Every server runs or is stopped, and says so rightly; a new identifier is that of none. -/
structure Kept (s : Site) : Prop where
  recorded : Recorded s
  status : ∀ row ∈ s.world.servers.rows, row.status = .running ∨ row.status = .stopped
  fresh : ∀ row ∈ s.world.servers.rows, row.id < s.world.nextUuid

section Relations

structure Unmoved (w w' : World) : Prop where
  now : w'.now = w.now := by rfl
  settings : w'.settings = w.settings := by rfl
  limited : ∀ userId, limited w' userId = limited w userId := by intro _; rfl
  nextUuid : w.nextUuid ≤ w'.nextUuid := by first | exact Nat.le_refl _ | exact Nat.le_add_right _ _

/-- The row says the same as before, or has been stopped and says when. -/
def Halted (row row' : Server) : Prop :=
  reading row' = reading row ∨
    (row'.id = row.id ∧ row'.userId = row.userId ∧ row'.status = .stopped ∧ row'.stoppedAt.isSome = true)

def Begun (w : World) (row : Server) : Prop :=
  row.status = .running ∧ Right (some w.now) (limited w row.userId) (reading row)

structure Calm (w w' : World) : Prop extends Unmoved w w' where
  rows : ∀ row' ∈ w'.servers.rows, ∃ row ∈ w.servers.rows, Halted row row'

/-- The sessions of these servers have been opened, and no others. -/
structure Leads (opened : Uuid → Bool) (w w' : World) : Prop extends Unmoved w w' where
  rows : ∀ row' ∈ w'.servers.rows,
    (opened row'.id = false ∧ ∃ row ∈ w.servers.rows, Halted row row') ∨
      (opened row'.id = true ∧ row'.id < w'.nextUuid ∧ Begun w row')

structure Elsewhere (serverId : Uuid) (w w' : World) : Prop extends Unmoved w w' where
  others : ∀ id ≠ serverId, w'.servers.find id = w.servers.find id := by intro _ _; rfl

structure Quiet (w w' : World) : Prop extends Unmoved w w' where
  servers : w'.servers = w.servers := by rfl

/-- Servers may have been created, and nothing else has become of a row. -/
structure Grown (w w' : World) : Prop extends Unmoved w w' where
  rows : ∀ row' ∈ w'.servers.rows,
    row' ∈ w.servers.rows ∨ (w.nextUuid ≤ row'.id ∧ row'.id < w'.nextUuid ∧ Begun w row')

variable {s : Site} {w v t : World} {serverId : Uuid} {server : Server}

theorem Unmoved.trans (h : Unmoved w v) (h' : Unmoved v t) : Unmoved w t where
  now := h'.now.trans h.now
  settings := h'.settings.trans h.settings
  limited userId := (h'.limited userId).trans (h.limited userId)
  nextUuid := h.nextUuid.trans h'.nextUuid

theorem Halted.trans {row row' row'' : Server} (h : Halted row row') (h' : Halted row' row'') : Halted row row'' := by
  obtain hsame' | ⟨hid', huserId', hstopped'⟩ := h'
  · obtain hsame | ⟨hid, huserId, hstatus, hstoppedAt⟩ := h
    · exact .inl (hsame'.trans hsame)
    · have hstatus' : row''.status = row'.status := congrArg Reading.status hsame'
      have hstoppedAt' : row''.stoppedAt = row'.stoppedAt := congrArg Reading.stoppedAt hsame'
      refine .inr ⟨?_, ?_, hstatus'.trans hstatus, hstoppedAt' ▸ hstoppedAt⟩
      · exact (congrArg Reading.id hsame').trans hid
      · exact (congrArg Reading.userId hsame').trans huserId
  · refine .inr ⟨?_, ?_, hstopped'⟩
    · exact hid'.trans (h.elim (congrArg Reading.id) fun h => h.1)
    · exact huserId'.trans (h.elim (congrArg Reading.userId) fun h => h.2.1)

instance : IsPreorder World Calm where
  refl _ := ⟨⟨rfl, rfl, fun _ => rfl, le_rfl⟩, fun row hrow => ⟨row, hrow, .inl rfl⟩⟩
  trans _ _ _ h h' := by
    refine ⟨h.toUnmoved.trans h'.toUnmoved, fun row'' hrow'' => ?_⟩
    obtain ⟨row', hrow', hhalted'⟩ := h'.rows row'' hrow''
    obtain ⟨row, hrow, hhalted⟩ := h.rows row' hrow'
    exact ⟨row, hrow, hhalted.trans hhalted'⟩

instance (serverId : Uuid) : IsPreorder World (Elsewhere serverId) where
  refl _ := ⟨⟨rfl, rfl, fun _ => rfl, le_rfl⟩, fun _ _ => rfl⟩
  trans _ _ _ h h' := ⟨h.toUnmoved.trans h'.toUnmoved, fun id hid => (h'.others id hid).trans (h.others id hid)⟩

instance : IsPreorder World Quiet where
  refl _ := ⟨⟨rfl, rfl, fun _ => rfl, le_rfl⟩, rfl⟩
  trans _ _ _ h h' := ⟨h.toUnmoved.trans h'.toUnmoved, h'.servers.trans h.servers⟩

theorem OffBooks.quiet (h : OffBooks w v) : Quiet w v where
  now := h.now
  settings := h.settings
  limited userId := by rw [limited, limited, h.users, h.settings]
  nextUuid := h.nextUuid
  servers := h.servers

theorem Quiet.calm (h : Quiet w v) : Calm w v :=
  ⟨h.toUnmoved, fun row hrow => ⟨row, h.servers ▸ hrow, .inl rfl⟩⟩

theorem Quiet.elsewhere (h : Quiet w v) (serverId : Uuid) : Elsewhere serverId w v :=
  ⟨h.toUnmoved, fun id _ => by rw [h.servers]⟩

theorem Quiet.grown (h : Quiet w v) : Grown w v := ⟨h.toUnmoved, fun _ hrow => .inl (h.servers ▸ hrow)⟩

theorem Grown.quiet (h : Grown w v) (h' : Quiet v t) : Grown w t := by
  refine ⟨h.toUnmoved.trans h'.toUnmoved, fun row hrow => (h.rows row (h'.servers ▸ hrow)).imp_right fun hnew => ?_⟩
  exact ⟨hnew.1, hnew.2.1.trans_le h'.nextUuid, hnew.2.2⟩

theorem Calm.leads (h : Calm w t) {opened : Uuid → Bool} (hnone : ∀ id, opened id = false) : Leads opened w t :=
  ⟨h.toUnmoved, fun row' hrow' => .inl ⟨hnone _, h.rows row' hrow'⟩⟩

theorem Elsewhere.calm (h : Elsewhere serverId w t) (hfind : w.servers.find serverId = some server)
    (hrow : ∀ row' ∈ t.servers.find serverId, Halted server row') : Calm w t := by
  refine ⟨h.toUnmoved, fun row' hrow' => ?_⟩
  have hfound := Table.find_of_mem hrow'
  by_cases hid : row'.id = serverId
  · exact ⟨server, Table.mem_of_find hfind, hrow row' (hid ▸ hfound)⟩
  · exact ⟨row', Table.mem_of_find ((h.others _ hid).symm.trans hfound), .inl rfl⟩

theorem Elsewhere.leads (h : Elsewhere serverId w t) (hfresh : serverId < w.nextUuid)
    (hrow : ∀ row' ∈ t.servers.find serverId, Begun w row') : Leads (fun id => decide (id = serverId)) w t := by
  refine ⟨h.toUnmoved, fun row' hrow' => ?_⟩
  have hfound := Table.find_of_mem hrow'
  by_cases hid : row'.id = serverId
  · exact .inr ⟨decide_eq_true hid, hid ▸ hfresh.trans_le h.nextUuid, hrow row' (hid ▸ hfound)⟩
  · exact .inl ⟨decide_eq_false hid, row', Table.mem_of_find ((h.others _ hid).symm.trans hfound), .inl rfl⟩

theorem Kept.after (hs : Kept s) {opened : Uuid → Bool} (h : Leads opened s.world t) : Kept (s.after opened t) := by
  refine ⟨fun row' hrow' => ?_, fun row' hrow' => ?_, fun row' hrow' => ?_⟩
  · obtain ⟨hopened, row, hrow, hhalted⟩ | ⟨hopened, -, -, hright⟩ := h.rows row' hrow'
    · have hsession : (s.after opened t).session row'.id = s.session row'.id := by rw [Site.session_after, hopened]; rfl
      have hlimited : limited (s.after opened t).world row'.userId = limited s.world row'.userId := h.limited _
      rw [hsession, hlimited]
      obtain hsame | ⟨-, -, hstatus, hstoppedAt⟩ := hhalted
      · have hid : row'.id = row.id := congrArg Reading.id hsame
        have huserId : row'.userId = row.userId := congrArg Reading.userId hsame
        rw [hsame, hid, huserId]
        exact hs.recorded row hrow
      · have hnot : row'.status ≠ .running := by rw [hstatus]; decide
        exact ⟨fun hrunning => absurd hrunning hnot, fun _ => hstoppedAt⟩
    · have hsession : (s.after opened t).session row'.id = some s.world.now := by rw [Site.session_after, hopened]; rfl
      have hlimited : limited (s.after opened t).world row'.userId = limited s.world row'.userId := h.limited _
      rw [hsession, hlimited]
      exact hright
  · obtain ⟨-, row, hrow, hhalted⟩ | ⟨-, -, hrunning, -⟩ := h.rows row' hrow'
    · obtain hsame | ⟨-, -, hstatus, -⟩ := hhalted
      · have hstatus : row'.status = row.status := congrArg Reading.status hsame
        rw [hstatus]
        exact hs.status row hrow
      · exact .inr hstatus
    · exact .inl hrunning
  · obtain ⟨-, row, hrow, hhalted⟩ | ⟨-, hfresh, -⟩ := h.rows row' hrow'
    · have hid : row'.id = row.id := hhalted.elim (congrArg Reading.id) fun h => h.1
      rw [hid]
      exact (hs.fresh row hrow).trans_le h.nextUuid
    · exact hfresh

theorem Kept.created (hs : Kept s) (h : Grown s.world t) : Kept (s.created t) := by
  refine hs.after ⟨h.toUnmoved, fun row' hrow' => ?_⟩
  have hfound : t.servers.find row'.id = some row' := Table.find_of_mem hrow'
  obtain hold | ⟨hle, hlt, hbegun⟩ := h.rows row' hrow'
  · have hfind : s.world.servers.find row'.id = some row' := Table.find_of_mem hold
    exact .inl ⟨by rw [hfind]; rfl, row', hold, .inl rfl⟩
  · have hfind : s.world.servers.find row'.id = none :=
      Table.find_eq_none_iff.mpr fun row hrow hid => absurd (hs.fresh row hrow) (not_lt.mpr (hid ▸ hle))
    exact .inr ⟨by rw [hfind, hfound]; rfl, hlt, hbegun⟩

end Relations

section Limits

variable {w v : World} {userId : Uuid}

theorem isSome_serverExpiry (w : World) (user : User) : (serverExpiry w user).isSome = limitEnabled w.settings user := by
  unfold serverExpiry limitEnabled
  cases user.maxServerRuntimeEnabled with
  | false => rfl
  | true =>
      dsimp only
      rw [if_neg (not_not.mpr rfl), Bool.true_and]
      cases user.maxServerRuntime with
      | none =>
          dsimp only
          split
          next hpos => rw [decide_eq_true hpos]; rfl
          next hnot => rw [decide_eq_false hnot]; rfl
      | some minutes =>
          have hscale : minutes * 60 > 0 ↔ minutes > 0 := by omega
          simp only [hscale]
          split
          next hpos => rw [decide_eq_true hpos]; rfl
          next hnot => rw [decide_eq_false hnot]; rfl

theorem isSome_ownerExpiry (w : World) (userId : Uuid) :
    ((w.users userId).bind (serverExpiry w)).isSome = limited w userId := by
  rw [limited]
  cases w.users userId with
  | none => rfl
  | some user => exact isSome_serverExpiry w user

theorem limited_writeUser (w : World) (userId : Uuid) (f : User → User) (u : Uuid) :
    limited (writeUser w userId f) u =
      if u = userId then (w.users userId).any fun user => limitEnabled w.settings (f user) else limited w u := by
  unfold limited writeUser
  dsimp only
  split
  next h =>
    rw [h, Function.update_self, Option.any_map]
  next h => rw [Function.update_of_ne h]

theorem recorded_quiet {draft : TransactionDraft} (h : Ledger.Recorded draft w v) : Quiet w v := by
  cases h with
  | refused => exact refl_of Quiet w
  | posted user huser hnonneg =>
      refine ⟨⟨rfl, rfl, fun u => ?_, Nat.le_succ _⟩, rfl⟩
      refine (limited_writeUser w draft.userId
        (fun user' => { user' with nukeBalance := (transactionFor w user draft).balanceAfter }) u).trans ?_
      split
      next h => rw [h, limited, huser]; rfl
      next => rfl

theorem createTransaction_quiet (draft : TransactionDraft) : Moves Quiet (createTransaction draft) :=
  fun w => recorded_quiet (createTransaction_recorded draft w)

theorem saveQuota_quiet (userId : Uuid) (quota : ResourceQuota) : Moves Quiet (saveQuota userId quota) :=
  .modify fun _ => ⟨⟨rfl, rfl, fun _ => rfl, le_rfl⟩, rfl⟩

theorem checkVolumeCreationAllowed_quiet (userId : Uuid) (bytes : Int) :
    Moves Quiet (checkVolumeCreationAllowed userId bytes) :=
  .bind (moves_getOrCreateUserQuota saveQuota_quiet _) fun _ => .bind .get fun _ => .pure _

theorem quiet_of_offBooks {ε α : Type} {m : EStateM ε World α} (h : Moves OffBooks m) : Moves Quiet m :=
  h.mono fun _ _ hw => OffBooks.quiet hw

end Limits

section Creations

variable {w v : World} {runtime : Runtime} {commits : Commits} {request : SpawnRequest} {planId : Uuid} {plan : ServerPlan}
  {user : User}

theorem saveServer_grown {containerId : Uuid} {now : Instant} (hv : Quiet w v) (hle : w.nextUuid ≤ request.serverId)
    (hlt : request.serverId < v.nextUuid) (hlimit : limitEnabled w.settings user = limited w request.userId)
    (hnow : now = w.now) :
    Grown w (final (saveServer commits (serverRecord request containerId now) planId user) v) := by
  unfold saveServer
  rw [final_get_bind, final_bind_pure]
  unfold commit
  split
  · refine ⟨⟨hv.now, hv.settings, hv.limited, hv.nextUuid⟩, fun row hrow => ?_⟩
    obtain hold | rfl := Table.mem_or_eq_of_mem_insert hrow
    · exact .inl (hv.servers ▸ hold)
    · refine .inr ⟨hle, hlt, rfl, fun _ => ⟨rfl, rfl, rfl, ⟨rfl, congrArg some hnow⟩, ?_⟩, fun h => nomatch h⟩
      exact (isSome_serverExpiry v user).trans (hv.settings ▸ hlimit)
  · exact hv.grown

theorem incrementUsage_quiet (userId planId : Uuid) : Moves Quiet (incrementUsage userId planId) :=
  moves_adjustUsage saveQuota_quiet _ _ _

theorem provision_grown (hv : Quiet w v) (hle : w.nextUuid ≤ request.serverId) (hlt : request.serverId < v.nextUuid)
    (hlimit : limitEnabled w.settings user = limited w request.userId) :
    Grown w (final (provision runtime commits request planId user) v) := by
  have hspawn := UsageCounters.spawnNew_offBooks runtime request v
  refine final_bind_returns (fun raise t hr => ?_) fun new t hr => ?_
  · exact (trans_of Quiet hv (OffBooks.quiet (final_of_error hr ▸ hspawn))).grown
  obtain ⟨hbooks, containerId, rfl⟩ := spawnNew_returns new t hr
  have ht := trans_of Quiet hv (OffBooks.quiet hbooks)
  have hsaved : Grown w (final (saveServer commits (serverRecord request containerId v.now) planId user) t) :=
    saveServer_grown ht hle (hlt.trans_le hbooks.nextUuid) hlimit hv.now
  refine final_bind_keeps hsaved (fun server => ?_) fun _ _ h h' => Grown.quiet h' h
  refine .bind (.ite (.modify fun _ => ⟨⟨rfl, rfl, fun _ => rfl, le_rfl⟩, rfl⟩) (.throw _)) fun _ => .ite (.throw_bind _ _) ?_
  exact .bind (incrementUsage_quiet _ _) fun _ => .pure _

theorem cleaningUp_grown {α : Type} {body : Creation.Creating α} (container : String) (h : Grown w (final body v)) :
    Grown w (final (Creation.cleaningUp container body) v) := by
  rw [final] at h
  rw [final, Creation.cleaningUp_run]
  cases hr : body.run v with
  | ok a t =>
      rw [hr] at h
      exact h
  | error e t =>
      obtain ⟨raise, listed, expired⟩ := e
      rw [hr] at h
      cases raise with
      | http status detail => exact h
      | exception text => exact h.quiet ⟨⟨rfl, rfl, fun _ => rfl, le_rfl⟩, rfl⟩

theorem spawnPrepared_grown {answers : CreateAnswers} {userId : Uuid} {request : CreateRequest} (hv : Quiet w v)
    (hlimit : limitEnabled w.settings user = limited w userId) (listed : List String) (mounts : List VolumeMount) :
    Grown w (final (Creation.spawnPrepared answers runtime commits userId user request plan listed mounts) v) := by
  have hrest : Grown w (final (do
      let serverId ← newUuid
      let devices ← ensureGpuDevices serverId plan.gpuLimit
      let server ← provision runtime commits (Creation.spawnRequestOf userId user request plan mounts serverId devices)
        request.planId user
      return .created server.id : Handler CreateReply) v) := by
    rw [final_bind_of_ok (show newUuid.run v = .ok v.nextUuid { v with nextUuid := v.nextUuid + 1 } from rfl)]
    have hnew : Quiet w { v with nextUuid := v.nextUuid + 1 } :=
      trans_of Quiet hv (OffBooks.quiet (UsageCounters.newUuid_offBooks v))
    refine final_bind_moves (ensureGpuDevices_offBooks _ _) (fun t h => (trans_of Quiet hnew (OffBooks.quiet h)).grown)
      fun devices t h => ?_
    rw [final_bind_pure]
    exact provision_grown (trans_of Quiet hnew (OffBooks.quiet h)) hv.nextUuid (Nat.lt_of_succ_le h.nextUuid) hlimit
  rw [Creation.final_spawnPrepared, Creation.checkMounts]
  cases Creation.mountsRefusal answers with
  | none => exact hrest
  | some raise => exact hv.grown

theorem createServer_grown {answers : CreateAnswers} {userId : Uuid} {request : CreateRequest}
    (huser : w.users userId = some user) :
    Grown w (final (createServer answers runtime commits userId user request) w) := by
  have hlimit : limitEnabled w.settings user = limited w userId := by rw [limited, huser]; rfl
  have hchecks (newBytes : Int) : Moves Quiet (Creation.checkNewVolumes userId newBytes) := by
    refine .ite (.bind (checkVolumeCreationAllowed_quiet _ _) fun refusal => ?_) (.pure _)
    cases refusal with
    | none => exact .pure _
    | some refusal => exact .throw _
  unfold createServer
  rw [final_get_bind]
  cases Creation.createRefusal w answers userId request with
  | error raise => exact (refl_of Quiet w).grown
  | ok plan =>
      have hrecalculated : Quiet w (recalculatedWorld w userId none) :=
        ⟨⟨rfl, rfl, fun _ => rfl, le_rfl⟩, rfl⟩
      dsimp only
      rw [final_bind_of_ok (checkSpawnAllowed_run w userId request.planId), final_get_bind]
      split
      · exact hrecalculated.grown
      · split
        · refine cleaningUp_grown _ (final_bind_moves (UsageCounters.moves_listing (hchecks _)) (fun t h => ?_) fun _ v h => ?_)
          · exact (trans_of Quiet hrecalculated h).grown
          have hv := trans_of Quiet hrecalculated h
          refine final_bind_moves (UsageCounters.prepareMounts_offBooks _ _ _ _ _ _ _) (fun t h => ?_) fun mounts t h => ?_
          · exact (trans_of Quiet hv (OffBooks.quiet h)).grown
          · exact spawnPrepared_grown (trans_of Quiet hv (OffBooks.quiet h)) hlimit _ mounts
        · exact (trans_of Quiet hrecalculated (OffBooks.quiet (UsageCounters.enqueue_offBooks _ _ _ _))).grown

theorem recordStarted_grown {entry : QueueEntry} {containerId serverId : Uuid} {devices : List Device} {now : Instant}
    (hv : Quiet w v) (hle : w.nextUuid ≤ serverId) (hlt : serverId < v.nextUuid)
    (hlimit : limitEnabled w.settings user = limited w entry.userId) (hnow : now = w.now) :
    Grown w (final (recordStarted commits entry (serverRecord (queuedRequest entry plan user serverId devices) containerId now)
      user) v) := by
  refine final_bind_keeps ?_ (fun _ => .bind moves_utcNow fun _ => quiet_of_offBooks (UsageCounters.updateEntry_offBooks _ _))
    fun _ _ h h' => Grown.quiet h' h
  refine final_bind_keeps (saveServer_grown hv hle hlt hlimit hnow) (fun server => ?_) fun _ _ h h' => Grown.quiet h' h
  exact .ite (.throw_bind _ _) (.bind (incrementUsage_quiet _ _) fun _ => .pure _)

theorem spawnEntry_grown {entry : QueueEntry} (hv : Quiet w v) (hlimit : limitEnabled w.settings user = limited w entry.userId) :
    Grown w (final (spawnEntry runtime commits entry plan user) v) := by
  have hgiveUp (serverId : Uuid) (raise : Raise) := quiet_of_offBooks (UsageCounters.giveUp_offBooks entry serverId raise)
  have hentry (f : QueueEntry → QueueEntry) := quiet_of_offBooks (UsageCounters.updateEntry_offBooks entry.id f)
  have hcharge (request : SpawnRequest) : Moves Quiet (chargeQueued commits request plan) := by
    refine .bind .get fun u => .ite (.ite (.throw_bind _ _) ?_) (.pure _)
    exact .bind (createTransaction_quiet _) fun _ => .pure _
  unfold spawnEntry
  rw [final_bind_of_ok (show newUuid.run v = .ok v.nextUuid { v with nextUuid := v.nextUuid + 1 } from rfl)]
  have hnew : Quiet w { v with nextUuid := v.nextUuid + 1 } :=
    trans_of Quiet hv (OffBooks.quiet (UsageCounters.newUuid_offBooks v))
  have hdevices := ensureGpuDevices_offBooks v.nextUuid plan.gpuLimit { v with nextUuid := v.nextUuid + 1 }
  refine final_attempt (fun devices t hr => ?_) fun raise t hr => ?_
  · have hdevices := final_of_ok hr ▸ hdevices
    have ht := trans_of Quiet hnew (OffBooks.quiet hdevices)
    dsimp only
    refine final_attempt (fun _ t₂ hr => ?_) fun raise t₂ hr => ?_
    · have hcharged := final_of_ok hr ▸ hcharge _ t
      have ht₂ := trans_of Quiet ht hcharged
      dsimp only
      refine final_attempt (fun new t₃ hr => ?_) fun raise t₃ hr => ?_
      · obtain ⟨hspawned, containerId, rfl⟩ := spawn_returns _ _ _ new t₃ hr
        dsimp only
        rw [final_logged]
        refine recordStarted_grown (trans_of Quiet ht₂ (OffBooks.quiet hspawned)) hv.nextUuid ?_ hlimit ht₂.now
        exact (Nat.lt_of_succ_le hdevices.nextUuid).trans_le (hcharged.nextUuid.trans hspawned.nextUuid)
      · have ht₃ := trans_of Quiet ht₂ (OffBooks.quiet (final_of_error hr ▸ spawn_offBooks _ _ t₂))
        exact (trans_of Quiet ht₃ (hgiveUp _ _ t₃)).grown
    · have ht₂ := trans_of Quiet ht (final_of_error hr ▸ hcharge _ t)
      dsimp only
      split
      · exact (trans_of Quiet ht₂ (hgiveUp _ _ t₂)).grown
      · exact ht₂.grown
  · have ht := trans_of Quiet hnew (OffBooks.quiet (final_of_error hr ▸ hdevices))
    cases raise with
    | http status detail => exact (trans_of Quiet ht (hentry _ t)).grown
    | exception text => exact (trans_of Quiet ht (hgiveUp _ _ t)).grown

theorem processEntry_grown {entry : QueueEntry} : Grown w (final (processEntry runtime commits entry) w) := by
  have hentry (f : QueueEntry → QueueEntry) := quiet_of_offBooks (UsageCounters.updateEntry_offBooks entry.id f)
  unfold processEntry
  rw [final_get_bind]
  cases hadmission : admission w entry with
  | error message => exact (hentry _ w).grown
  | ok admitted =>
      obtain ⟨plan, user⟩ := admitted
      have hlimit : limitEnabled w.settings user = limited w entry.userId := by
        rw [limited, (admission_ok hadmission).2]
        rfl
      have hrecalculated : Quiet w (recalculatedWorld w entry.userId none) :=
        ⟨⟨rfl, rfl, fun _ => rfl, le_rfl⟩, rfl⟩
      dsimp only
      rw [final_bind_of_ok (checkSpawnAllowed_run w entry.userId entry.planId)]
      split
      · exact (trans_of Quiet hrecalculated (hentry _ _)).grown
      · rw [final_get_bind]
        split
        · exact (trans_of Quiet hrecalculated (hentry _ _)).grown
        · exact spawnEntry_grown hrecalculated hlimit

end Creations

section Stops

variable {w t : World} {runtime : Runtime} {server : Server} {ps : Parts}

theorem calm_of_offBooks {α : Type} {m : Handler α} (h : Moves OffBooks m) : Moves Calm m :=
  h.mono fun _ _ hw => (OffBooks.quiet hw).calm

theorem modifyServer_calm (id : Uuid) (f : Server → Server) (hf : ∀ s, (f s).id = s.id) (h : ∀ row, Halted row (f row)) :
    Moves Calm (modifyServer id f hf) := by
  refine .modify fun w => ⟨⟨rfl, rfl, fun _ => rfl, le_rfl⟩, fun row' hrow' => ?_⟩
  obtain ⟨row, hrow, rfl⟩ := Table.mem_modify.mp (show row' ∈ (w.servers.modify id f hf).rows from hrow')
  refine ⟨row, hrow, ?_⟩
  split
  · exact h row
  · exact .inl rfl

theorem modifyServer_elsewhere (id : Uuid) (f : Server → Server) (hf : ∀ s, (f s).id = s.id) :
    Moves (Elsewhere id) (modifyServer id f hf) :=
  .modify fun _ => ⟨⟨rfl, rfl, fun _ => rfl, le_rfl⟩, fun _ hne => Table.find_modify_of_ne f hf hne⟩

theorem bookkeeping_calm : Bookkeeping Calm where
  record draft w := (createTransaction_quiet draft w).calm
  cost _ _ := modifyServer_calm _ _ _ fun _ => .inl rfl
  billed _ _ := modifyServer_calm _ _ _ fun _ => .inl rfl
  quota userId quota w := (saveQuota_quiet userId quota w).calm
  devices id := calm_of_offBooks (UsageCounters.release_offBooks id)
  container runtime containerId := calm_of_offBooks (delete_offBooks runtime containerId)

theorem left_calm (h : Left server w ps t) (hfind : w.servers.find server.id = some server)
    (hdeleted : ps ≠ ⟨false, false, true, true⟩) (hstopped : ps.stamps = false → server.stoppedAt.isSome = true) : Calm w t := by
  have hcontainers (containers : List Container) : Calm w { w with containers := containers } :=
    Quiet.calm ⟨⟨rfl, rfl, fun _ => rfl, le_rfl⟩, rfl⟩
  have hreleased (containers : List Container) (stamp : Server → Server) (hid : ∀ s, (stamp s).id = s.id)
      (hkeeps : KeepsTerms stamp) (hstamp : (stamp server).stoppedAt.isSome = true) :
      Calm w (final (stopAndRelease server.id stamp hid) { w with containers := containers }) := by
    have helsewhere : Moves (Elsewhere server.id) (stopAndRelease server.id stamp hid) :=
      .bind (modifyServer_elsewhere _ _ _) fun _ =>
        (UsageCounters.release_offBooks _).mono fun _ _ h => (OffBooks.quiet h).elsewhere _
    refine trans_of Calm (hcontainers containers) ((helsewhere _).calm hfind fun row' hrow' => ?_)
    obtain rfl : stamp server = row' := Option.some.inj ((Table.find_modify_self stamp hid hfind).symm.trans hrow')
    exact .inr ⟨hid server, hkeeps.userId server, hkeeps.status server, hstamp⟩
  cases h with
  | settled containers stamp hid hkeeps hstamp =>
      refine trans_of Calm (hcontainers containers) (bookkeeping_calm.stopAndSettle _ _ _ (fun now => ?_) _)
      refine modifyServer_calm _ _ _ fun row => .inr ⟨hid now row, (hkeeps now).userId row, (hkeeps now).status row, ?_⟩
      rw [hstamp]
      rfl
  | released containers stamp hid hkeeps hstamp => exact hreleased _ _ hid hkeeps (hstamp ▸ hstopped rfl)
  | limited containers stamp hid hkeeps hstamp =>
      exact trans_of Calm (hreleased _ _ hid hkeeps (by rw [hstamp]; rfl)) (bookkeeping_calm.decrementFor _ _)
  | depleted containers plan hplan =>
      refine trans_of Calm (hcontainers containers) (bookkeeping_calm.stopDepleted _ _ (fun now => ?_) _)
      exact modifyServer_calm _ _ _ fun row => .inr ⟨rfl, rfl, rfl, rfl⟩
  | synced =>
      exact modifyServer_calm server.id (fun s => { s with status := .stopped, stoppedAt := some w.now }) (fun _ => rfl)
        (fun row => .inr ⟨rfl, rfl, rfl, rfl⟩) w
  | deleted => exact absurd rfl hdeleted

theorem parts_ne_deletion {path : ExitPath} (hdelete : path ≠ .delete) (hbulkDelete : path ≠ .bulkDelete) :
    ∀ ps ∈ parts path w runtime server, ps ≠ ⟨false, false, true, true⟩ := by
  intro ps hps
  have hstatus : ∀ ps ∈ partsByStatus runtime, ps ≠ ⟨false, false, true, true⟩ := by
    unfold partsByStatus
    split
    · simp
    · simp [releaseOnly]
    · split <;> simp [Parts.all]
  unfold parts at hps
  split at hps
  · split at hps
    · exact hstatus ps hps
    · cases hps
      decide
  · split at hps <;> cases hps
    decide
  · split at hps
    · exact hstatus ps hps
    · cases hps
      decide
  · split at hps
    · exact hstatus ps hps
    · cases hps
  · split at hps
    · split at hps <;> cases hps
      decide
    · cases hps
  · split at hps
    · split at hps <;> cases hps
      decide
    · cases hps
  · split at hps <;> cases hps
    decide
  · split at hps <;> cases hps
    decide
  · exact absurd rfl hdelete
  · exact absurd rfl hbulkDelete

theorem leave_calm {path : ExitPath} (hfind : w.servers.find server.id = some server)
    (hstopped : server.status = .stopped → server.stoppedAt.isSome = true) (hfits : Fits w (.leave path runtime) server) :
    Calm w (final (leave path runtime server) w) := by
  have herased (w : World) : ∀ row ∈ (w.servers.erase server.id).rows, ∃ row' ∈ w.servers.rows, Halted row' row :=
    fun row hrow => ⟨row, (List.mem_filter.mp hrow).1, .inl rfl⟩
  have hdeleting {α : Type} {rest : Handler α} (hrest : Moves Calm rest) (raise : Raise) :
      Moves Calm (do
        if server.containerId.isSome then
          if ¬ (← Spawner.delete runtime server.containerId) then throw raise
        rest) :=
    .ite (.bind (bookkeeping_calm.container _ _) fun _ => .ite (.throw_bind _ _) hrest) hrest
  have hstays (hpath : path ≠ .creditDepletion) (hdelete : path ≠ .delete) (hbulkDelete : path ≠ .bulkDelete) :
      Calm w (final (leave path runtime server) w) := by
    cases hparts : parts path w runtime server with
    | none =>
        rw [leave_stays path hparts hfits.1 hpath]
        exact refl_of Calm w
    | some ps =>
        refine left_calm (leave_left path hparts) hfind (parts_ne_deletion hdelete hbulkDelete ps hparts) fun hno => ?_
        obtain hstamps | hstatus := hfits.2 ps hparts
        · exact nomatch hno.symm.trans hstamps
        · exact hstopped hstatus
  cases path with
  | delete =>
      refine (Moves.bind (hdeleting ?_ _) fun _ => .pure _) w
      refine .bind (.modify fun v => ?_) fun _ => .bind (bookkeeping_calm.devices _) fun _ => .pure _
      exact ⟨⟨rfl, rfl, fun _ => rfl, le_rfl⟩, herased v⟩
  | bulkDelete =>
      refine hdeleting (.bind (.modify fun v => ?_) fun _ => bookkeeping_calm.devices _) _ w
      exact ⟨⟨rfl, rfl, fun _ => rfl, le_rfl⟩, herased v⟩
  | creditDepletion =>
      refine (Moves.bind .get fun v => ?_) w
      split
      · refine bookkeeping_calm.billServer _ _ _ fun now => modifyServer_calm _ _ _ fun row => .inr ⟨rfl, rfl, rfl, rfl⟩
      · exact .pure _
  | stop | scheduledStop | idleShutdown | logout | autoStop | listServers | bulkStop => exact hstays nofun nofun nofun

theorem enforceVolumeQuota_calm (runtime : Runtime) (server : Server) : Moves Calm (enforceVolumeQuota runtime server) := by
  have hstop : Moves Calm (stopAndSettle server.id fun now s =>
      { s with containerId := none, status := .stopped, stoppedAt := some now, stopReason := some "volume_quota_exceeded" }) :=
    bookkeeping_calm.stopAndSettle _ _ _ fun now => modifyServer_calm _ _ _ fun row => .inr ⟨rfl, rfl, rfl, rfl⟩
  unfold enforceVolumeQuota
  dsimp only
  split
  · exact hstop
  · split
    · exact .pure _
    · exact hstop
    · exact .bind (bookkeeping_calm.container _ _) fun _ => .ite hstop (.pure _)

end Stops

section Openings

variable {w v t : World} {runtime : Runtime} {server : Server} {session : Option Instant}

theorem leads_of {α : Type} {m : Handler α} {opened : Bool} (serverId : Uuid)
    (hreturns : Returns m w fun _ t => if opened then Leads (fun id => decide (id = serverId)) w t else Calm w t)
    (hraises : Raises m w fun _ t => Calm w t) :
    Leads (fun id => decide (id = serverId) && (opened && (raised m w).isNone)) w (final m w) := by
  cases hr : m.run w with
  | ok a t =>
      have h := hreturns a t hr
      have hraised : raised m w = none := by rw [raised, hr]
      rw [final_of_ok hr, hraised]
      cases opened with
      | true => simpa using h
      | false => exact Calm.leads h fun id => by simp
  | error raise t =>
      have hraised : raised m w = some raise := by rw [raised, hr]
      rw [final_of_error hr, hraised]
      exact (hraises raise t hr).leads fun id => by simp

theorem leads_of_calm {α : Type} {m : Handler α} {opened : Bool} (serverId : Uuid) (h : Calm w (final m w))
    (hopened : opened = false) :
    Leads (fun id => decide (id = serverId) && (opened && (raised m w).isNone)) w (final m w) :=
  h.leads fun id => by simp [hopened]

theorem edited_elsewhere (hv : OffBooks w v) (f : Server → Server) (hid : ∀ s, (f s).id = s.id) :
    Elsewhere server.id w { v with servers := v.servers.modify server.id f hid } :=
  trans_of (Elsewhere server.id) ((OffBooks.quiet hv).elsewhere _) (modifyServer_elsewhere server.id f hid v)

theorem edited_found (hv : OffBooks w v) (hfind : w.servers.find server.id = some server) (f : Server → Server)
    (hid : ∀ s, (f s).id = s.id) {P : Server → Prop} (h : P (f server)) :
    ∀ row' ∈ (v.servers.modify server.id f hid).find server.id, P row' := by
  intro row' hrow'
  obtain rfl : f server = row' := Option.some.inj ((Table.find_modify_self f hid (hv.servers ▸ hfind)).symm.trans hrow')
  exact h

theorem edited_leads (hv : OffBooks w v) (hfind : w.servers.find server.id = some server) (hfresh : server.id < w.nextUuid)
    (f : Server → Server) (hid : ∀ s, (f s).id = s.id) (hbegun : Begun w (f server)) :
    Leads (fun id => decide (id = server.id)) w { v with servers := v.servers.modify server.id f hid } :=
  (edited_elsewhere hv f hid).leads hfresh (edited_found hv hfind f hid hbegun)

theorem edited_calm (hv : OffBooks w v) (hfind : w.servers.find server.id = some server) (f : Server → Server)
    (hid : ∀ s, (f s).id = s.id) (hhalted : Halted server (f server)) :
    Calm w { v with servers := v.servers.modify server.id f hid } :=
  (edited_elsewhere hv f hid).calm hfind (edited_found hv hfind f hid hhalted)

theorem requested_leads {usage : Usage} (h : Requested server usage w t) (hfind : w.servers.find server.id = some server)
    (hfresh : server.id < w.nextUuid) : Leads (fun id => decide (id = server.id)) w t := by
  cases h with
  | opened f hid hv hf hrow husage =>
      refine edited_leads hv hfind hfresh f hid ⟨hrow.status, fun _ => ?_, fun h => nomatch h.symm.trans hrow.status⟩
      refine ⟨hrow.containerId, hrow.stoppedAt, hrow.stopReason, ⟨?_, hf.startedAt server⟩, ?_⟩
      · exact Option.isSome_iff_exists.mpr ⟨_, hf.startedAt server⟩
      · rw [hf.userId, ← isSome_ownerExpiry]
        exact congrArg Option.isSome hrow.expiresAt

theorem begun_again (hright : Right session (limited w server.userId) (reading server)) (hrunning : server.status = .running)
    {row : Server} (hcontainer : row.containerId.isSome = true)
    (hrow : reading row = { reading server with containerId := row.containerId, startedAt := some w.now }) : Begun w row := by
  obtain ⟨-, hstoppedAt, hstopReason, -, hexpires⟩ := hright.1 hrunning
  have huserId : row.userId = server.userId := congrArg Reading.userId hrow
  refine ⟨(congrArg Reading.status hrow).trans hrunning, ?_⟩
  rw [huserId, hrow]
  exact ⟨fun _ => ⟨hcontainer, hstoppedAt, hstopReason, ⟨rfl, rfl⟩, hexpires⟩, fun h => nomatch h.symm.trans hrunning⟩

theorem launch_leads {path : StartPath} (hfind : w.servers.find server.id = some server) (hfresh : server.id < w.nextUuid)
    (hright : Right session (limited w server.userId) (reading server)) (hfits : Fits w (.launch path runtime) server) :
    Returns (launch path runtime server) w fun _ t =>
      if begins path w runtime server then Leads (fun id => decide (id = server.id)) w t else Calm w t := by
  have hmade {new : Server} {v : World} (h : ScheduledStarts.Remade w server new v) : new.containerId.isSome = true := by
    rw [h.containerId]
    rfl
  cases hbegins : begins path w runtime server with
  | false => exact fun _ t hr => (OffBooks.quiet (launch_idle path hbegins _ t hr)).calm
  | true =>
      cases path with
      | start answers username =>
          exact .bind fun _ t hr => .pure (requested_leads (start_returns hbegins _ t hr) hfind hfresh)
      | restart answers username =>
          exact .bind fun _ t hr => .pure (requested_leads (restart_returns _ t hr) hfind hfresh)
      | scheduledStart =>
          obtain ⟨⟨hc, hs⟩, hstarts⟩ : (server.containerId.isSome = true ∧ runtime.status = .stopped) ∧
              (gpuRequiresRecreate w server none = true ∨ runtime.starts = true) := by
            simpa [begins] using hbegins
          have hscheduled (h : (if gpuRequiresRecreate w server none then canRemake w runtime server else runtime.starts) = true) :
              server.status = .running :=
            hfits (by rw [scheduleStarts, hc, decide_eq_true hs, h]; rfl)
          refine .ite (fun _ => .get_bind (.get_bind (.ite (fun hgpu => .bind fun new v hr => ?_) fun hno => ?_)))
            fun hnot => absurd ⟨hc, hs⟩ hnot
          · obtain ⟨hcan, hremade⟩ := ScheduledStarts.respawnServerContainer_remade server.name new v hr
            have hrunning := hscheduled (by rw [if_pos hgpu]; exact hcan)
            have hcontainer := hmade hremade
            rintro _ _ ⟨⟩
            refine edited_leads hremade.books hfind hfresh _ _ (begun_again hright hrunning hcontainer ?_)
            rw [reading, reading, hrunning]
          · have hrunning := hscheduled (by rw [if_neg hno]; exact hstarts.resolve_left hno)
            rw [if_pos (hstarts.resolve_left hno)]
            rintro _ _ ⟨⟩
            refine edited_leads (refl_of OffBooks w) hfind hfresh _ _ (begun_again hright hrunning hc ?_)
            rw [reading, reading, hrunning]
      | scheduledRestart =>
          obtain ⟨⟨hc, hrunning⟩, hrestarts⟩ : (server.containerId.isSome = true ∧ server.status = .running) ∧
              (gpuRequiresRecreate w server none = true ∨ runtime.stops = true ∧ runtime.starts = true) := by
            simpa [begins] using hbegins
          refine .ite (fun _ => .get_bind (.get_bind (.ite (fun hgpu => .bind fun new v hr => ?_) fun hno => ?_)))
            fun hnot => absurd ⟨hc, hrunning⟩ hnot
          · obtain ⟨-, hremade⟩ := ScheduledStarts.respawnServerContainer_remade server.name new v hr
            have hcontainer := hmade hremade
            rintro _ _ ⟨⟩
            exact edited_leads hremade.books hfind hfresh _ _ (begun_again hright hrunning hcontainer rfl)
          · obtain ⟨hstops, hstarts⟩ := hrestarts.resolve_left hno
            rw [if_pos hstops, if_pos hstarts]
            rintro _ _ ⟨⟩
            exact edited_leads (refl_of OffBooks w) hfind hfresh _ _ (begun_again hright hrunning hc rfl)

theorem bulkStart_calm (hfind : w.servers.find server.id = some server) (hfits : Fits w (.bulkStart runtime) server) :
    Calm w (final (bulkStart runtime server) w) := by
  have hraised := respawnServerContainer_offBooks runtime server server.name w
  have hwrites {v : World} (f : Server → Server) (hid : ∀ s, (f s).id = s.id) :
      Raises (modifyServer server.id f hid) v fun _ t => Calm w t := fun _ _ hr => nomatch hr
  refine final_of_returns_raises (.ite (fun hc => .get_bind ?_) fun _ => .pure (refl_of Calm w))
    (.ite (fun _ => .get_bind (.ite (fun _ => .bind (fun raise t hr => ?_) fun _ _ _ => hwrites _ _) fun _ => ?_)) fun _ => .pure)
  · refine .ite (fun hgpu => .bind fun new v hr => ?_) fun hno => .ite (fun _ => .throw_bind _) fun hstarts => ?_
    · obtain ⟨hcan, -⟩ := ScheduledStarts.respawnServerContainer_remade server.name new v hr
      have hstarts : bulkStarts w runtime server = true := by rw [bulkStarts, hc, if_pos hgpu, hcan]; rfl
      exact absurd hgpu (by simp [(hfits hstarts).1])
    · have hstarts : bulkStarts w runtime server = true := by rw [bulkStarts, hc, if_neg hno, not_not.mp hstarts]; rfl
      rintro _ _ ⟨⟩
      refine edited_calm (refl_of OffBooks w) hfind _ _ (.inl ?_)
      rw [reading, reading, (hfits hstarts).2.2]
  · exact (OffBooks.quiet (final_of_error hr ▸ hraised)).calm
  · exact .ite (fun _ => .throw_bind (refl_of Calm w)) fun _ => hwrites _ _

theorem autoRestart_calm {allowed : Bool} (hfits : Fits w (.autoRestart allowed runtime) server) :
    Calm w (final (autoRestart allowed runtime server) w) := by
  unfold autoRestart
  rw [final_get_bind]
  split
  next hrestarts =>
    obtain ⟨hallowed, hc, hgpu⟩ := hrestarts
    rw [final_logged]
    refine final_bind_returns (fun _ _ hr => ?_) fun new v hr => ?_
    · exact (OffBooks.quiet (final_of_error hr ▸ respawnServerContainer_offBooks runtime server server.name w)).calm
    · obtain ⟨hcan, -⟩ := ScheduledStarts.respawnServerContainer_remade server.name new v hr
      have hrestarts : autoRestarts w allowed runtime server = true := by
        rw [autoRestarts, hallowed, hc, if_pos hgpu, hcan]
        rfl
      exact Bool.noConfusion (hrestarts.symm.trans hfits)
  next => exact refl_of Calm w

theorem sync_leads (hfind : w.servers.find server.id = some server) (hfresh : server.id < w.nextUuid)
    (hfits : Fits w (.sync runtime) server) :
    Returns (syncServer runtime server) w fun _ t =>
      if resumes .listServers runtime server then Leads (fun id => decide (id = server.id)) w t else Calm w t := by
  have hcalm (h : ¬ (server.containerId.isSome = true ∧ runtime.status = .running ∧ server.status ≠ .running)) {t : World}
      (ht : Calm w t) :
      if resumes .listServers runtime server then Leads (fun id => decide (id = server.id)) w t else Calm w t := by
    rw [if_neg fun hresumes => h (of_decide_eq_true hresumes).2]
    exact ht
  have hstop : Returns (if server.status = .running then
      modifyServer server.id fun s => { s with status := .stopped, stoppedAt := some w.now }
    else pure ()) w fun _ t => Calm w t := by
    refine .ite (fun _ => ?_) fun _ => .pure (refl_of Calm w)
    rintro _ _ ⟨⟩
    exact modifyServer_calm server.id (fun s => { s with status := .stopped, stoppedAt := some w.now }) (fun _ => rfl)
      (fun row => .inr ⟨rfl, rfl, rfl, rfl⟩) w
  refine .ite (fun hc => .bind_of_ok rfl ?_) fun hnone => .pure (hcalm (fun h => hnone h.1) (refl_of Calm w))
  cases hs : runtime.status with
  | running =>
      refine .ite (fun hne => ?_) fun hrunning => .pure (hcalm (fun h => hrunning h.2.2) (refl_of Calm w))
      have hresumes : resumes .listServers runtime server = true := decide_eq_true ⟨rfl, hc, hs, hne⟩
      rintro _ _ ⟨⟩
      rw [if_pos hresumes]
      refine edited_leads (refl_of OffBooks w) hfind hfresh _ _ ⟨rfl, fun _ => ?_, fun h => nomatch h⟩
      exact ⟨hc, rfl, rfl, ⟨rfl, rfl⟩, hfits hresumes⟩
  | stopped | paused => exact fun _ t hr => hcalm (by simp [hs]) (hstop _ t hr)
  | unknown => exact .pure (hcalm (by simp [hs]) (refl_of Calm w))

theorem sync_raises : Raises (syncServer runtime server) w fun _ t => Calm w t := by
  refine .ite (fun _ => .bind_of_ok rfl ?_) fun _ => .pure
  cases runtime.status with
  | running => exact .ite (fun _ => fun _ _ hr => nomatch hr) fun _ => .pure
  | stopped | paused => exact .ite (fun _ => fun _ _ hr => nomatch hr) fun _ => .pure
  | unknown => exact .pure

end Openings

section Updates

variable {w t : World} {answers : UpdateAnswers} {runtime : Runtime} {commits : UpdateCommits} {actorId : Uuid}
  {actorName message : String} {body : UpdateRequest} {server draft : Server} {serverId : Uuid} {session : Option Instant}

theorem elsewhere_of_quiet {α : Type} {m : Handler α} (serverId : Uuid) (h : Moves Quiet m) : Moves (Elsewhere serverId) m :=
  h.mono fun _ _ hw => Quiet.elsewhere hw serverId

theorem elsewhere_of_offBooks {α : Type} {m : Handler α} (serverId : Uuid) (h : Moves OffBooks m) :
    Moves (Elsewhere serverId) m := elsewhere_of_quiet serverId (quiet_of_offBooks h)

theorem commitRow_elsewhere (draft : Server) : Moves (Elsewhere draft.id) (commitRow draft) := modifyServer_elsewhere _ _ _

theorem applyName_elsewhere : Moves (Elsewhere serverId) (applyName body server) := by
  unfold applyName
  split
  · exact .pure _
  · refine .bind .get fun _ => ?_
    split
    · exact .throw _
    · exact .pure _

theorem reserveForPlan_offBooks (draft : Server) (plan : ServerPlan) : Moves OffBooks (reserveForPlan draft plan) := by
  refine .bind .get fun _ => .ite (.bind (UsageCounters.release_offBooks _) fun _ => .ite ?_ (.pure _)) (.pure _)
  refine .bind (allocate_offBooks _ _) fun devices => ?_
  cases devices with
  | some devices => exact .pure _
  | none => exact .ite (.bind (allocate_offBooks _ _) fun _ => .throw _) (.throw _)

theorem applyPlan_elsewhere : Moves (Elsewhere draft.id) (applyPlan answers actorId body draft) := by
  have hcheck (planId : Uuid) (exclude : Option Uuid) : Moves Quiet (checkSpawnAllowed actorId planId exclude) := fun w => by
    rw [final_of_ok (checkSpawnAllowed_run_excluding w actorId planId exclude)]
    exact ⟨⟨rfl, rfl, fun _ => rfl, le_rfl⟩, rfl⟩
  unfold applyPlan
  split
  · exact .pure _
  · refine .bind .get fun _ => ?_
    split
    · exact .throw _
    · refine .ite (.throw_bind _ _) (.ite (.throw_bind _ _) (.bind (elsewhere_of_quiet _ (hcheck _ _)) fun refusal => ?_))
      refine .bind (commitRow_elsewhere draft) fun _ => ?_
      cases refusal with
      | some refusal => exact .throw _
      | none => exact .bind (elsewhere_of_offBooks _ (reserveForPlan_offBooks _ _)) fun _ => .pure _

theorem applyPlan_id : Returns (applyPlan answers actorId body draft) w fun d _ => d.id = draft.id := by
  unfold applyPlan
  split
  · exact .pure rfl
  · refine .get_bind ?_
    split
    · exact .throw _
    · refine .ite (fun _ => .throw_bind _) fun _ => .ite (fun _ => .throw_bind _) fun _ => ?_
      refine .bind fun refusal _ _ => .bind fun _ _ _ => ?_
      cases refusal with
      | some refusal => exact .throw _
      | none => exact .bind fun _ _ _ => .pure rfl

theorem applyEnvironment_elsewhere : Moves (Elsewhere serverId) (applyEnvironment answers body draft) := by
  unfold applyEnvironment
  split
  · exact .pure _
  · exact .bind .get fun _ => .ite (.throw_bind _ _) (.ite (.throw_bind _ _) (.pure _))

theorem applyEnvironment_id : Returns (applyEnvironment answers body draft) w fun d _ => d.id = draft.id := by
  unfold applyEnvironment
  split
  · exact .pure rfl
  · exact .get_bind (.ite (fun _ => .throw_bind _) fun _ => .ite (fun _ => .throw_bind _) fun _ => .pure rfl)

theorem createMountVolume_elsewhere {fault : Option Creation.VolumeFault} {idx : Nat} {size : Int} :
    Moves (Elsewhere draft.id) (createMountVolume fault message actorId draft idx size) := by
  refine .bind (elsewhere_of_offBooks _ (UsageCounters.createVolume_offBooks _ _ _ _ _)) fun _ => ?_
  exact .bind (commitRow_elsewhere draft) fun _ => .ite (.throw_bind _ _) (.pure _)

theorem prepareMounts_elsewhere {limit : Int} {requested : List (Creation.MountRequest × Nat)} :
    Moves (Elsewhere draft.id) (ServerUpdate.prepareMounts answers message actorId draft limit requested) := by
  induction requested with
  | nil => exact .pure _
  | cons head rest ih =>
      obtain ⟨mount, idx⟩ := head
      have hrest (volumeId : Uuid) : Moves (Elsewhere draft.id) (do
          let mounts ← ServerUpdate.prepareMounts answers message actorId draft limit rest
          return Creation.mountFor mount idx volumeId :: mounts : Handler (List VolumeMount)) := .bind ih fun _ => .pure _
      unfold ServerUpdate.prepareMounts
      split
      · split
        · exact .throw_bind _ _
        · exact .bind (.pure _) hrest
      · exact .bind createMountVolume_elsewhere hrest

theorem applyMounts_elsewhere : Moves (Elsewhere draft.id) (applyMounts answers message actorId body draft) := by
  have hchecks (bytes : Int) : Moves (Elsewhere draft.id) (ServerUpdate.checkNewVolumes actorId draft bytes) := by
    refine .ite (.bind .get fun _ => .ite (.bind (commitRow_elsewhere draft) fun _ => ?_) ?_) (.pure _)
    all_goals
      refine .bind (elsewhere_of_quiet _ (checkVolumeCreationAllowed_quiet _ _)) fun refusal => ?_
      cases refusal with
      | some refusal => exact .throw _
      | none => exact .pure _
  unfold applyMounts
  split
  · exact .pure _
  · refine .bind .get fun _ => .bind (hchecks _) fun _ => .bind prepareMounts_elsewhere fun mounts => .ite ?_ (.pure _)
    split
    · exact .throw_bind _ _
    · exact .pure _

theorem stopContainer_elsewhere : Moves (Elsewhere serverId) (stopContainer runtime body draft) := by
  refine .ite (.bind (elsewhere_of_offBooks _ (delete_offBooks _ _)) fun _ => .ite (.throw_bind _ _) ?_) (.pure _)
  exact .bind moves_utcNow fun _ => .pure _

theorem stopContainer_id : Returns (stopContainer runtime body draft) w fun d _ => d.id = draft.id := by
  refine .ite (fun _ => .bind fun _ _ _ => .ite (fun _ => .throw_bind _) fun _ => ?_) fun _ => .pure rfl
  exact .bind fun _ _ _ => .pure rfl

theorem commitMounts_elsewhere (serverId : Uuid) (rows : List ServerVolume) :
    Moves (Elsewhere draft.id) (commitMounts serverId rows) :=
  .modify fun _ => ⟨⟨rfl, rfl, fun _ => rfl, le_rfl⟩, fun _ _ => rfl⟩

theorem saveMounts_elsewhere {home : String} {mounts : List (VolumeMount × Nat)} {rows : List ServerVolume} :
    Moves (Elsewhere draft.id) (saveMounts answers message home draft mounts rows) := by
  induction mounts generalizing rows with
  | nil => exact .pure _
  | cons head rest ih =>
      unfold saveMounts
      refine .ite (.throw_bind _ _) (.ite ?_ ih)
      exact .bind (commitRow_elsewhere draft) fun _ => .bind (commitMounts_elsewhere _ _) fun _ => ih

theorem saveUpdate_elsewhere {mounts : Option (List VolumeMount)} :
    Moves (Elsewhere draft.id) (saveUpdate answers commits actorName mounts draft) := by
  unfold saveUpdate
  split
  · exact .ite (.throw_bind _ _) (.bind (commitRow_elsewhere draft) fun _ => .pure _)
  · refine .bind .get fun _ => .bind saveMounts_elsewhere fun _ => .ite (.throw_bind _ _) ?_
    exact .bind (modifyServer_elsewhere _ _ _) fun _ => .bind (commitMounts_elsewhere _ _) fun _ => .pure _

theorem saveUpdate_id {mounts : Option (List VolumeMount)} :
    Returns (saveUpdate answers commits actorName mounts draft) w fun d _ => d.id = draft.id := by
  unfold saveUpdate
  split
  · exact .ite (fun _ => .throw_bind _) fun _ => .bind fun _ _ _ => .pure rfl
  · refine .get_bind (.bind fun _ _ _ => .ite (fun _ => .throw_bind _) fun _ => ?_)
    exact .bind fun _ _ _ => .bind fun _ _ _ => .pure rfl

theorem respawnUpdated_elsewhere : Moves (Elsewhere draft.id) (respawnUpdated runtime commits actorName draft) := by
  have hspawn (request : SpawnRequest) : Moves (Elsewhere draft.id) (attempt (spawn runtime request)) :=
    .tryCatch (.bind (elsewhere_of_offBooks _ (spawn_offBooks _ _)) fun _ => .pure _) fun _ => .pure _
  refine .bind .get fun _ => .bind (elsewhere_of_offBooks _ (ensureGpuDevices_offBooks _ _)) fun _ => ?_
  refine .bind (hspawn _) fun result => ?_
  cases result with
  | ok new =>
      refine .ite (.throw_bind _ _) (.bind moves_utcNow fun _ => .bind (modifyServer_elsewhere _ _ _) fun _ => .pure _)
  | error raise =>
      refine .ite (.throw_bind _ _) (.bind (modifyServer_elsewhere _ _ _) fun _ => ?_)
      exact .bind (elsewhere_of_offBooks _ (UsageCounters.release_offBooks _)) fun _ => .throw _

theorem applyName_id : Returns (applyName body server) w fun d _ => d.id = server.id := by
  unfold applyName
  split
  · exact .pure rfl
  · refine .get_bind ?_
    split
    · exact .throw _
    · exact .pure rfl

theorem applyUpdate_elsewhere (hid : draft.id = serverId) :
    Moves (Elsewhere serverId) (applyUpdate answers runtime commits actorId actorName body draft) := by
  subst hid
  refine .bind_returns applyPlan_elsewhere (fun _ => applyPlan_id) fun d hd => hd ▸ ?_
  refine .bind_returns applyEnvironment_elsewhere (fun _ => applyEnvironment_id) fun d hd => hd ▸ ?_
  refine .bind applyMounts_elsewhere fun mounts => ?_
  refine .bind_returns stopContainer_elsewhere (fun _ => stopContainer_id) fun d hd => hd ▸ ?_
  refine .bind_returns saveUpdate_elsewhere (fun _ => saveUpdate_id) fun d hd => hd ▸ ?_
  exact .ite respawnUpdated_elsewhere (.pure _)

theorem updateServer_elsewhere (serverId : Uuid) :
    Moves (Elsewhere serverId) (updateServer answers runtime commits actorId actorName serverId body) := by
  intro w
  unfold updateServer
  rw [final_bind_of_ok (run_findServer serverId w)]
  cases hfind : w.servers.find serverId with
  | none => exact refl_of (Elsewhere serverId) w
  | some server =>
      have hid : server.id = serverId := Table.key_of_find hfind
      dsimp only
      cases answers.accessRefusal with
      | some raise => exact refl_of (Elsewhere serverId) w
      | none =>
          refine Moves.bind_returns applyName_elsewhere (fun _ => applyName_id) (fun d hd => ?_) w
          exact applyUpdate_elsewhere (hd.trans hid)

theorem reading_named (body : UpdateRequest) (server : Server) : reading (named body server) = reading server := by
  unfold named
  split <;> rfl

theorem reading_configuredRow (w : World) (body : UpdateRequest) (server : Server) :
    reading (configuredRow w body server) = reading server := by
  have hplanned (s : Server) : reading (planned w body s) = reading s := by
    unfold planned
    split <;> rfl
  have hplaced (s : Server) : reading (placed body s) = reading s := by
    unfold placed
    split <;> rfl
  exact (hplaced _).trans ((hplanned _).trans (reading_named body server))

theorem expiresAt_emptiedRow (w : World) (body : UpdateRequest) (server : Server) :
    (emptiedRow w body server).expiresAt = server.expiresAt := by
  have hexpires : (configuredRow w body server).expiresAt = server.expiresAt :=
    congrArg Reading.expiresAt (reading_configuredRow w body server)
  unfold emptiedRow
  dsimp only
  split <;> exact hexpires

theorem halted_emptiedRow (w : World) (body : UpdateRequest) (server : Server) : Halted server (emptiedRow w body server) := by
  have hreading := reading_configuredRow w body server
  unfold emptiedRow
  dsimp only
  split
  · exact .inr ⟨congrArg Reading.id hreading, congrArg Reading.userId hreading, rfl, rfl⟩
  · exact .inl hreading

theorem reading_savedAs {row : Server} {mounts : Option (List ServerVolume)} (h : SavedAs w body server row mounts) :
    reading row = reading (emptiedRow w body server) := by
  obtain ⟨volumeId, rfl⟩ := UpdateAtomicity.savedAs_draft h
  rfl

theorem halted_savedAs {row : Server} {mounts : Option (List ServerVolume)} (h : SavedAs w body server row mounts) :
    Halted server row :=
  (halted_emptiedRow w body server).trans (.inl (reading_savedAs h))

theorem halted_broken {row : Server} {mounts : Option (List ServerVolume)}
    (hright : Right session (limited w server.userId) (reading server))
    (hstatus : server.status = .running ∨ server.status = .stopped) (hrecreates : recreates body = true)
    (h : SavedAs w body server row mounts) : Halted server (brokenFields row) := by
  have hnone : row.containerId = none := UpdateAtomicity.savedAs_containerId hrecreates h
  obtain hsame | ⟨hid, huserId, -, hstoppedAt⟩ := halted_savedAs h
  · have hid : row.id = server.id := congrArg Reading.id hsame
    have huserId : row.userId = server.userId := congrArg Reading.userId hsame
    have hcontainer : row.containerId = server.containerId := congrArg Reading.containerId hsame
    have hstoppedAt : row.stoppedAt = server.stoppedAt := congrArg Reading.stoppedAt hsame
    obtain hrunning | hstopped := hstatus
    · have hsome : server.containerId.isSome = true := (hright.1 hrunning).1
      rw [← hcontainer, hnone] at hsome
      exact nomatch hsome
    · refine .inr ⟨hid, huserId, rfl, ?_⟩
      change row.stoppedAt.isSome = true
      rw [hstoppedAt]
      exact hright.2 hstopped
  · exact .inr ⟨hid, huserId, rfl, hstoppedAt⟩

theorem left_halted {b : UpdateBreaks.Break} (hright : Right session (limited w server.userId) (reading server))
    (hstatus : server.status = .running ∨ server.status = .stopped) (hbroken : b = .broken → recreates body = true)
    (h : UpdateBreaks.Left w body server t b) : ∀ row' ∈ t.servers.find server.id, Halted server row' := by
  have hfound {row : Server} {mounts : Option (List ServerVolume)} {devices : List GpuAllocation}
      (hheld : Held w server.id row mounts devices t) (hrow : Halted server row) :
      ∀ row' ∈ t.servers.find server.id, Halted server row' := by
    intro row' hrow'
    obtain rfl := Option.some.inj (hheld.found.symm.trans hrow')
    exact hrow
  have hnamed := reading_named body server
  cases b with
  | early => exact hfound h (.inl rfl)
  | checked => exact hfound h (.inl hnamed)
  | short => exact hfound h (.inl hnamed)
  | configured committed =>
      refine hfound h (.inl ?_)
      split
      · exact reading_configuredRow w body server
      · split
        · exact hnamed
        · rfl
  | mounted count =>
      obtain ⟨filled, -, h⟩ := h
      exact hfound h (halted_emptiedRow w body server)
  | saved reserved =>
      obtain ⟨row, mounts, hsaved, h⟩ := h
      split at h
      · obtain ⟨v, count, -, -, -, h⟩ := h
        exact hfound h (halted_savedAs hsaved)
      · exact hfound h (halted_savedAs hsaved)
  | broken =>
      obtain ⟨row, mounts, rows, hsaved, h⟩ := h
      exact hfound h (halted_broken hright hstatus (hbroken rfl) hsaved)

theorem update_leads (hmade : NamesMade w body) (hfind : w.servers.find server.id = some server)
    (hfresh : server.id < w.nextUuid) (hfits : Fits w (.update answers runtime commits actorId actorName body) server) :
    Returns (updateServer answers runtime commits actorId actorName server.id body) w fun _ t =>
      if recreates body then Leads (fun id => decide (id = server.id)) w t else Calm w t := by
  intro row t hr
  have helsewhere : Elsewhere server.id w t := final_of_ok hr ▸ updateServer_elsewhere server.id w
  obtain ⟨hnone, hfound, saved, mounts, hsaved, hrow⟩ := UpdateAtomicity.updateServer_returns hmade hfind row t hr
  have hrow' {P : Server → Prop} (h : P row) : ∀ row' ∈ t.servers.find server.id, P row' := by
    intro row' hrow'
    obtain rfl := Option.some.inj (hfound.symm.trans hrow')
    exact h
  split
  next hrecreates =>
    rw [if_pos hrecreates] at hrow
    obtain ⟨new, hcontainer, rfl⟩ := hrow
    have huserId : saved.userId = server.userId :=
      (halted_savedAs hsaved).elim (congrArg Reading.userId) fun h => h.2.1
    have hexpires : saved.expiresAt = server.expiresAt :=
      (congrArg Reading.expiresAt (reading_savedAs hsaved)).trans (expiresAt_emptiedRow w body server)
    refine helsewhere.leads hfresh (hrow' ⟨rfl, fun _ => ⟨hcontainer, rfl, rfl, ⟨rfl, rfl⟩, ?_⟩, fun h => nomatch h⟩)
    change saved.expiresAt.isSome = limited w saved.userId
    rw [hexpires, huserId]
    exact hfits hrecreates hnone
  next hkeeps =>
    rw [if_neg hkeeps] at hrow
    exact helsewhere.calm hfind (hrow' (hrow ▸ halted_savedAs hsaved))

theorem update_raises (hmade : NamesMade w body) (hfind : w.servers.find server.id = some server)
    (hright : Right session (limited w server.userId) (reading server))
    (hstatus : server.status = .running ∨ server.status = .stopped) :
    Raises (updateServer answers runtime commits actorId actorName server.id body) w fun _ t => Calm w t := by
  intro raise t hr
  have helsewhere : Elsewhere server.id w t := final_of_error hr ▸ updateServer_elsewhere server.id w
  obtain ⟨b, -, -, hbroken, hleft⟩ := UpdateAtomicity.updateServer_breaks hmade hfind raise t hr
  exact helsewhere.calm hfind (left_halted hright hstatus hbroken hleft)

end Updates

theorem perform_leads {w : World} {op : Operation} {server : Server} {session : Option Instant}
    (hfind : w.servers.find server.id = some server) (hfresh : server.id < w.nextUuid)
    (hright : Right session (limited w server.userId) (reading server))
    (hstatus : server.status = .running ∨ server.status = .stopped) (happlies : applies w op server = true)
    (hfits : Fits w op server) :
    Leads (fun id => decide (id = server.id) && (opens w op server && (raised (perform op server) w).isNone)) w
      (final (perform op server) w) := by
  cases op with
  | launch path runtime =>
      refine leads_of server.id (launch_leads hfind hfresh hright hfits) fun raise t hr => ?_
      exact (OffBooks.quiet (launch_raises path raise t hr)).calm
  | leave path runtime => exact leads_of_calm server.id (leave_calm hfind hright.2 hfits) hfits.1
  | bulkStart runtime =>
      refine leads_of_calm server.id (bulkStart_calm hfind hfits) ?_
      rw [opens, Bool.and_eq_false_iff]
      by_cases hstarts : bulkStarts w runtime server = true
      · obtain ⟨hgpu, hruns, -⟩ := hfits hstarts
        exact .inr (by simp [hgpu, hruns])
      · exact .inl (Bool.eq_false_of_not_eq_true hstarts)
  | sync runtime => exact leads_of server.id (sync_leads hfind hfresh hfits) sync_raises
  | update answers runtime commits actorId actorName body =>
      have hmade : NamesMade w body := of_decide_eq_true happlies
      refine leads_of server.id (.bind fun _ t hr => .pure ?_) (.bind ?_ fun _ _ _ => .pure)
      · exact update_leads hmade hfind hfresh hfits _ t hr
      · exact update_raises hmade hfind hright hstatus
  | enforceVolumeQuota runtime => exact leads_of_calm server.id (enforceVolumeQuota_calm runtime server w) rfl
  | autoRestart allowed runtime => exact leads_of_calm server.id (autoRestart_calm hfits) hfits

theorem Kept.writeUser {s : Site} (hs : Kept s) {userId : Uuid} {f : User → User} (hkeeps : KeepsLimit s.world userId f) :
    Kept { s with world := ServerRecords.writeUser s.world userId f } := by
  refine ⟨fun row hrow => ?_, hs.status, hs.fresh⟩
  have hright : Right (s.session row.id) (limited s.world row.userId) (reading row) := hs.recorded row hrow
  change Right (s.session row.id) (limited (ServerRecords.writeUser s.world userId f) row.userId) (reading row)
  rw [limited_writeUser]
  split
  next howner =>
    obtain hrunning | hstopped := hs.status row hrow
    · have hsame : ((s.world.users userId).any fun user => limitEnabled s.world.settings (f user)) =
          limited s.world row.userId := by
        rw [limited, howner]
        cases huser : s.world.users userId with
        | none => rfl
        | some user => exact hkeeps ⟨row, hrow, howner, hrunning⟩ user huser
      rw [hsame]
      exact hright
    · have hnot : row.status ≠ .running := by rw [hstopped]; decide
      exact ⟨fun hrunning => absurd hrunning hnot, hright.2⟩
  next => exact hright

/-- A step that meets its guard keeps every row right. -/
theorem kept_step (s : Site) (event : Event) (t : Site) (hs : Kept s) (hguarded : Guarded s event)
    (hstep : step s event = some t) : Kept t := by
  cases event with
  | create answers runtime commits userId request =>
      obtain ⟨user, huser, rfl⟩ := Option.map_eq_some_iff.mp hstep
      exact hs.created (createServer_grown huser)
  | processQueue runtime commits =>
      obtain ⟨entry, -, rfl⟩ := Option.map_eq_some_iff.mp hstep
      exact hs.created processEntry_grown
  | write serverId op =>
      rw [step] at hstep
      dsimp only at hstep
      cases hfind : s.world.servers.find serverId with
      | none =>
          rw [hfind] at hstep
          exact nomatch hstep
      | some server =>
          rw [hfind] at hstep
          dsimp only at hstep
          obtain rfl : server.id = serverId := Table.key_of_find hfind
          have hrow : server ∈ s.world.servers.rows := Table.mem_of_find hfind
          split at hstep
          next happlies =>
            cases hstep
            refine hs.after (perform_leads hfind ?_ (hs.recorded server hrow) ?_ happlies (hguarded server hfind))
            · exact hs.fresh server hrow
            · exact hs.status server hrow
          next => exact nomatch hstep
  | updatePreferences userId request =>
      cases hstep
      exact hs.writeUser hguarded
  | resetPreferences userId =>
      cases hstep
      exact hs.writeUser hguarded
  | wait duration =>
      cases hstep
      exact ⟨hs.recorded, hs.status, hs.fresh⟩

/-- In a run whose steps all meet the guard, every row says what it has to, all along. -/
theorem recorded_of_guarded (s : Site) (hs : Kept s) (events : List Event) (h : AllSteps step Guarded s events) :
    AllStates step Recorded s events :=
  (allStates_of_allSteps kept_step hs h).mono fun _ hs => hs.recorded

def emptySite : Site := ⟨Creation.oneUserWorld, fun _ => none⟩

theorem kept_emptySite : Kept emptySite where
  recorded _ hrow := absurd hrow List.not_mem_nil
  status _ hrow := absurd hrow List.not_mem_nil
  fresh _ hrow := absurd hrow List.not_mem_nil

def createdServer : List Event := [.create Creation.willing (obedient .running) .succeed 1 (Creation.named "lab")]

/-- A server is created, stopped by its owner and started again. -/
def startedOver : List Event :=
  createdServer ++
    [.wait 60, .write 1001 (.leave .stop (obedient .running)), .wait 60,
      .write 1001 (.launch (.start ⟨true, none⟩ "ada") (obedient .unknown))]

theorem recorded_of_guarded_startedOver : AllStates step Recorded emptySite startedOver :=
  recorded_of_guarded emptySite kept_emptySite startedOver (by decide +kernel)

/-- A bulk stop does not say when, a start by a bulk action or a schedule leaves
what the stop has said, a restart by the health checks is not dated, and a limit
that is enabled later leaves the server without an end. -/
theorem operations_not_recorded :
    ¬ AllStates step Recorded emptySite (createdServer ++ [.write 1001 (.leave .bulkStop (obedient .running))]) ∧
      ¬ AllStates step Recorded emptySite
        (createdServer ++
          [.write 1001 (.leave .listServers (obedient .stopped)), .write 1001 (.launch .scheduledStart (obedient .stopped))]) ∧
      ¬ AllStates step Recorded emptySite
        (createdServer ++ [.write 1001 (.leave .listServers (obedient .stopped)), .write 1001 (.bulkStart (obedient .stopped))]) ∧
      ¬ AllStates step Recorded emptySite
        (createdServer ++ [.wait 60, .write 1001 (.autoRestart true (obedient .running))]) ∧
      ¬ AllStates step Recorded emptySite (createdServer ++ [.updatePreferences 1 ⟨some true, some 60⟩]) := by
  refine ⟨?_, ?_, ?_, ?_, ?_⟩ <;> decide +kernel

end NukeLab.ServerRecords
