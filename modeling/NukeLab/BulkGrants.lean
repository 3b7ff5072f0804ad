import NukeLab.BulkActions

namespace NukeLab.BulkGrants

open Program Tables Records Roles State GpuAllocator Lifecycle Launches Frames BulkActions Settlement
open Administration (Account Site hasPermission requireJwtAuth requirePermissions require)
open Notifications (Readable shouldSend_readable shouldSend_unreadable)
open ScheduledStarts (gpuCount devicesThere canRemake)
open ServerRecords (Elsewhere modifyServer_elsewhere elsewhere_of_offBooks)
open UpdateAtomicity (hostFull)

inductive Endpoint
  | bulk
  | admin

namespace Endpoint

def gate : Endpoint → Caller → BulkServerActionRequest → Except Raise Action
  | bulk => bulkGate
  | admin => adminGate

def handle : Endpoint → Caller → BulkServerActionRequest → Handler Results
  | bulk, caller, body => do return (← bulkServerAction caller body).results
  | admin, caller, body => do return (← adminBulkServerAction caller body).results

def entries : Endpoint → BulkServerActionRequest → Table Server.id → List Entry
  | bulk, body, _ => body.entries
  | admin, body, fetched => found body fetched

def turn : Endpoint → Caller → BulkServerActionRequest → Table Server.id → Action → Entry → Handler Unit
  | bulk, caller, body, _, action, entry => bulkTurn caller action body.reason entry
  | admin, _, _, fetched, action, entry => adminTurn fetched action entry

/-- The admin's endpoint passes over a start or a stop of a server without a
container, and lists it as done. -/
def reaches : Endpoint → Action → Server → Bool
  | bulk, _, _ => true
  | admin, action, server => decide (action = .delete) || server.containerId.isSome

/-- The reason the request of a single server carries: the one given, where there
is a place for one, and any that the caller likes where there is none. -/
def carries : Endpoint → BulkServerActionRequest → Option String → Prop
  | bulk, body, reason => reason = body.reason
  | admin, _, _ => True

end Endpoint

/-- The server an identifier stands for, however it is spelt. -/
def denoted (servers : Table Server.id) : SentId → Option Server
  | .uuid path => servers.find path.id
  | .malformed _ => none

/-- A status below 500 blames the request, one from there on the server. -/
def refuses : Raise → Bool
  | .http status _ => decide (status < 500)
  | .exception _ => false

/-- The endpoint of a single server takes the request on, and may yet fail at it. -/
def Accepts (caller : Caller) (reason : Option String) (action : Action) (entry : Entry) (w : World) : Prop :=
  Raises (action.endpoint caller reason entry) w fun raise _ => refuses raise = false

/-- One turn: done only where the request of the single server is accepted, and
without a trace on any row where it fails. -/
structure Granted (endpoint : Endpoint) (caller : Caller) (body : BulkServerActionRequest) (fetched : Table Server.id)
    (action : Action) (w : World) (entry : Entry) : Prop where
  accepted : ∀ server, denoted w.servers entry.serverId = some server → endpoint.reaches action server = true →
    Returns (endpoint.turn caller body fetched action entry) w fun _ _ =>
      ∃ reason, endpoint.carries body reason ∧ Accepts caller reason action entry w
  kept : Raises (endpoint.turn caller body fetched action entry) w fun _ t => t.servers = w.servers

/-- A whole request: every turn is granted in the state that the turns before it
left, and no server changes but those that are listed as done. -/
structure Confined (endpoint : Endpoint) (caller : Caller) (body : BulkServerActionRequest) (w : World) : Prop where
  granted : ∀ action, endpoint.gate caller body = .ok action →
    ∀ before entry after, endpoint.entries body w.servers = before ++ entry :: after →
      Granted endpoint caller body w.servers action
        (final (eachEntry (endpoint.turn caller body w.servers action) before) w) entry
  untouched : Returns (endpoint.handle caller body) w fun results t =>
    ∀ id, (∀ sent ∈ results.succeeded, ¬ sent.names id) → t.servers.find id = w.servers.find id
  refused : Raises (endpoint.handle caller body) w fun _ t => t = w

section Condition

def mayWrite (caller : Caller) (server : Server) : Bool :=
  hasPermission caller.site caller.user .serversWriteOwn &&
    (!decide (crossUser caller server) ||
      [Permission.serversWriteAll, .serversAccessOthers].any (hasPermission caller.site caller.user))

def DevicesSuffice (w : World) (runtime : Runtime) (server : Server) : Prop :=
  runtime.status ≠ .running →
    runtime.status = .unknown ∨ runtime.status = .stopped ∨ gpuRequiresRecreate w server (planOf w server) = true →
      devicesThere w server = true

instance (w : World) (runtime : Runtime) (server : Server) : Decidable (DevicesSuffice w runtime server) :=
  inferInstanceAs (Decidable (_ → _ → _))

def carriedOut (action : Action) (w : World) (runtime : Runtime) (server : Server) : Bool :=
  match action with
  | .start => if gpuRequiresRecreate w server none then canRemake w runtime server else runtime.starts
  | .stop => runtime.stops
  | .delete => server.containerId.isNone || runtime.deletes
  | .restart => true

def Fair (caller : Caller) (action : Action) (w : World) (entry : Entry) : Prop :=
  ∀ server ∈ denoted w.servers entry.serverId,
    Endpoint.admin.reaches action server = true → carriedOut action w entry.runtime server = true →
      mayWrite caller server = true ∧
        (action = .start → startRefusal w entry.answers server = none ∧ DevicesSuffice w entry.runtime server)

instance (caller : Caller) (action : Action) (w : World) (entry : Entry) : Decidable (Fair caller action w entry) :=
  inferInstanceAs (Decidable (∀ server ∈ denoted w.servers entry.serverId, _ → _ → _ ∧ (_ → _)))

/-- Where the action gets as far as telling the owner, the channels stored for its
event are an object, if there are any. A restart may leave no trace: of a server
started at this very instant. -/
def Told (caller : Caller) (action : Action) (reason : Option String) (w : World) (entry : Entry) : Prop :=
  ∀ server ∈ denoted w.servers entry.serverId, bulkCheck caller action reason entry server = .ok () →
    Returns (act caller entry action server) w fun reply t => (action = .restart → t.servers ≠ w.servers) →
      ∀ eventKey ∈ eventOf action reply, Readable entry.preferences eventKey

def Admitted : Endpoint → Caller → BulkServerActionRequest → World → Prop
  | .bulk, caller, body, w =>
    ∀ action, bulkGate caller body = .ok action →
      ∀ before entry after, body.entries = before ++ entry :: after →
        Told caller action body.reason (final (eachEntry (bulkTurn caller action body.reason) before) w) entry
  | .admin, caller, body, w =>
    ∀ action, adminGate caller body = .ok action →
      ∀ before entry after, found body w.servers = before ++ entry :: after →
        Fair caller action (final (eachEntry (adminTurn w.servers action) before) w) entry

end Condition

section Access

variable {caller : Caller} {reason : Option String} {sent : SentId} {act : Server → Handler Reply} {w : World}
  {server : Server}

theorem ofExcept_run {α : Type} (x : Except Raise α) (w : World) :
    (ofExcept x : Handler α).run w =
      match x with
      | .ok a => .ok a w
      | .error raise => .error raise w := by
  cases x <;> rfl

theorem findSent_run (hfind : denoted w.servers sent = some server) : (findSent sent).run w = .ok (some server) w := by
  cases sent with
  | uuid path => rw [findSent, run_findServer]; exact congrArg (EStateM.Result.ok · w) hfind
  | malformed error => cases hfind

theorem getServer_run {permissions : List Permission} (hjwt : caller.method = .jwt)
    (hfind : denoted w.servers sent = some server) :
    (getServerWithPermissionCheck caller sent permissions).run w =
      if crossUser caller server then
        match requireAny caller.site caller.user permissions with
        | .ok _ => .ok server w
        | .error raise => .error raise w
      else .ok server w := by
  rw [getServerWithPermissionCheck, EStateM.run_bind, findSent_run hfind]
  dsimp only
  by_cases hcross : crossUser caller server
  · rw [if_pos hcross, if_pos hcross, if_neg (not_not.mpr hjwt), EStateM.run_bind, ofExcept_run]
    cases requireAny caller.site caller.user permissions <;> rfl
  · rw [if_neg hcross, if_neg hcross]
    rfl

theorem onServer_run (hjwt : caller.method = .jwt) (hfind : denoted w.servers sent = some server) :
    (onServer caller reason sent act).run w =
      if mayWrite caller server then
        if crossUser caller server ∧ reason.all Texts.isBlank then
          .error (.http 400 "A reason is required for cross-user server access") w
        else (act server).run w
      else
        .error (if hasPermission caller.site caller.user .serversWriteOwn then
          .http 403 ("One of these permissions required: " ++
            ", ".intercalate ([Permission.serversWriteAll, .serversAccessOthers].map Permission.text))
        else .http 403 ("Insufficient permissions. Required: " ++ Permission.serversWriteOwn.text)) w := by
  rw [onServer, EStateM.run_bind, ofExcept_run, requirePermissions]
  by_cases hown : hasPermission caller.site caller.user .serversWriteOwn = true
  · rw [if_pos hown, if_pos hown]
    dsimp only
    rw [EStateM.run_bind, getServer_run hjwt hfind, requireAny, mayWrite, hown, Bool.true_and]
    by_cases hcross : crossUser caller server
    · rw [if_pos hcross, decide_eq_true hcross, Bool.not_true, Bool.false_or]
      by_cases hany : [Permission.serversWriteAll, .serversAccessOthers].any (hasPermission caller.site caller.user) = true
      · rw [if_pos hany, if_pos hany]
        dsimp only
        rw [EStateM.run_bind, ofExcept_run, require, if_pos hown]
        dsimp only
        rw [if_pos hcross, EStateM.run_bind, ofExcept_run]
        dsimp only
        rw [EStateM.run_bind, auditCrossUserAccess, if_pos hcross]
        by_cases hreason : reason.all Texts.isBlank = true
        · rw [if_pos hreason, if_pos ⟨hcross, hreason⟩]
          rfl
        · rw [if_neg hreason, if_neg fun h => hreason h.2]
          rfl
      · rw [if_neg hany, if_neg hany]
    · rw [if_neg hcross, decide_eq_false hcross, Bool.not_false, Bool.true_or, if_pos rfl]
      rw [if_neg fun h : _ ∧ _ => hcross h.1]
      dsimp only
      rw [EStateM.run_bind, ofExcept_run, require, if_pos hown]
      dsimp only
      rw [if_neg hcross]
  · rw [if_neg hown, if_neg hown, mayWrite, Bool.eq_false_of_not_eq_true hown, Bool.false_and, if_neg Bool.false_ne_true]

theorem endpoint_eq (action : Action) (entry : Entry) :
    action.endpoint caller reason entry = onServer caller reason entry.serverId (perform caller entry action) := by
  cases action <;> rfl

theorem accepts_iff {action : Action} {entry : Entry} (hjwt : caller.method = .jwt)
    (hfind : denoted w.servers entry.serverId = some server) :
    Accepts caller reason action entry w ↔
      mayWrite caller server = true ∧ ¬ (crossUser caller server ∧ reason.all Texts.isBlank = true) ∧
        Raises (perform caller entry action server) w fun raise _ => refuses raise = false := by
  rw [Accepts, endpoint_eq, Raises, onServer_run hjwt hfind]
  by_cases hmay : mayWrite caller server = true
  · rw [if_pos hmay]
    by_cases hblank : crossUser caller server ∧ reason.all Texts.isBlank = true
    · rw [if_pos hblank]
      refine iff_of_false (fun h => ?_) fun h => h.2.1 hblank
      exact absurd (h _ w rfl) (by decide)
    · rw [if_neg hblank]
      exact ⟨fun h => ⟨hmay, hblank, h⟩, fun h => h.2.2⟩
  · rw [if_neg hmay]
    refine iff_of_false (fun h => ?_) fun h => hmay h.1
    have hrefused := h _ w rfl
    split at hrefused <;> cases hrefused

theorem tellOwner_unrefused {entry : Entry} {eventKey : String} {detail : Option String} {raise : Raise}
    (h : tellOwner entry eventKey detail = .error raise) : refuses raise = false := by
  by_cases hreadable : Readable entry.preferences eventKey
  · obtain ⟨on, hon⟩ := shouldSend_readable hreadable "in_app"
    rw [tellOwner, hon] at h
    cases h
  · rw [tellOwner, shouldSend_unreadable hreadable] at h
    cases detail <;> cases h <;> rfl

theorem tellOwner_readable {entry : Entry} {eventKey : String} (h : Readable entry.preferences eventKey)
    (detail : Option String) : tellOwner entry eventKey detail = .ok () := by
  obtain ⟨on, hon⟩ := shouldSend_readable h "in_app"
  rw [tellOwner, hon]

theorem tellOwner_unreadable {entry : Entry} {eventKey : String} (h : ¬ Readable entry.preferences eventKey)
    (detail : Option String) : ∃ raise, tellOwner entry eventKey detail = .error raise := by
  rw [tellOwner, shouldSend_unreadable h]
  exact ⟨_, rfl⟩

theorem tellOf_unrefused {entry : Entry} {action : Action} {reply : Reply} {raise : Raise}
    (h : tellOf entry action server reply = .error raise) : refuses raise = false := by
  unfold tellOf at h
  split at h
  · exact tellOwner_unrefused h
  · cases h

theorem tellOf_readable {entry : Entry} {action : Action} {reply : Reply}
    (h : ∀ eventKey ∈ eventOf action reply, Readable entry.preferences eventKey) :
    tellOf entry action server reply = .ok () := by
  unfold tellOf
  split
  next hevent => exact tellOwner_readable (h _ hevent) _
  next => rfl

theorem perform_run_error {action : Action} {entry : Entry} {raise : Raise} {t : World}
    (h : (BulkActions.act caller entry action server).run w = .error raise t) :
    (perform caller entry action server).run w = .error raise t := by
  rw [perform, EStateM.run_bind, h]

theorem perform_unrefused_iff (caller : Caller) (action : Action) (entry : Entry) (server : Server) :
    (Raises (perform caller entry action server) w fun raise _ => refuses raise = false) ↔
      Raises (BulkActions.act caller entry action server) w fun raise _ => refuses raise = false := by
  refine ⟨fun h raise t hr => h raise t (perform_run_error hr), fun h => .bind h fun reply t _ => ?_⟩
  refine .bind (fun raise u hr => ?_) fun _ _ _ => .pure
  rw [ofExcept_run] at hr
  split at hr
  next => cases hr
  next htold =>
    cases hr
    exact tellOf_unrefused htold

end Access

section Refusals

variable {w : World} {runtime : Runtime} {answers : Answers} {server : Server} {username : String}

theorem startRefusal_refuses {raise : Raise} (h : startRefusal w answers server = some raise) : refuses raise = true := by
  unfold startRefusal at h
  split at h
  · cases h
    rfl
  · split at h
    · cases h
    · split at h
      · cases h
        rfl
      · split at h
        · obtain ⟨detail, -, rfl⟩ := Option.map_eq_some_iff.mp h
          rfl
        · cases h

theorem failed_orServerError {α : Type} {detail : String} {body : Handler α} {Q : Raise → World → Prop}
    (h : Raises body w Q) (hfailed : ∀ text t, Q (.exception text) t → Q (.http 500 detail) t) :
    Raises (orServerError detail body) w Q := by
  refine .tryCatch fun raise t hr => ?_
  cases raise with
  | http status text => exact .throw (h _ t hr)
  | exception text => exact .throw (hfailed text t (h _ t hr))

theorem orServerError_http {α : Type} {detail text : String} {status : Nat} {body : Handler α} {t : World}
    (h : body.run w = .error (.http status text) t) :
    (orServerError detail body).run w = .error (.http status text) t := by
  rw [orServerError, run_tryCatch, h]
  rfl

theorem ownerExpiry_unrefused {v : World} : Raises (ownerExpiry server) v fun raise _ => refuses raise = false := by
  refine .get_bind ?_
  cases v.users server.userId with
  | none => exact .throw rfl
  | some owner => exact .pure

theorem opened_unrefused {v : World} {α : Type} (reply : α) (f : Instant → Option Instant → Server → Server)
    (hid : ∀ now expiry s, (f now expiry s).id = s.id) :
    Raises (do
      let expiry ← ownerExpiry server
      let now ← utcNow
      modifyServer server.id (f now expiry) (hid now expiry)
      return reply) v fun raise _ => refuses raise = false :=
  .bind ownerExpiry_unrefused fun _ _ _ => fun _ _ hr => by cases hr

theorem respawn_unrefused (containers : List Container) (hthere : devicesThere w server = true) :
    Raises (respawn runtime server (planOf w server) username) { w with containers := containers }
      fun raise _ => refuses raise = false := by
  refine .bind (fun raise t hr => ?_) fun devices v _ => .get_bind fun raise t hr => ?_
  · rw [ScheduledStarts.ensure_raises containers raise t hr] at hthere
    cases hthere
  · obtain ⟨⟨text, rfl⟩, -⟩ := CreationAtomicity.spawn_raises raise t hr
    rfl

theorem recreate_unrefused (hthere : devicesThere w server = true) :
    Raises (recreate runtime server (planOf w server) username true) w fun raise _ => refuses raise = false := by
  unfold recreate
  rw [if_pos rfl]
  refine .bind (ScheduledStarts.delete_raises _) fun _ v hr => ?_
  obtain ⟨containers, rfl⟩ := ScheduledStarts.delete_returns _ _ v hr
  exact .bind (respawn_unrefused containers hthere) fun new _ _ => opened_unrefused () (recreatedFields new) fun _ _ _ => rfl

theorem recreate_short (runtime : Runtime) (username : String) (hshort : devicesThere w server = false) :
    ∃ t, (recreate runtime server (planOf w server) username true).run w = .error hostFull t := by
  obtain ⟨containers, hcontainers⟩ : ∃ containers : List Container,
      (Spawner.delete runtime server.containerId).run w = .ok runtime.deletes { w with containers := containers } := by
    rw [Exits.delete_run]
    split
    · exact ⟨_, rfl⟩
    · exact ⟨w.containers, rfl⟩
  have hensure : (ensureGpuDevices server.id (serverGpuCount server (planOf w server))).run { w with containers := containers } =
      .error hostFull { w with containers := containers } := by
    obtain ⟨devices, hrun⟩ := UpdateAtomicity.ensureGpuDevices_run { w with containers := containers } server.id
      (serverGpuCount server (planOf w server))
    obtain ⟨hlacks, hnone⟩ := Bool.or_eq_false_iff.mp hshort
    have hmissing : UpdateBreaks.lacksDevices w server.id (gpuCount w server) = true := Bool.not_eq_eq_eq_not.mp hlacks
    have hcannot : ¬ allocatable w (gpuCount w server) = true := Bool.eq_false_iff.mp hnone
    rw [hrun]
    exact (if_pos hmissing).trans (if_neg hcannot)
  refine ⟨{ w with containers := containers }, ?_⟩
  rw [recreate, if_pos rfl, EStateM.run_bind, hcontainers]
  dsimp only
  rw [EStateM.run_bind, respawn, EStateM.run_bind, hensure]

/-- A start of a server with a container is refused by the checks before it and
for a lack of devices, and for nothing else. -/
theorem start_accepts_iff (hcontainer : server.containerId.isSome = true) :
    (Raises (performServerStart runtime answers server username) w fun raise _ => refuses raise = false) ↔
      startRefusal w answers server = none ∧ DevicesSuffice w runtime server := by
  obtain ⟨containerId, hc⟩ := Option.isSome_iff_exists.mp hcontainer
  constructor
  · intro h
    have hrefusal : startRefusal w answers server = none := by
      cases hr : startRefusal w answers server with
      | none => rfl
      | some raise =>
          have hrun : (performServerStart runtime answers server username).run w = .error raise w := by
            rw [performServerStart, EStateM.run_bind, checkStart, EStateM.run_bind, EStateM.run_get]
            dsimp only
            rw [hr]
            rfl
          have hnot : refuses raise = false := h raise w hrun
          rw [startRefusal_refuses hr] at hnot
          cases hnot
    refine ⟨hrefusal, fun hrunning hremakes => ?_⟩
    by_contra hshort
    obtain ⟨t, hrecreate⟩ := recreate_short runtime username (Bool.eq_false_of_not_eq_true hshort)
    have hrun : (performServerStart runtime answers server username).run w = .error hostFull t := by
      rw [performServerStart, EStateM.run_bind, checkStart, EStateM.run_bind, EStateM.run_get]
      dsimp only
      rw [hrefusal]
      dsimp only
      rw [EStateM.run_pure, hc]
      dsimp only
      refine orServerError_http ?_
      rw [if_neg hrunning, EStateM.run_bind, EStateM.run_get]
      dsimp only
      rw [if_pos hremakes, EStateM.run_bind, hrecreate]
      rfl
    have hnot : refuses hostFull = false := h hostFull t hrun
    exact absurd hnot (by decide)
  · rintro ⟨hrefusal, hdevices⟩
    refine .bind (fun raise t hr => absurd hrefusal (ScheduledStarts.checkStart_refuses raise t hr)) fun plan v hr => ?_
    obtain ⟨-, rfl, rfl⟩ := ScheduledStarts.checkStart_passes plan v hr
    rw [hc]
    refine failed_orServerError (.ite (fun _ => .pure) fun hrunning => .get_bind (.ite (fun hremakes => ?_) fun _ => ?_))
      fun _ _ _ => rfl
    · exact .bind (recreate_unrefused (hdevices hrunning hremakes)) fun _ _ _ => .pure
    · refine .ite (fun _ => .throw_bind rfl) fun _ => ?_
      exact opened_unrefused _ startedFields fun _ _ _ => rfl

theorem stopAndSettle_total (serverId : Uuid) (stamp : Instant → Server → Server)
    (hid : ∀ now s, (stamp now s).id = s.id) {Q : Raise → World → Prop} :
    Raises (stopAndSettle serverId stamp hid) w Q := by
  refine .bind_of_ok rfl (.bind_of_ok rfl (.bind_of_ok rfl (.bind_of_ok (run_findServer _ _) ?_)))
  cases (World.servers _).find serverId with
  | none => exact .pure
  | some row =>
      dsimp only
      cases row.planId with
      | none => exact .pure
      | some planId =>
          dsimp only
          refine .get_bind ?_
          obtain ⟨v, hreconcile, -⟩ := Settlement.reconcileWith_run _ row _
          obtain ⟨quota, hdecrement, -⟩ := Quota.adjustUsage_run Quantities.Usage.monus row.userId planId v
          exact .bind_of_ok hreconcile (.bind_of_ok hdecrement .pure)

theorem stop_raises : Raises (performServerStop runtime server) w fun raise t =>
    refuses raise = false ∧ t.servers = w.servers := by
  unfold performServerStop
  cases server.containerId with
  | none => exact .bind_of_ok rfl .pure
  | some containerId =>
      refine failed_orServerError ?_ fun _ _ h => ⟨rfl, h.2⟩
      have hlive : Raises (do
          if ¬ (← Spawner.delete runtime (some containerId)) then
            throw (.http 503 "Failed to stop the server container. Please try again.")
          stopLive server.id
          return (⟨"Server stopped", server.id, "stopped"⟩ : Reply)) w fun raise t =>
          refuses raise = false ∧ t.servers = w.servers := by
        refine .bind (ScheduledStarts.delete_raises _) fun _ v hr => ?_
        obtain ⟨containers, rfl⟩ := ScheduledStarts.delete_returns _ _ v hr
        refine .ite (fun _ => .throw_bind ⟨rfl, rfl⟩) fun _ => .bind ?_ fun _ _ _ => .pure
        exact stopAndSettle_total _ _ _
      cases runtime.status with
      | unknown => exact .throw ⟨rfl, rfl⟩
      | stopped =>
          refine .bind (ScheduledStarts.delete_raises _) fun _ v _ => .bind_of_ok rfl .pure
      | running => exact hlive
      | paused => exact hlive

theorem delete_raises : Raises (performServerDelete runtime server) w fun raise t =>
    refuses raise = false ∧ t.servers = w.servers := by
  unfold performServerDelete
  refine .ite (fun _ => .bind (ScheduledStarts.delete_raises _) fun _ v hr => ?_) fun _ => .bind_of_ok rfl (.bind_of_ok rfl .pure)
  obtain ⟨containers, rfl⟩ := ScheduledStarts.delete_returns _ _ v hr
  exact .ite (fun _ => .throw_bind ⟨rfl, rfl⟩) fun _ => .bind_of_ok rfl (.bind_of_ok rfl .pure)

end Refusals

section Rows

variable {w : World} {runtime : Runtime} {server : Server} {caller : Caller} {entry : Entry} {action : Action}

theorem act_raises (caller : Caller) (entry : Entry) (action : Action) (server : Server) :
    Raises (act caller entry action server) w fun _ t => t.servers = w.servers := by
  cases action with
  | start => exact fun raise t hr => (start_raises raise t hr).servers
  | stop => exact fun raise t hr => (stop_raises raise t hr).2
  | restart => exact fun raise t hr => (restart_raises raise t hr).servers
  | delete => exact fun raise t hr => (delete_raises raise t hr).2

theorem launch_elsewhere (path : StartPath) (runtime : Runtime) (server : Server) :
    Moves (Elsewhere server.id) (launch path runtime server) := by
  have hoff {v t : World} (h : OffBooks v t) : Elsewhere server.id v t := (ServerRecords.OffBooks.quiet h).elsewhere _
  refine fun v => final_of_returns_raises ?_ fun raise t hr => hoff (launch_raises path raise t hr)
  cases hbegins : begins path v runtime server with
  | false => exact fun a t hr => hoff (launch_idle path hbegins a t hr)
  | true =>
      intro a t hr
      cases launch_returns path hbegins a t hr with
      | opened f hid hv hf hstatus husage => exact ServerRecords.edited_elsewhere hv f hid

theorem reconcileWith_elsewhere (row : Server) (plan : Option ServerPlan) :
    Moves (Elsewhere row.id) (Billing.reconcileWith row plan) := by
  have hcharge (amount : Int) (description : String) :
      Moves (Elsewhere row.id) (Billing.chargeServer row amount description) :=
    .bind (ServerRecords.elsewhere_of_quiet _ (ServerRecords.createTransaction_quiet _)) fun _ => modifyServer_elsewhere _ _ _
  cases plan with
  | none => exact .pure _
  | some plan =>
      refine .bind ?_ fun _ => .pure _
      unfold Billing.reconcileServerBilling
      split
      · refine .ite (.pure _) (.ite (.pure _) (.ite (.pure _) (.bind (moves_getBalance _) fun _ => ?_)))
        exact .ite (.bind (hcharge _ _) fun _ => .pure _) (.ite (.bind (hcharge _ _) fun _ => .pure _) (.pure _))
      · exact .pure _

theorem settle_elsewhere (serverId : Uuid) : Moves (Elsewhere serverId) (settle serverId) := by
  unfold settle
  refine .bind_returns (moves_findServer serverId) (P := fun found => ∀ row ∈ found, row.id = serverId) ?_ fun found hfound => ?_
  · rintro v _ _ ⟨⟩ row hrow
    exact Table.key_of_find hrow
  · cases found with
    | none => exact .pure _
    | some row =>
        dsimp only
        obtain rfl := hfound row rfl
        cases row.planId with
        | none => exact .pure _
        | some planId =>
            refine .bind .get fun v => .bind (reconcileWith_elsewhere row _) fun _ => .bind ?_ fun _ => .pure _
            exact ServerRecords.elsewhere_of_quiet _ (moves_adjustUsage ServerRecords.saveQuota_quiet _ _ _)

theorem release_elsewhere (serverId : Uuid) : Moves (Elsewhere serverId) (release serverId) :=
  elsewhere_of_offBooks serverId (UsageCounters.release_offBooks serverId)

theorem stopAndRelease_elsewhere (serverId : Uuid) (stamp : Server → Server) (hid : ∀ s, (stamp s).id = s.id) :
    Moves (Elsewhere serverId) (stopAndRelease serverId stamp hid) :=
  .bind (modifyServer_elsewhere _ _ _) fun _ => release_elsewhere serverId

theorem stop_elsewhere (runtime : Runtime) (server : Server) :
    Moves (Elsewhere server.id) (performServerStop runtime server) := by
  have hdelete := elsewhere_of_offBooks server.id (delete_offBooks runtime server.containerId)
  have hlive : Moves (Elsewhere server.id) (stopLive server.id) :=
    .bind moves_utcNow fun _ => .bind (modifyServer_elsewhere _ _ _) fun _ => .bind (release_elsewhere _) fun _ =>
      settle_elsewhere _
  unfold performServerStop
  cases hc : server.containerId with
  | none => exact .bind (stopAndRelease_elsewhere _ _ _) fun _ => .pure _
  | some containerId =>
      rw [hc] at hdelete
      refine moves_orServerError _ ?_
      cases runtime.status with
      | unknown => exact .throw _
      | stopped => exact .bind hdelete fun _ => .bind (stopAndRelease_elsewhere _ _ _) fun _ => .pure _
      | running => exact .bind hdelete fun _ => .ite (.throw_bind _ _) (.bind hlive fun _ => .pure _)
      | paused => exact .bind hdelete fun _ => .ite (.throw_bind _ _) (.bind hlive fun _ => .pure _)

theorem erase_elsewhere {f : World → World} {serverId : Uuid} (hservers : ∀ v, (f v).servers = v.servers.erase serverId)
    (hunmoved : ∀ v, ServerRecords.Unmoved v (f v)) : Moves (Elsewhere serverId) (modify f : Handler PUnit) :=
  .modify fun v => ⟨hunmoved v, fun id hid => by rw [hservers, Table.find_erase_of_ne hid]⟩

theorem delete_elsewhere (runtime : Runtime) (server : Server) :
    Moves (Elsewhere server.id) (performServerDelete runtime server) := by
  have hdelete := elsewhere_of_offBooks server.id (delete_offBooks runtime server.containerId)
  have hrest : Moves (Elsewhere server.id) (do
      modify fun v => { v with
        transactions := v.transactions.filter fun t => t.serverId ≠ some server.id
        servers := v.servers.erase server.id
        serverVolumes := v.serverVolumes.filter fun m => m.serverId ≠ server.id }
      release server.id
      return (⟨"Server deleted", server.id, "deleted"⟩ : Reply) : Handler Reply) :=
    .bind (erase_elsewhere (fun _ => rfl) fun _ => ⟨rfl, rfl, fun _ => rfl, le_rfl⟩) fun _ =>
      .bind (release_elsewhere _) fun _ => .pure _
  unfold performServerDelete
  exact .ite (.bind hdelete fun _ => .ite (.throw_bind _ _) hrest) hrest

theorem act_elsewhere (caller : Caller) (entry : Entry) (action : Action) (server : Server) :
    Moves (Elsewhere server.id) (act caller entry action server) := by
  cases action with
  | start =>
      intro w
      have h := launch_elsewhere (.start entry.answers caller.user.username) entry.runtime server w
      rwa [launch, final_bind_pure] at h
  | stop => exact stop_elsewhere entry.runtime server
  | restart =>
      intro w
      have h := launch_elsewhere (.restart entry.answers caller.user.username) entry.runtime server w
      rwa [launch, final_bind_pure] at h
  | delete => exact delete_elsewhere entry.runtime server

theorem ofExcept_final {α : Type} (x : Except Raise α) (v : World) : final (ofExcept x : Handler α) v = v := by
  cases x <;> rfl

theorem perform_elsewhere (caller : Caller) (entry : Entry) (action : Action) (server : Server) :
    Moves (Elsewhere server.id) (perform caller entry action server) := by
  refine .bind (act_elsewhere caller entry action server) fun reply => .bind ?_ fun _ => .pure _
  exact .of_final_eq fun v => ofExcept_final _ v

section Changes

theorem changes_of_requested {usage : Quantities.Usage} {t : World} (h : Requested server usage w t)
    (hfind : w.servers.find server.id = some server) (hstatus : server.status ≠ .running) : t.servers ≠ w.servers := by
  cases h with
  | @opened v f hid hv hf hrow husage =>
      intro hsame
      have hsame : v.servers.modify server.id f hid = w.servers := hsame
      have hedited : (v.servers.modify server.id f hid).find server.id = some (f server) := by
        rw [hv.servers]
        exact Table.find_modify_self f hid hfind
      rw [hsame, hfind, Option.some.injEq] at hedited
      exact hstatus (hedited ▸ hrow.status)

theorem start_changes {answers : Answers} {username : String} (hfind : w.servers.find server.id = some server)
    (hstatus : server.status ≠ .running) :
    Returns (performServerStart runtime answers server username) w fun reply t =>
      ∀ eventKey ∈ eventOf .start reply, t.servers ≠ w.servers := by
  cases hbegins : begins (.start answers username) w runtime server with
  | true => exact fun reply t hr _ _ => changes_of_requested (start_returns hbegins reply t hr) hfind hstatus
  | false =>
      have hrunning : server.containerId.isSome = true ∧ runtime.status = .running := by
        simpa [begins] using hbegins
      obtain ⟨containerId, hc⟩ := Option.isSome_iff_exists.mp hrunning.1
      refine .bind fun plan v _ => ?_
      rw [hc]
      refine returns_orServerError (.ite (fun _ => .pure fun eventKey hkey => ?_) fun hno => absurd hrunning.2 hno)
      cases hkey

theorem find_stamped {v : World} {stamp : Server → Server} {hid : ∀ s, (stamp s).id = s.id}
    (hfind : v.servers.find server.id = some server) :
    (stamped v server.id stamp hid).servers.find server.id = some (stamp server) :=
  Table.find_modify_self stamp hid hfind

theorem stop_changes (hfind : w.servers.find server.id = some server) (hstatus : server.status ≠ .stopped) :
    Returns (performServerStop runtime server) w fun reply t => ∀ eventKey ∈ eventOf .stop reply, t.servers ≠ w.servers := by
  have hdiffers {t : World} {row : Server} (hrow : t.servers.find server.id = some row) (hstopped : row.status = .stopped) :
      t.servers ≠ w.servers := by
    intro hsame
    rw [hsame, hfind, Option.some.injEq] at hrow
    exact hstatus (hrow ▸ hstopped)
  have hlive : Returns (do
      if ¬ (← Spawner.delete runtime server.containerId) then
        throw (.http 503 "Failed to stop the server container. Please try again.")
      stopLive server.id
      return (⟨"Server stopped", server.id, "stopped"⟩ : Reply)) w fun reply t =>
        ∀ eventKey ∈ eventOf .stop reply, t.servers ≠ w.servers := by
    refine .bind fun _ v hr => .ite (fun _ => .throw_bind _) fun _ => .bind fun _ t hr' => .pure fun _ _ => ?_
    obtain ⟨containers, rfl⟩ := ScheduledStarts.delete_returns _ _ v hr
    have hkeeps : ∀ now : Instant, KeepsTerms fun s : Server =>
        { s with containerId := none, status := .stopped, stoppedAt := some now, expiresAt := none } :=
      fun _ => ⟨fun _ => rfl, fun _ => rfl, fun _ => rfl, fun _ => rfl, fun _ => rfl, fun _ => rfl⟩
    obtain ⟨w₁, quotas, hf, hbilled, -⟩ := stopAndSettle_billed { w with containers := containers } hfind hkeeps
      fun _ _ => rfl
    rw [← final_of_ok hr', stopLive, hf]
    exact hdiffers (hbilled.row (find_stamped hfind) rfl) rfl
  unfold performServerStop
  cases hc : server.containerId with
  | none =>
      refine .bind fun _ t hr => .pure fun _ _ => ?_
      cases hr
      exact hdiffers (Table.find_modify_self (fun s => { s with status := .stopped, expiresAt := none }) (fun _ => rfl) hfind) rfl
  | some containerId =>
      rw [hc] at hlive
      refine returns_orServerError ?_
      cases runtime.status with
      | unknown => exact .throw _
      | stopped =>
          refine .bind fun _ _ _ => .bind fun _ _ _ => .pure fun eventKey hkey => ?_
          cases hkey
      | running => exact hlive
      | paused => exact hlive

theorem delete_changes (hfind : w.servers.find server.id = some server) :
    Returns (performServerDelete runtime server) w fun _ t => t.servers ≠ w.servers := by
  have hrest {v : World} (hv : v.servers = w.servers) : Returns (do
      modify fun v => { v with
        transactions := v.transactions.filter fun t => t.serverId ≠ some server.id
        servers := v.servers.erase server.id
        serverVolumes := v.serverVolumes.filter fun m => m.serverId ≠ server.id }
      release server.id
      return (⟨"Server deleted", server.id, "deleted"⟩ : Reply) : Handler Reply) v fun _ t => t.servers ≠ w.servers := by
    rintro _ _ ⟨⟩ hsame
    have hsame : v.servers.erase server.id = w.servers := hsame
    have hgone := Table.find_erase_self v.servers server.id
    rw [hsame, hfind] at hgone
    cases hgone
  unfold performServerDelete
  refine .ite (fun _ => .bind fun _ v hr => .ite (fun _ => .throw_bind _) fun _ => hrest ?_) fun _ => hrest rfl
  obtain ⟨containers, rfl⟩ := ScheduledStarts.delete_returns _ _ v hr
  rfl

end Changes

theorem bulkStart_elsewhere (runtime : Runtime) (server : Server) :
    Moves (Elsewhere server.id) (bulkStart runtime server) := by
  have hrespawn := elsewhere_of_offBooks server.id (respawnServerContainer_offBooks runtime server server.name)
  unfold bulkStart
  refine .ite (.bind .get fun v => .ite ?_ ?_) (.pure _)
  · exact .bind hrespawn fun _ => modifyServer_elsewhere _ _ _
  · exact .ite (.throw_bind _ _) (modifyServer_elsewhere _ _ _)

theorem bulkStop_elsewhere (runtime : Runtime) (server : Server) :
    Moves (Elsewhere server.id) (bulkStop runtime server) :=
  .ite (.ite (.throw_bind _ _) (stopAndRelease_elsewhere _ _ _)) (.pure _)

theorem bulkDelete_elsewhere (runtime : Runtime) (server : Server) :
    Moves (Elsewhere server.id) (bulkDelete runtime server) := by
  have hdelete := elsewhere_of_offBooks server.id (delete_offBooks runtime server.containerId)
  have hrest : Moves (Elsewhere server.id) (do
      dropServer server.id
      release server.id) :=
    .bind (erase_elsewhere (fun _ => rfl) fun _ => ⟨rfl, rfl, fun _ => rfl, le_rfl⟩) fun _ => release_elsewhere _
  unfold bulkDelete
  exact .ite (.bind hdelete fun _ => .ite (.throw_bind _ _) hrest) hrest

theorem bulkStart_raises (runtime : Runtime) (server : Server) :
    Raises (bulkStart runtime server) w fun _ t => carriedOut .start w runtime server = false ∧ t.servers = w.servers := by
  refine .ite (fun _ => .get_bind (.ite (fun hremakes => ?_) fun hplain => ?_)) fun _ => .pure
  · refine .bind (fun raise t hr => ⟨?_, ?_⟩) fun _ _ _ => fun _ _ hr => by cases hr
    · rw [carriedOut, if_pos hremakes]
      exact ScheduledStarts.respawnServerContainer_refused _ raise t hr
    · exact (final_of_error hr ▸ respawnServerContainer_offBooks runtime server server.name w).servers
  · refine .ite (fun hstarts => .throw_bind ⟨?_, rfl⟩) fun _ => fun _ _ hr => by cases hr
    rw [carriedOut, if_neg hplain]
    exact Bool.eq_false_of_not_eq_true hstarts

theorem bulkStart_returns (hcontainer : server.containerId.isSome = true) :
    Returns (bulkStart runtime server) w fun _ _ => carriedOut .start w runtime server = true := by
  unfold bulkStart
  rw [if_pos hcontainer]
  refine .get_bind (.ite (fun hremakes => ?_) fun hplain => ?_)
  · refine .bind fun new t hr => fun _ _ _ => ?_
    rw [carriedOut, if_pos hremakes]
    exact (ScheduledStarts.respawnServerContainer_remade _ new t hr).1
  · refine .ite (fun _ => .throw_bind _) fun hstarts => fun _ _ _ => ?_
    rw [carriedOut, if_neg hplain]
    exact not_not.mp hstarts

theorem bulkStop_raises (runtime : Runtime) (server : Server) :
    Raises (bulkStop runtime server) w fun _ t => carriedOut .stop w runtime server = false ∧ t.servers = w.servers := by
  refine .ite (fun _ => .ite (fun hstops => .throw_bind ⟨?_, rfl⟩) fun _ => .bind_of_ok rfl ?_) fun _ => .pure
  · exact Bool.eq_false_of_not_eq_true hstops
  · exact fun _ _ hr => by cases hr

theorem bulkStop_returns (hcontainer : server.containerId.isSome = true) :
    Returns (bulkStop runtime server) w fun _ _ => carriedOut .stop w runtime server = true := by
  unfold bulkStop
  rw [if_pos hcontainer]
  exact .ite (fun _ => .throw_bind _) fun hstops => fun _ _ _ => not_not.mp hstops

theorem bulkDelete_raises (runtime : Runtime) (server : Server) :
    Raises (bulkDelete runtime server) w fun _ t => carriedOut .delete w runtime server = false ∧ t.servers = w.servers := by
  have hrest {v : World} {Q : Raise → World → Prop} : Raises (do
      dropServer server.id
      release server.id) v Q := .bind_of_ok rfl fun _ _ hr => by cases hr
  unfold bulkDelete
  refine .ite (fun hcontainer => .bind (ScheduledStarts.delete_raises _) fun deleted v hr => ?_) fun _ => hrest
  rw [Exits.delete_run] at hr
  refine .ite (fun hfailed => .throw_bind ?_) fun _ => hrest
  cases hr
  rw [if_neg hfailed, carriedOut, Option.isNone_eq_false_iff.mpr hcontainer, Bool.false_or]
  exact ⟨Bool.eq_false_of_not_eq_true hfailed, rfl⟩

theorem bulkDelete_returns (runtime : Runtime) (server : Server) :
    Returns (bulkDelete runtime server) w fun _ _ => carriedOut .delete w runtime server = true := by
  unfold bulkDelete
  refine .ite (fun _ => .bind fun deleted v hr => ?_) fun hnone => fun _ _ _ => ?_
  · rw [Exits.delete_run] at hr
    cases hr
    refine .ite (fun _ => .throw_bind _) fun hdeletes => fun _ _ _ => ?_
    rw [carriedOut, not_not.mp hdeletes, Bool.or_true]
  · rw [carriedOut, Option.isNone_iff_eq_none.mpr (Option.not_isSome_iff_eq_none.mp hnone), Bool.true_or]

end Rows

section Turns

variable {caller : Caller} {body : BulkServerActionRequest} {fetched : Table Server.id} {action : Action} {entry : Entry}
  {v w : World} {row server : Server}

theorem returns_iff {α : Type} {m : Handler α} {c : Bool} {P : Prop} (hreturns : Returns m v fun _ _ => c = true)
    (hraises : Raises m v fun _ _ => c = false) : Returns m v (fun _ _ => P) ↔ (c = true → P) := by
  refine ⟨fun h hc => ?_, fun h a t hr => h (hreturns a t hr)⟩
  cases hr : m.run v with
  | ok a t => exact h a t hr
  | error raise t =>
      rw [hraises raise t hr] at hc
      cases hc

def adminPerform (runtime : Runtime) : Action → Server → Handler Unit
  | .start, server => bulkStart runtime server
  | .stop, server => bulkStop runtime server
  | .delete, server => bulkDelete runtime server
  | .restart, _ => return

theorem adminTurn_eq (hrow : lookup fetched entry.serverId = some row) :
    adminTurn fetched action entry =
      findServer row.id >>= fun server => adminPerform entry.runtime action (server.getD row) := by
  rw [adminTurn, hrow]
  cases action <;> rfl

theorem denoted_of_lookup {sent : SentId} (h : lookup fetched sent = some row) : denoted fetched sent = some row := by
  cases sent with
  | malformed error => cases h
  | uuid path =>
      rw [lookup] at h
      split at h
      · exact h
      · cases h

theorem denoted_names {servers : Table Server.id} {sent : SentId} (h : denoted servers sent = some server) :
    sent.names server.id := by
  cases sent with
  | malformed error => cases h
  | uuid path => exact (Table.key_of_find h).symm

theorem denoted_of_names {sent : SentId} {id : Uuid} (h : sent.names id) : denoted v.servers sent = v.servers.find id := by
  cases sent with
  | malformed error => cases h
  | uuid path => exact congrArg v.servers.find h

theorem adminPerform_raises (runtime : Runtime) (action : Action) (server : Server) :
    Raises (adminPerform runtime action server) v fun _ t =>
      carriedOut action v runtime server = false ∧ t.servers = v.servers := by
  cases action with
  | start => exact bulkStart_raises runtime server
  | stop => exact bulkStop_raises runtime server
  | restart => exact .pure
  | delete => exact bulkDelete_raises runtime server

theorem adminPerform_returns (runtime : Runtime) (hreaches : Endpoint.admin.reaches action server = true) :
    Returns (adminPerform runtime action server) v fun _ _ => carriedOut action v runtime server = true := by
  cases action with
  | start => exact bulkStart_returns hreaches
  | stop => exact bulkStop_returns hreaches
  | restart => exact .pure rfl
  | delete => exact bulkDelete_returns runtime server

theorem adminPerform_elsewhere (runtime : Runtime) (action : Action) (server : Server) :
    Moves (Elsewhere server.id) (adminPerform runtime action server) := by
  cases action with
  | start => exact bulkStart_elsewhere runtime server
  | stop => exact bulkStop_elsewhere runtime server
  | restart => exact .pure _
  | delete => exact bulkDelete_elsewhere runtime server

theorem getD_id (row : Server) : ((v.servers.find row.id).getD row).id = row.id := by
  cases hfind : v.servers.find row.id with
  | none => rfl
  | some server => exact Table.key_of_find hfind

theorem bulkGate_ok (h : bulkGate caller body = .ok action) :
    caller.method = .jwt ∧ hasPermission caller.site caller.user .serversWriteOwn = true := by
  obtain ⟨_, hjwt, h⟩ := ok_of_bind h
  refine ⟨?_, ?_⟩
  · by_contra hmethod
    rw [requireJwtAuth, if_neg hmethod] at hjwt
    cases hjwt
  · split at h
    · cases h
    · split at h
      next hown => exact hown
      next => cases h

def Local (turn : Entry → Handler Unit) : Prop :=
  ∀ entry v id, ¬ entry.serverId.names id → (final (turn entry) v).servers.find id = v.servers.find id

theorem adminTurn_kept (fetched : Table Server.id) (action : Action) (entry : Entry) (v : World) :
    Raises (adminTurn fetched action entry) v fun _ t => t.servers = v.servers := by
  cases hrow : lookup fetched entry.serverId with
  | none =>
      rw [adminTurn, hrow]
      exact .pure
  | some row =>
      rw [adminTurn_eq hrow]
      refine .bind_of_ok (run_findServer _ _) fun raise t hr => ?_
      exact (adminPerform_raises entry.runtime action _ raise t hr).2

theorem adminTurn_local (fetched : Table Server.id) (action : Action) : Local (adminTurn fetched action) := by
  intro entry v id hnames
  cases hrow : lookup fetched entry.serverId with
  | none =>
      rw [adminTurn, hrow]
      rfl
  | some row =>
      rw [adminTurn_eq hrow, final_bind_of_ok (run_findServer _ _)]
      refine (adminPerform_elsewhere entry.runtime action ((v.servers.find row.id).getD row) v).others id fun hid => ?_
      rw [hid, getD_id] at hnames
      exact hnames (denoted_names (denoted_of_lookup hrow))

theorem findSent_spec (sent : SentId) (v : World) :
    Returns (findSent sent) v fun found t => t = v ∧ found = denoted v.servers sent := by
  cases sent with
  | malformed error => exact .throw _
  | uuid path =>
      rintro _ _ ⟨⟩
      exact ⟨rfl, rfl⟩

theorem findSent_final (sent : SentId) (v : World) : final (findSent sent) v = v := by
  cases sent <;> rfl

/-- What an entry's turn comes to once its server is found and looked at. -/
theorem bulkTurn_run (hfind : denoted v.servers entry.serverId = some server) (reason : Option String)
    (hcheck : bulkCheck caller action reason entry server = .ok ()) :
    (bulkTurn caller action reason entry).run v = (perform caller entry action server >>= fun _ => pure ()).run v := by
  rw [bulkTurn, EStateM.run_bind, findSent_run hfind]
  dsimp only
  rw [EStateM.run_bind, hcheck]
  rfl

theorem bulkTurn_local (caller : Caller) (action : Action) (reason : Option String) : Local (bulkTurn caller action reason) := by
  intro entry v id hnames
  refine final_bind_returns (P := fun t : World => t.servers.find id = v.servers.find id) (fun raise t hr => ?_) fun found t hr => ?_
  · rw [← final_of_error hr, findSent_final]
  obtain ⟨rfl, hfound⟩ := findSent_spec _ _ found t hr
  cases found with
  | none => rfl
  | some server =>
      have hid : id ≠ server.id := by
        rintro rfl
        exact hnames (denoted_names hfound.symm)
      have hturn : Moves (Elsewhere server.id) (do
          ofExcept (bulkCheck caller action reason entry server)
          let _ ← perform caller entry action server : Handler Unit) :=
        .bind (.of_final_eq fun v => ofExcept_final _ v) fun _ => .bind (perform_elsewhere caller entry action server) fun _ =>
          .pure _
      exact (hturn t).others id hid

theorem bulkTurn_kept {reason : Option String} (htold : Told caller action reason v entry) :
    Raises (bulkTurn caller action reason entry) v fun _ t => t.servers = v.servers := by
  refine .bind (fun raise t hr => ?_) fun found t hr => ?_
  · rw [← final_of_error hr, findSent_final]
  obtain ⟨rfl, hfound⟩ := findSent_spec _ _ found t hr
  cases found with
  | none => exact .throw rfl
  | some server =>
      dsimp only
      cases hcheck : bulkCheck caller action reason entry server with
      | error raise => exact .throw_bind rfl
      | ok =>
          refine .bind_of_ok rfl (.bind (.bind (act_raises caller entry action server) fun reply u hr => ?_) fun _ _ _ => .pure)
          refine .bind (fun raise x hr' => ?_) fun _ _ _ => .pure
          by_contra hchanged
          rw [← final_of_error hr', ofExcept_final] at hchanged
          rw [ofExcept_run, tellOf_readable (htold server hfound.symm hcheck reply u hr fun _ => hchanged)] at hr'
          cases hr'

theorem statusCheck_ok (h : statusCheck action server = .ok ()) :
    (action = .start → server.status ≠ .running) ∧ (action = .stop → server.status ≠ .stopped) := by
  constructor
  · rintro rfl hrunning
    rw [statusCheck, if_pos hrunning] at h
    cases h
  · rintro rfl hstopped
    rw [statusCheck, if_pos hstopped] at h
    cases h

theorem accessCheck_ok {reason : Option String} (h : accessCheck caller reason entry server = .ok ())
    (hcross : crossUser caller server) :
    hasPermission caller.site caller.user .serversAccessOthers = true ∧ ¬ reason.all Texts.isBlank = true := by
  rw [accessCheck, if_neg (not_not.mpr hcross)] at h
  split at h
  · cases h
  split at h
  · cases h
  next hothers =>
    split at h
    · cases h
    next hblank => exact ⟨not_not.mp hothers, hblank⟩

theorem bulkCheck_ok {reason : Option String} (h : bulkCheck caller action reason entry server = .ok ()) :
    (crossUser caller server → hasPermission caller.site caller.user .serversAccessOthers = true ∧
        ¬ reason.all Texts.isBlank = true) ∧
      (action = .start → server.status ≠ .running) ∧ (action = .stop → server.status ≠ .stopped) := by
  obtain ⟨_, haccess, hstatus⟩ := ok_of_bind h
  exact ⟨accessCheck_ok haccess, statusCheck_ok hstatus⟩

theorem bulkTurn_granted (hgate : bulkGate caller body = .ok action) (htold : Told caller action body.reason v entry) :
    Granted .bulk caller body fetched action v entry := by
  refine ⟨fun server hfind _ => ?_, bulkTurn_kept htold⟩
  obtain ⟨hjwt, hown⟩ := bulkGate_ok hgate
  refine .bind fun found t hr => ?_
  obtain ⟨rfl, rfl⟩ := findSent_spec _ _ found t hr
  rw [hfind]
  dsimp only
  cases hcheck : bulkCheck caller action body.reason entry server with
  | error raise => exact .throw_bind _
  | ok =>
      obtain ⟨hcross, -⟩ := bulkCheck_ok hcheck
      have hmay : mayWrite caller server = true := by
        rw [mayWrite, hown, Bool.true_and]
        by_cases h : crossUser caller server
        · simp [(hcross h).1]
        · simp [h]
      refine .bind_of_ok rfl (.bind fun reply u hr => .pure ⟨body.reason, rfl, (accepts_iff hjwt hfind).mpr ⟨hmay, ?_, ?_⟩⟩)
      · exact fun h => (hcross h.1).2 h.2
      · intro raise u' hraise
        cases hr.symm.trans hraise

theorem act_changes (hfind : v.servers.find server.id = some server) {reason : Option String}
    (hcheck : bulkCheck caller action reason entry server = .ok ()) :
    Returns (act caller entry action server) v fun reply t =>
      (action = .restart → t.servers ≠ v.servers) → ∀ eventKey ∈ eventOf action reply, t.servers ≠ v.servers := by
  obtain ⟨-, hstart, hstop⟩ := bulkCheck_ok hcheck
  cases action with
  | start => exact fun reply t hr _ => start_changes hfind (hstart rfl) reply t hr
  | stop => exact fun reply t hr _ => stop_changes hfind (hstop rfl) reply t hr
  | restart => exact fun _ _ _ hchanged _ _ => hchanged rfl
  | delete => exact fun reply t hr _ _ _ => delete_changes hfind reply t hr

theorem told_of_granted (h : Granted .bulk caller body fetched action v entry) :
    Told caller action body.reason v entry := by
  intro server hserver hcheck reply t hr hrestart eventKey hevent
  by_contra hunreadable
  obtain ⟨raise, hraise⟩ : ∃ raise, tellOf entry action server reply = .error raise := by
    rw [tellOf, show eventOf action reply = some eventKey from hevent]
    exact tellOwner_unreadable hunreadable _
  have hturn : (bulkTurn caller action body.reason entry).run v = .error raise t := by
    rw [bulkTurn_run hserver body.reason hcheck, EStateM.run_bind, perform, EStateM.run_bind, hr]
    dsimp only
    rw [EStateM.run_bind, ofExcept_run, hraise]
  have hfind : v.servers.find server.id = some server := denoted_of_names (denoted_names hserver) ▸ hserver
  exact act_changes hfind hcheck reply t hr hrestart eventKey hevent (h.kept raise t hturn)

theorem exists_accepts_iff (hjwt : caller.method = .jwt) (hfind : denoted v.servers entry.serverId = some server)
    (haction : action ≠ .restart) (hreaches : Endpoint.admin.reaches action server = true) :
    (∃ reason, Endpoint.admin.carries body reason ∧ Accepts caller reason action entry v) ↔
      mayWrite caller server = true ∧
        (action = .start → startRefusal v entry.answers server = none ∧ DevicesSuffice v entry.runtime server) := by
  have hperform : (Raises (perform caller entry action server) v fun raise _ => refuses raise = false) ↔
      (action = .start → startRefusal v entry.answers server = none ∧ DevicesSuffice v entry.runtime server) := by
    rw [perform_unrefused_iff]
    cases action with
    | start => exact (start_accepts_iff hreaches).trans (imp_iff_right rfl).symm
    | stop => exact iff_of_true (fun raise t hr => (stop_raises raise t hr).1) nofun
    | restart => exact absurd rfl haction
    | delete => exact iff_of_true (fun raise t hr => (delete_raises raise t hr).1) nofun
  rw [← hperform]
  constructor
  · rintro ⟨reason, -, haccepts⟩
    obtain ⟨hmay, -, hraises⟩ := (accepts_iff hjwt hfind).mp haccepts
    exact ⟨hmay, hraises⟩
  · rintro ⟨hmay, hraises⟩
    exact ⟨some "maintenance", trivial, (accepts_iff hjwt hfind).mpr ⟨hmay, fun h => absurd h.2 (by decide), hraises⟩⟩

theorem adminTurn_granted_iff (hjwt : caller.method = .jwt) (haction : action ≠ .restart)
    (hlookup : (lookup fetched entry.serverId).isSome = true) :
    Granted .admin caller body fetched action v entry ↔ Fair caller action v entry := by
  obtain ⟨row, hrow⟩ := Option.isSome_iff_exists.mp hlookup
  have hturn (server : Server) (hfind : denoted v.servers entry.serverId = some server)
      (hreaches : Endpoint.admin.reaches action server = true) {P : Prop} :
      Returns (adminTurn fetched action entry) v (fun _ _ => P) ↔ (carriedOut action v entry.runtime server = true → P) := by
    have hcurrent : (v.servers.find row.id).getD row = server := by
      rw [← denoted_of_names (denoted_names (denoted_of_lookup hrow)), hfind]
      rfl
    rw [adminTurn_eq hrow, ← returns_iff (adminPerform_returns entry.runtime hreaches)
      fun raise t hr => (adminPerform_raises entry.runtime action server raise t hr).1, ← hcurrent]
    rfl
  refine ⟨fun h server hfind hreaches hcarried => ?_, fun h => ⟨fun server hfind hreaches => ?_, ?_⟩⟩
  · have haccepted := (hturn server hfind hreaches).mp (h.accepted server hfind hreaches) hcarried
    exact (exists_accepts_iff hjwt hfind haction hreaches).mp haccepted
  · refine (hturn server hfind hreaches).mpr fun hcarried => ?_
    exact (exists_accepts_iff hjwt hfind haction hreaches).mpr (h server hfind hreaches hcarried)
  · exact adminTurn_kept fetched action entry v

theorem eachEntry_raises (turn : Entry → Handler Unit) (entries : List Entry) {Q : Raise → World → Prop} :
    Raises (eachEntry turn entries) v Q := by
  induction entries generalizing v with
  | nil => exact .pure
  | cons entry entries ih =>
      exact .bind ScheduledStarts.attempt_raises fun outcome t _ => .bind ih fun _ _ _ => .pure

theorem final_eachEntry_cons (turn : Entry → Handler Unit) (entry : Entry) (entries : List Entry) {outcome : Except Raise Unit}
    {t : World} (hr : (attempt (turn entry)).run v = .ok outcome t) :
    final (eachEntry turn (entry :: entries)) v = final (eachEntry turn entries) t := by
  rw [eachEntry, final_bind_of_ok hr, final_bind_pure]

/-- A server none of whose entries is listed as done has the row it had, where
every turn that fails leaves the rows alone. -/
theorem eachEntry_untouched {turn : Entry → Handler Unit} (hturn : Local turn) (entries : List Entry)
    (hkept : ∀ before entry after, entries = before ++ entry :: after →
      Raises (turn entry) (final (eachEntry turn before) v) fun _ t => t.servers = (final (eachEntry turn before) v).servers) :
    Returns (eachEntry turn entries) v fun outcomes t =>
      ∀ id, (∀ sent ∈ succeeded outcomes, ¬ sent.names id) → t.servers.find id = v.servers.find id := by
  induction entries generalizing v with
  | nil => exact .pure fun _ _ => rfl
  | cons entry entries ih =>
      refine .bind fun outcome t hr => ?_
      have hrest : ∀ before next after, entries = before ++ next :: after → Raises (turn next) (final (eachEntry turn before) t)
          fun _ u => u.servers = (final (eachEntry turn before) t).servers := by
        intro before next after hentries
        have h := hkept (entry :: before) next after (by rw [hentries]; rfl)
        rwa [final_eachEntry_cons turn entry before hr] at h
      refine .bind fun outcomes u hr' => .pure fun id hnone => ?_
      have hrest := ih hrest outcomes u hr' id fun sent hsent => hnone sent ?_
      · rw [hrest]
        rw [attempt_run] at hr
        cases hrun : (turn entry).run v with
        | error raise t' =>
            rw [hrun] at hr
            cases hr
            rw [hkept [] entry entries rfl raise t hrun]
            rfl
        | ok a t' =>
            rw [hrun] at hr
            cases hr
            have hnames : ¬ entry.serverId.names id := hnone _ List.mem_cons_self
            exact final_of_ok hrun ▸ hturn entry v id hnames
      · rw [succeeded, List.filter_cons]
        split
        · exact List.mem_cons_of_mem _ hsent
        · exact hsent

theorem bulk_untouched (caller : Caller) (body : BulkServerActionRequest) (w : World)
    (hadmitted : Admitted .bulk caller body w) :
    Returns (Endpoint.bulk.handle caller body) w fun results t =>
      ∀ id, (∀ sent ∈ results.succeeded, ¬ sent.names id) → t.servers.find id = w.servers.find id := by
  refine .bind fun response t hr => .pure ?_
  revert response t hr
  show Returns _ _ _
  refine .bind fun action u hr => ?_
  rw [ofExcept_run] at hr
  split at hr
  next hgate =>
    cases hr
    refine .bind fun outcomes t hr' => .pure ?_
    refine eachEntry_untouched (bulkTurn_local caller action body.reason) _ (fun before entry after hentries => ?_) outcomes t hr'
    exact bulkTurn_kept (hadmitted action hgate before entry after hentries)
  next => cases hr

theorem admin_untouched (caller : Caller) (body : BulkServerActionRequest) (w : World) :
    Returns (Endpoint.admin.handle caller body) w fun results t =>
      ∀ id, (∀ sent ∈ results.succeeded, ¬ sent.names id) → t.servers.find id = w.servers.find id := by
  refine .bind fun response t hr => .pure ?_
  revert response t hr
  show Returns _ _ _
  refine .bind fun action u hr => ?_
  rw [ofExcept_run] at hr
  split at hr
  · cases hr
    refine .get_bind (.bind fun outcomes t hr' => .pure ?_)
    exact eachEntry_untouched (adminTurn_local w.servers action) _ (fun _ _ _ _ => adminTurn_kept _ _ _ _) outcomes t hr'
  · cases hr

/-- Once past its checks an endpoint raises nothing. -/
theorem handle_raises (endpoint : Endpoint) (caller : Caller) (body : BulkServerActionRequest) (w : World) :
    Raises (endpoint.handle caller body) w fun _ t => t = w := by
  have hgate (gate : Except Raise Action) : Raises (ofExcept gate : Handler Action) w fun _ t => t = w := by
    intro raise t hr
    rw [ofExcept_run] at hr
    split at hr <;> cases hr
    rfl
  cases endpoint with
  | bulk =>
      refine .bind (.bind (hgate _) fun action t hr => ?_) fun _ _ _ => .pure
      exact .bind (eachEntry_raises _ _) fun _ _ _ => .pure
  | admin =>
      refine .bind (.bind (hgate _) fun action t hr => ?_) fun _ _ _ => .pure
      exact .get_bind (.bind (eachEntry_raises _ _) fun _ _ _ => .pure)

theorem adminGate_ok (h : adminGate caller body = .ok action) : caller.method = .jwt ∧ action ≠ .restart := by
  obtain ⟨_, hadmin, h⟩ := ok_of_bind h
  obtain ⟨_, hjwt, h⟩ := ok_of_bind h
  refine ⟨?_, ?_⟩
  · by_contra hmethod
    rw [requireJwtAuth, if_neg hmethod] at hjwt
    cases hjwt
  · rintro rfl
    split at h
    · cases h
    · cases h
    next hne _ =>
      split at h
      · cases h
        exact hne rfl
      · cases h

end Turns

theorem admin_confined_iff (caller : Caller) (body : BulkServerActionRequest) (w : World) :
    Confined .admin caller body w ↔ Admitted .admin caller body w := by
  have hgranted (action : Action) (hgate : adminGate caller body = .ok action) (before : List Entry) (entry : Entry)
      (after : List Entry) (hentries : found body w.servers = before ++ entry :: after) :
      Granted .admin caller body w.servers action (final (eachEntry (adminTurn w.servers action) before) w) entry ↔
        Fair caller action (final (eachEntry (adminTurn w.servers action) before) w) entry := by
    obtain ⟨hjwt, haction⟩ := adminGate_ok hgate
    have hmem : entry ∈ found body w.servers := by
      rw [hentries]
      exact List.mem_append_right before List.mem_cons_self
    exact adminTurn_granted_iff hjwt haction (List.mem_filter.mp hmem).2
  constructor
  · intro h action hgate before entry after hentries
    exact (hgranted action hgate before entry after hentries).mp (h.granted action hgate before entry after hentries)
  · intro h
    refine ⟨fun action hgate before entry after hentries => ?_, ?_, handle_raises .admin caller body w⟩
    · exact (hgranted action hgate before entry after hentries).mpr (h action hgate before entry after hentries)
    · exact admin_untouched caller body w

section Arrears

def adminCaller : Caller where
  site :=
    { accounts := ⟨⟨[⟨1, "ada", "ada@example.org", some "lovelace", .admin, true, 100⟩], by decide⟩, by decide, by decide⟩
      rolePermissions := defaultRolePermissions
      passwordLogin := true }
  user := ⟨1, "ada", "ada@example.org", some "lovelace", .admin, true, 100⟩
  method := .jwt

def arrears : World :=
  { blankWorld with
    users := fun id => if id = 2 then some { newUser "bo" with nukeBalance := 0 } else none
    plans := fun id => if id = 3 then some (newPlan "large" 5) else none
    servers := (Table.empty Server.id).insert { newServer 5 2 3 6 "lab" 0 with status := .stopped } }

def startEntry : Entry := ⟨.uuid ⟨5, true⟩, obedient .paused, ⟨true, none⟩, .null⟩

end Arrears

end NukeLab.BulkGrants
