import NukeLab.Administration
import NukeLab.Notifications
import NukeLab.ScheduledStarts
import NukeLab.ServerRecords
import NukeLab.Texts

namespace NukeLab.BulkActions

open Program Tables Records Roles State Lifecycle
open Administration (Site Account AuthMethod PathId hasPermission requireJwtAuth requirePermissions require)
open Notifications (getUserNotificationPrefs shouldSend)
open RetentionPolicy (Json)
open ScheduledStarts (raiseText)

deriving instance DecidableEq for PathId

structure Caller where
  site : Site
  user : Account
  method : AuthMethod

/-- An identifier as sent: a spelling of a uuid, or a text that is none and what
the database driver says of it. -/
inductive SentId
  | uuid (path : PathId)
  | malformed (error : String)
  deriving DecidableEq

def SentId.names : SentId → Uuid → Prop
  | .uuid path, id => path.id = id
  | .malformed _, _ => False

def SentId.parses : SentId → Bool
  | .uuid _ => true
  | .malformed _ => false

/-- One server asked for, what the driver and the services answer in its turn,
and what the owner has stored as preferences. -/
structure Entry where
  serverId : SentId
  runtime : Runtime
  answers : Answers
  preferences : Json

inductive Action
  | start
  | stop
  | restart
  | delete
  deriving DecidableEq

namespace Action

def text : Action → String
  | start => "start"
  | stop => "stop"
  | restart => "restart"
  | delete => "delete"

def validActions : List Action := [start, stop, restart, delete]

def parse (text : String) : Option Action := validActions.find? fun action => action.text = text

end Action

def requireAny (site : Site) (user : Account) (permissions : List Permission) : Except Raise Unit :=
  if permissions.any (hasPermission site user) then .ok ()
  else .error (.http 403 ("One of these permissions required: " ++ ", ".intercalate (permissions.map Permission.text)))

def findSent : SentId → Handler (Option Server)
  | .uuid path => findServer path.id
  | .malformed error => throw (.exception error)

section Single

variable (caller : Caller) (reason : Option String)

def crossUser (server : Server) : Prop := server.userId ≠ caller.user.id

instance (server : Server) : Decidable (crossUser caller server) := inferInstanceAs (Decidable (_ ≠ _))

def getServerWithPermissionCheck (serverId : SentId) (adminPermissions : List Permission) : Handler Server := do
  match ← findSent serverId with
  | none => throw (.http 404 "Server not found")
  | some server =>
    if crossUser caller server then
      if caller.method ≠ .jwt then
        throw (.http 403 "Cross-user server access requires JWT authentication. Please log in via the web interface.")
      ofExcept (requireAny caller.site caller.user adminPermissions)
    return server

/-- The trail itself, an entry of the activity log and a notice to the owner, refuses nothing and is not modelled. -/
def auditCrossUserAccess (server : Server) : Handler Unit := do
  if crossUser caller server then
    if reason.all Texts.isBlank then throw (.http 400 "A reason is required for cross-user server access")

def onServer (serverId : SentId) (perform : Server → Handler Reply) : Handler Reply := do
  ofExcept (requirePermissions caller.site caller.user .serversWriteOwn)
  let server ← getServerWithPermissionCheck caller serverId [.serversWriteAll, .serversAccessOthers]
  ofExcept (require caller.site caller.user .serversWriteOwn)
  if crossUser caller server then
    ofExcept (requireAny caller.site caller.user [.serversWriteAll, .serversAccessOthers])
    auditCrossUserAccess caller reason server
  perform server

variable (entry : Entry)

/-- The owner is told, of which only what goes wrong is modelled. Where a handler
catches that it has a detail of its own for it. -/
def tellOwner (eventKey : String) (detail : Option String) : Except Raise Unit :=
  match shouldSend (getUserNotificationPrefs entry.preferences) eventKey "in_app" with
  | .ok _ => .ok ()
  | .error raise => .error (detail.elim raise (Raise.http 500))

def act : Action → Server → Handler Reply
  | .start, server => performServerStart entry.runtime entry.answers server caller.user.username
  | .stop, server => performServerStop entry.runtime server
  | .restart, server => performServerRestart entry.runtime entry.answers server caller.user.username
  | .delete, server => performServerDelete entry.runtime server

/-- The event that a reply goes with. A container made anew for a start, and one
found as it is to be, is no news to the owner. -/
def eventOf : Action → Reply → Option String
  | .start, reply => if reply.message = "Server started" then some "server_start" else none
  | .stop, reply => if reply.message = "Server stopped" then some "server_stop" else none
  | .restart, _ => some "server_start"
  | .delete, _ => some "server_stop"

def detailOf (server : Server) : Action → Option String
  | .start =>
    if server.containerId.isSome then some "Failed to start server. Please try again or contact support."
    else some "Failed to restart server. Please try again or contact support."
  | .stop =>
    if server.containerId.isSome then some "Failed to stop server. Please try again or contact support." else none
  | .restart => some "Failed to restart server. Please try again or contact support."
  | .delete => none

def tellOf (action : Action) (server : Server) (reply : Reply) : Except Raise Unit :=
  match eventOf action reply with
  | some eventKey => tellOwner entry eventKey (detailOf server action)
  | none => .ok ()

/-- What goes wrong in telling the owner leaves the row as it was written. It is
committed by then, but for the start of a container, which stays in the session
and is committed with whatever comes next. -/
def perform (action : Action) (server : Server) : Handler Reply := do
  let reply ← act caller entry action server
  ofExcept (tellOf entry action server reply)
  return reply

def startServer : Handler Reply := onServer caller reason entry.serverId (perform caller entry .start)

def stopServer : Handler Reply := onServer caller reason entry.serverId (perform caller entry .stop)

def restartServer : Handler Reply := onServer caller reason entry.serverId (perform caller entry .restart)

def deleteServer : Handler Reply := onServer caller reason entry.serverId (perform caller entry .delete)

def Action.endpoint : Action → Handler Reply
  | .start => startServer caller reason entry
  | .stop => stopServer caller reason entry
  | .restart => restartServer caller reason entry
  | .delete => deleteServer caller reason entry

end Single

structure BulkServerActionRequest where
  action : String
  entries : List Entry
  /-- The admin's endpoint has no place for one and ignores it. -/
  reason : Option String

structure Results where
  succeeded : List SentId
  failed : List (SentId × String)

/-- The loop of a bulk request: what an entry's turn raises is noted against it,
and the next has its turn. -/
def eachEntry (turn : Entry → Handler Unit) : List Entry → Handler (List (SentId × Except Raise Unit))
  | [] => return []
  | entry :: entries => do
    let outcome ← attempt (turn entry)
    return (entry.serverId, outcome) :: (← eachEntry turn entries)

def succeeded (outcomes : List (SentId × Except Raise Unit)) : List SentId :=
  (outcomes.filter fun o => o.2.isOk).map Prod.fst

def failed (text : Raise → String) (outcomes : List (SentId × Except Raise Unit)) : List (SentId × String) :=
  outcomes.filterMap fun o =>
    match o.2 with
    | .ok _ => none
    | .error raise => some (o.1, text raise)

section Bulk

structure BulkActionResponse where
  results : Results
  total : Nat
  successCount : Nat
  failureCount : Nat

/-- An HTTP error is reported by its detail alone. -/
def raiseDetail : Raise → String
  | .http _ detail => detail
  | .exception text => text

variable (caller : Caller) (body : BulkServerActionRequest)

def bulkGate : Except Raise Action := do
  requireJwtAuth caller.method
  match Action.parse body.action with
  | none =>
    .error (.http 400 ("Invalid action. Must be one of: " ++ ", ".intercalate (Action.validActions.map Action.text)))
  | some action =>
    if hasPermission caller.site caller.user .serversWriteOwn then .ok action
    else .error (.http 403 "Permission denied")

/-- The notice of the access goes to the owner before anything is done. -/
def accessCheck (reason : Option String) (entry : Entry) (server : Server) : Except Raise Unit :=
  if ¬ crossUser caller server then .ok ()
  else if caller.method ≠ .jwt then
    .error (.exception "Cross-user server access requires JWT authentication. Please log in via the web interface.")
  else if ¬ hasPermission caller.site caller.user .serversAccessOthers then .error (.exception "Permission denied")
  else if reason.all Texts.isBlank then .error (.exception "A reason is required for cross-user server access")
  else tellOwner entry "server_accessed" none

def statusCheck (action : Action) (server : Server) : Except Raise Unit :=
  match action with
  | .start => if server.status = .running then .error (.exception "Server already running") else .ok ()
  | .stop => if server.status = .stopped then .error (.exception "Server already stopped") else .ok ()
  | .restart | .delete => .ok ()

def bulkCheck (action : Action) (reason : Option String) (entry : Entry) (server : Server) : Except Raise Unit := do
  accessCheck caller reason entry server
  statusCheck action server

def bulkTurn (action : Action) (reason : Option String) (entry : Entry) : Handler Unit := do
  match ← findSent entry.serverId with
  | none => throw (.exception "Server not found")
  | some server =>
    ofExcept (bulkCheck caller action reason entry server)
    let _ ← perform caller entry action server

def bulkServerAction : Handler BulkActionResponse := do
  let action ← ofExcept (bulkGate caller body)
  let outcomes ← eachEntry (bulkTurn caller action body.reason) body.entries
  let results : Results := ⟨succeeded outcomes, failed raiseDetail outcomes⟩
  return ⟨results, body.entries.length, results.succeeded.length, results.failed.length⟩

end Bulk

section Admin

structure AdminBulkResponse where
  message : String
  action : String
  results : Results

variable (caller : Caller) (body : BulkServerActionRequest)

def adminGate : Except Raise Action := do
  requirePermissions caller.site caller.user .adminAccess
  requireJwtAuth caller.method
  match Action.parse body.action with
  | none | some .restart => .error (.http 400 ("Unknown action: " ++ body.action))
  | some action =>
    if body.entries.all fun entry => entry.serverId.parses then .ok action
    else .error (.http 400 "Invalid server ID format")

/-- The servers are fetched at once, and looked up by the way `str` spells their ids. -/
def lookup (fetched : Table Server.id) : SentId → Option Server
  | .uuid path => if path.canonical then fetched.find path.id else none
  | .malformed _ => none

/-- A row that has been deleted by then is gone on with as it was. -/
def adminTurn (fetched : Table Server.id) (action : Action) (entry : Entry) : Handler Unit := do
  match lookup fetched entry.serverId with
  | none => return
  | some row =>
    let server := (← findServer row.id).getD row
    match action with
    | .start => bulkStart entry.runtime server
    | .stop => bulkStop entry.runtime server
    | .delete => bulkDelete entry.runtime server
    | .restart => return

def found (fetched : Table Server.id) : List Entry :=
  body.entries.filter fun entry => (lookup fetched entry.serverId).isSome

def adminBulkServerAction : Handler AdminBulkResponse := do
  let action ← ofExcept (adminGate caller body)
  let fetched := (← get).servers
  let missing := (body.entries.map Entry.serverId).filter fun sent => (lookup fetched sent).isNone
  let outcomes ← eachEntry (adminTurn fetched action) (found body fetched)
  let unfound := missing.dedup.map fun sent => (sent, "Server not found")
  return ⟨"Processed " ++ toString body.entries.length ++ " servers", body.action,
    ⟨succeeded outcomes, unfound ++ failed raiseText outcomes⟩⟩

end Admin

end NukeLab.BulkActions
