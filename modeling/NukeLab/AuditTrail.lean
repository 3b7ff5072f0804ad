import Mathlib.Data.List.SplitOn
import NukeLab.TokenScopes
import NukeLab.UuidTexts

namespace NukeLab.AuditTrail

open Program Records State Tables Sessions TokenScopes
open Administration (Account AuthMethod)
open EntryPoints (Libraries jwtAccount securityScheme)

structure HttpRequest where
  method : String
  path : String
  credentials : EntryPoints.Request
  clientHost : Option String
  userAgent : Option String
  /-- the trace that it is part of, where tracing is on -/
  traceId : Option Uuid

structure ServerRecord where
  id : Uuid
  name : String
  status : String
  planId : Option Uuid

inductive BeforeState
  | empty
  | user (account : Account)
  | server (record : ServerRecord)

inductive AuthInfo
  | anonymous
  | jwt
  | apiToken (scopes : List Routes.Scope)

structure Details where
  method : String
  path : String
  statusCode : Nat
  auth : AuthInfo
  /-- name, role and address of the actor -/
  actor : Option (String × Roles.Role × String)

structure ActivityLog where
  actorId : Option Uuid
  action : String
  targetType : String
  targetId : Option Uuid
  details : Details
  beforeState : BeforeState
  ipAddress : Option String
  userAgent : Option String
  requestId : Option Uuid

/-- The libraries, what the column type of an address takes, and the servers among the resources. -/
structure Environment (σ : Type) where
  settings : AuthSettings
  lib : Libraries
  isInet : String → Bool
  server : σ → Uuid → Option ServerRecord

/-- The endpoints: which of them ask who calls, and what each of them answers and
leaves, having raised where it answers nothing. -/
structure Application (σ : Type) where
  needsAuth : HttpRequest → Bool
  handle : HttpRequest → Option AuthContext → Store σ → Option Nat × Store σ

structure World (σ : Type) where
  store : Store σ
  activityLogs : List ActivityLog

def skipPaths : List String := ["/api/health", "/api/docs", "/api/openapi.json", "/api/ws", "/api/metrics"]

def skipMethods : List String := ["GET", "HEAD", "OPTIONS"]

def isSkipped (path : String) : Bool := skipPaths.any fun skip => skip.toList.isPrefixOf path.toList

/-- The pieces of a path, the slashes at its ends left out. -/
def parts (path : String) : List String :=
  ((IntTexts.stripBy (· = '/') path.toList).splitOn '/').map String.ofList

structure Target where
  targetType : String
  targetId : Option Uuid
  action : String

def lowered (text : String) : String := String.ofList (text.toList.flatMap DockerNames.lower)

def target (method path : String) : Target :=
  match parts path with
  | "api" :: targetType :: rest =>
    let targetId := rest.head?.bind UuidTexts.parseUuid
    let action :=
      if method = "POST" then
        match rest with
        | _ :: verb :: _ => verb ++ "_" ++ targetType
        | [verb] => if targetId.isNone then verb ++ "_" ++ targetType else "create_" ++ targetType
        | [] => "create_" ++ targetType
      else if method = "PUT" then "update_" ++ targetType
      else if method = "DELETE" then "delete_" ++ targetType
      else lowered method
    ⟨targetType, targetId, action⟩
  | _ => ⟨"unknown", none, lowered method⟩

section Middleware

variable {σ : Type} (env : Environment σ)

def fetchRecord (s : Store σ) (targetType targetId : String) : BeforeState :=
  match UuidTexts.parseUuid targetId with
  | none => .empty
  | some id =>
    if targetType = "users" then ((s.realm.site.accounts.getById id).map BeforeState.user).getD .empty
    else if targetType = "servers" then ((env.server s.data id).map BeforeState.server).getD .empty
    else .empty

def captureBeforeState (r : HttpRequest) (s : Store σ) : BeforeState :=
  match parts r.path with
  | "api" :: targetType :: targetId :: _ => fetchRecord env s targetType targetId
  | _ => .empty

/-- The account that the header's token names, whether the endpoint has gone by that token or not. -/
def getUserFromToken (r : HttpRequest) (s : Store σ) : Option Account :=
  let authHeader := (r.credentials.authorization.getD "").toList
  if "Bearer ".toList.isPrefixOf authHeader then jwtAccount env.settings env.lib s.db (String.ofList (authHeader.drop 7))
  else none

def authInfo : Option AuthContext → AuthInfo
  | none => .anonymous
  | some context => if context.authMethod = .apiToken then .apiToken context.tokenScopes else .jwt

def activityLog (r : HttpRequest) (statusCode : Nat) (context : Option AuthContext) (beforeState : BeforeState)
    (s : Store σ) : ActivityLog :=
  let user := getUserFromToken env r s
  let t := target r.method r.path
  { actorId := user.map Account.id
    action := t.action
    targetType := t.targetType
    targetId := t.targetId
    details := ⟨r.method, r.path, statusCode, authInfo context, user.map fun u => (u.username, u.role, u.email)⟩
    beforeState := beforeState
    ipAddress := r.clientHost
    userAgent := r.userAgent
    requestId := r.traceId }

def fits (width : Nat) (text : String) : Bool := text.length ≤ width && '\x00' ∉ text.toList

def storable (r : HttpRequest) : Bool :=
  fits 100 (target r.method r.path).action && fits 50 (target r.method r.path).targetType && r.clientHost.all env.isInet

/-- What is raised here is logged and dropped. -/
def logActivity (r : HttpRequest) (statusCode : Nat) (context : Option AuthContext) (beforeState : BeforeState)
    (w : World σ) : World σ :=
  if storable env r then
    { w with activityLogs := w.activityLogs ++ [activityLog env r statusCode context beforeState w.store] }
  else w

/-- Whom the endpoint takes the request to be from, and its answer. -/
structure Outcome where
  context : Option AuthContext
  statusCode : Option Nat

def Outcome.ofRaise : Raise → Outcome
  | .http status _ => ⟨none, some status⟩
  | .exception _ => ⟨none, none⟩

variable (app : Application σ)

def callNext (r : HttpRequest) (s : Store σ) : Outcome × Store σ :=
  if app.needsAuth r then
    match securityScheme r.credentials with
    | .error raise => (.ofRaise raise, s)
    | .ok token =>
      match (TokenScopes.getAuthContext env.settings env.lib token).run s with
      | .error raise t => (.ofRaise raise, t)
      | .ok context t =>
        let (statusCode, u) := app.handle r (some context) t
        (⟨some context, statusCode⟩, u)
  else
    let (statusCode, t) := app.handle r none s
    (⟨none, statusCode⟩, t)

def dispatch (r : HttpRequest) (w : World σ) : Outcome × World σ :=
  if r.method ∈ skipMethods then
    let (outcome, store) := callNext env app r w.store
    (outcome, { w with store })
  else if isSkipped r.path then
    let (outcome, store) := callNext env app r w.store
    (outcome, { w with store })
  else
    let beforeState := if r.method = "PUT" ∨ r.method = "DELETE" then captureBeforeState env r w.store else .empty
    let (outcome, store) := callNext env app r w.store
    match outcome.statusCode with
    | none => (outcome, { w with store })
    | some statusCode =>
      if statusCode < 400 then (outcome, logActivity env r statusCode outcome.context beforeState { w with store })
      else (outcome, { w with store })

/-- Of an authenticated request that changes something and is answered with a
status below 400 there is one row, and its actor is the account; of a request
refused there is none. -/
structure Audited (r : HttpRequest) (w : World σ) : Prop where
  complete : ∀ context statusCode, (dispatch env app r w).1 = ⟨some context, some statusCode⟩ → r.method ∉ skipMethods →
    statusCode < 400 → ∃ row, (dispatch env app r w).2.activityLogs = w.activityLogs ++ [row] ∧
      row.actorId = some context.user.id
  quiet : ∀ statusCode, (dispatch env app r w).1.statusCode = some statusCode → 400 ≤ statusCode →
    (dispatch env app r w).2.activityLogs = w.activityLogs

def StillNames (r : HttpRequest) (s : Store σ) (user : Account) : Prop :=
  ∃ token jwt, r.credentials.authorization = some ("Bearer " ++ token) ∧ env.lib.decode token = some jwt ∧ jwt.sub ≠ "" ∧
    verifyAccessToken env.settings s.realm jwt = true ∧
    ∃ owner, s.realm.site.accounts.getByUsername jwt.sub = some owner ∧ owner.id = user.id

structure Recordable (r : HttpRequest) (s : Store σ) (user : Account) : Prop where
  path : isSkipped r.path = false
  storable : storable env r = true
  named : StillNames env r s user

end Middleware

section Laws

variable {σ : Type} {env : Environment σ} {app : Application σ} {r : HttpRequest} {w : World σ}

theorem dispatch_outcome : (dispatch env app r w).1 = (callNext env app r w.store).1 := by
  rw [dispatch]
  split
  · rfl
  split
  · rfl
  dsimp only
  split
  · rfl
  · split <;> rfl

/-- What is written, told from the answer. -/
theorem dispatch_logs (env : Environment σ) (app : Application σ) (w : World σ) (hmethod : r.method ∉ skipMethods) :
    ∃ beforeState, (dispatch env app r w).2.activityLogs =
      match (callNext env app r w.store).1.statusCode with
      | some statusCode =>
        if statusCode < 400 ∧ isSkipped r.path = false ∧ storable env r then
          w.activityLogs ++ [activityLog env r statusCode (callNext env app r w.store).1.context beforeState
            (callNext env app r w.store).2]
        else w.activityLogs
      | none => w.activityLogs := by
  refine ⟨if r.method = "PUT" ∨ r.method = "DELETE" then captureBeforeState env r w.store else .empty, ?_⟩
  rw [dispatch, if_neg hmethod]
  by_cases hskip : isSkipped r.path
  · rw [if_pos hskip]
    simp only [hskip]
    split <;> simp
  rw [if_neg hskip]
  simp only [Bool.not_eq_true] at hskip
  simp only [hskip, true_and]
  split
  · rename_i hcode
    rw [hcode]
  · rename_i statusCode hcode
    rw [hcode]
    by_cases hlow : statusCode < 400
    · simp only [hlow, if_true, true_and, logActivity]
      split <;> rfl
    · simp only [hlow, if_false, false_and]

theorem jwtAccount_eq_some {settings : AuthSettings} {lib : Libraries} {db : EntryPoints.Database} {token : String}
    {user : Account} : jwtAccount settings lib db token = some user ↔ ∃ jwt, lib.decode token = some jwt ∧ jwt.sub ≠ "" ∧
      verifyAccessToken settings db.realm jwt = true ∧ db.realm.site.accounts.getByUsername jwt.sub = some user := by
  simp [jwtAccount, Option.bind_eq_some_iff, Option.filter_eq_some_iff, and_assoc]

theorem isPrefixOf_bearer (authHeader : String) :
    "Bearer ".toList.isPrefixOf authHeader.toList = true ↔
      authHeader = "Bearer " ++ String.ofList (authHeader.toList.drop 7) := by
  have hlength : "Bearer ".toList.length = 7 := rfl
  have hrest : (String.ofList (authHeader.toList.drop 7)).toList = authHeader.toList.drop 7 := String.toList_ofList
  rw [List.isPrefixOf_iff_prefix, List.prefix_iff_eq_append, hlength, ← String.toList_inj, String.toList_append, hrest]
  exact eq_comm

theorem drop_bearer (token : List Char) : ("Bearer ".toList ++ token).drop 7 = token := rfl

theorem getUserFromToken_eq_some {s : Store σ} {user : Account} : getUserFromToken env r s = some user ↔
    ∃ token jwt, r.credentials.authorization = some ("Bearer " ++ token) ∧ env.lib.decode token = some jwt ∧ jwt.sub ≠ "" ∧
      verifyAccessToken env.settings s.realm jwt = true ∧ s.realm.site.accounts.getByUsername jwt.sub = some user := by
  rw [getUserFromToken]
  constructor
  · intro h
    split at h
    · rename_i hprefix
      obtain ⟨jwt, hjwt⟩ := jwtAccount_eq_some.mp h
      refine ⟨_, jwt, ?_, hjwt⟩
      have hheader := (isPrefixOf_bearer _).mp hprefix
      cases hauth : r.credentials.authorization with
      | none =>
          rw [hauth] at hprefix
          cases hprefix
      | some authHeader =>
          rw [hauth] at hheader
          exact congrArg some hheader
    · cases h
  · rintro ⟨token, jwt, hauth, hjwt⟩
    have hheader : (r.credentials.authorization.getD "").toList = "Bearer ".toList ++ token.toList := by
      rw [hauth, Option.getD_some, String.toList_append]
    have hprefix : "Bearer ".toList.isPrefixOf ("Bearer ".toList ++ token.toList) = true :=
      List.isPrefixOf_iff_prefix.mpr (List.prefix_append _ _)
    have htoken : String.ofList (("Bearer ".toList ++ token.toList).drop 7) = token := by
      rw [drop_bearer, String.ofList_toList]
    rw [hheader, if_pos hprefix, htoken]
    exact jwtAccount_eq_some.mpr ⟨jwt, hjwt⟩

theorem stillNames_iff {s : Store σ} {user : Account} : StillNames env r s user ↔
    (getUserFromToken env r s).map Account.id = some user.id := by
  rw [Option.map_eq_some_iff]
  constructor
  · rintro ⟨token, jwt, hauth, hdecode, hsub, hverify, owner, howner, hid⟩
    exact ⟨owner, getUserFromToken_eq_some.mpr ⟨token, jwt, hauth, hdecode, hsub, hverify, howner⟩, hid⟩
  · rintro ⟨owner, howner, hid⟩
    obtain ⟨token, jwt, hauth, hdecode, hsub, hverify, howner⟩ := getUserFromToken_eq_some.mp howner
    exact ⟨token, jwt, hauth, hdecode, hsub, hverify, owner, howner, hid⟩

theorem stillNames_of_jwtUser {s : Store σ} {user : Account} {token : String}
    (hauth : r.credentials.authorization = some ("Bearer " ++ token))
    (huser : EntryPoints.jwtUser env.settings env.lib s.db token = some user) : StillNames env r s user := by
  rw [EntryPoints.jwtUser, Option.filter_eq_some_iff] at huser
  obtain ⟨jwt, hdecode, hsub, hverify, howner⟩ := jwtAccount_eq_some.mp huser.1
  exact ⟨token, jwt, hauth, hdecode, hsub, hverify, user, howner, rfl⟩

/-- An API token is no signed token, and names nobody. -/
theorem not_stillNames_of_undecodable {s : Store σ} {user : Account}
    (h : ∀ token, r.credentials.authorization = some ("Bearer " ++ token) → env.lib.decode token = none) :
    ¬ StillNames env r s user := by
  rintro ⟨token, jwt, hauth, hdecode, -⟩
  cases (h token hauth).symm.trans hdecode

theorem quiet (statusCode : Nat) (h : (dispatch env app r w).1.statusCode = some statusCode) (hhigh : 400 ≤ statusCode) :
    (dispatch env app r w).2.activityLogs = w.activityLogs := by
  by_cases hmethod : r.method ∈ skipMethods
  · rw [dispatch, if_pos hmethod]
  · obtain ⟨beforeState, hlogs⟩ := dispatch_logs env app w hmethod
    rw [dispatch_outcome] at h
    rw [hlogs, h]
    exact if_neg fun hlow => absurd hhigh (not_le.mpr hlow.1)

end Laws

/-- The middleware accounts for a request exactly where its path is not skipped, the
row can be stored, and a signed token in the header still names the account. -/
theorem audited_iff {σ : Type} (env : Environment σ) (app : Application σ) (r : HttpRequest) (w : World σ) :
    Audited env app r w ↔ ∀ context statusCode, (callNext env app r w.store).1 = ⟨some context, some statusCode⟩ →
      r.method ∉ skipMethods → statusCode < 400 → Recordable env r (callNext env app r w.store).2 context.user := by
  constructor
  · intro h context statusCode houtcome hmethod hlow
    obtain ⟨row, hrow, hactor⟩ := h.complete context statusCode (dispatch_outcome.trans houtcome) hmethod hlow
    obtain ⟨beforeState, hlogs⟩ := dispatch_logs env app w hmethod
    rw [hlogs, houtcome] at hrow
    dsimp only at hrow
    split at hrow
    · rename_i hcan
      have hsame := List.append_cancel_left hrow
      injection hsame with hsame
      refine ⟨hcan.2.1, hcan.2.2, stillNames_iff.mpr ?_⟩
      rw [← hactor, ← hsame]
      rfl
    · exact absurd hrow (by simp)
  · intro h
    refine ⟨fun context statusCode houtcome hmethod hlow => ?_, quiet⟩
    rw [dispatch_outcome] at houtcome
    obtain ⟨hpath, hstorable, hnamed⟩ := h context statusCode houtcome hmethod hlow
    obtain ⟨beforeState, hlogs⟩ := dispatch_logs env app w hmethod
    rw [hlogs, houtcome]
    dsimp only
    rw [if_pos ⟨hlow, hpath, hstorable⟩]
    exact ⟨_, rfl, stillNames_iff.mp hnamed⟩

section AlertRules

open SessionRevocation (defaultSettings)

def grace : Account := ⟨1, "grace", "grace@example.org", some "hopper", .admin, true, 100⟩

def office : Administration.Site where
  accounts := ⟨⟨[grace], by decide⟩, by decide, by decide⟩
  rolePermissions := Roles.defaultRolePermissions
  passwordLogin := true

def signedLibraries : Libraries where
  decode token := if token = "signed" then some ⟨"grace", Records.day, 2 * Records.day, 7, 0⟩ else none
  decode_empty := by decide
  verifyPassword _ _ := false

def plainEnvironment : Environment Unit := ⟨defaultSettings, signedLibraries, fun _ => true, fun _ _ => none⟩

def willing : Application Unit := ⟨fun _ => true, fun _ _ s => (some 200, s)⟩

def alertRule : HttpRequest where
  method := "POST"
  path := "/api/metrics/alerts/rules"
  credentials := EntryPoints.bearer "signed"
  clientHost := none
  userAgent := none
  traceId := none

def morning : World Unit := ⟨⟨opened office Records.day, Table.empty TokenRow.id, ()⟩, []⟩

/-- Of a new alert rule there is no row. -/
theorem alertRule_unrecorded : ¬ Audited plainEnvironment willing alertRule morning := by
  intro h
  obtain ⟨row, hrow, -⟩ := h.complete ⟨grace, .jwt, []⟩ 200 (by rfl) (by decide) (by decide)
  have hlogs : (dispatch plainEnvironment willing alertRule morning).2.activityLogs = [] := rfl
  rw [hlogs] at hrow
  cases hrow

end AlertRules

end NukeLab.AuditTrail
