import NukeLab.Administration

namespace NukeLab.Sessions

open Machine Program Records Roles State Tables Administration

structure AuthSettings where
  jwtExpireMinutes : Int
  jwtRefreshExpireDays : Int
  leewaySeconds : Int
  creditsInitialBalance : Int

namespace AuthSettings

variable (settings : AuthSettings)

def accessLifetime : Int := settings.jwtExpireMinutes * minute

def refreshLifetime : Int := settings.jwtRefreshExpireDays * day

def leeway : Int := settings.leewaySeconds * second

def cutoffLifetime : Int := settings.jwtExpireMinutes * 2 * minute

end AuthSettings

def numericDate (t : Instant) : Instant := t / second * second

theorem numericDate_le (t : Instant) : numericDate t ≤ t := Int.ediv_mul_le t (by decide)

theorem numericDate_add (t : Instant) (k : Int) : numericDate (t + k * second) = numericDate t + k * second := by
  rw [numericDate, Int.add_mul_ediv_right _ _ (by decide), add_mul, numericDate]

/-- `login` is the number of the login that it descends from, directly or by
refreshes, which no token carries. -/
structure AccessToken where
  sub : String
  iat : Instant
  exp : Instant
  jti : Uuid
  login : Nat
  deriving DecidableEq

/-- A row and the text that finds it are taken as one. -/
structure RefreshToken where
  id : Uuid
  userId : Uuid
  expiresAt : Instant
  revokedAt : Option Instant
  login : Nat
  deriving DecidableEq

/-- A completed change of password or role, disabling or deletion: whose, in
which role, and how many logins there had been. -/
structure Revocation where
  username : String
  role : Role
  logins : Nat
  deriving DecidableEq

/-- The site with its credentials. `issued` are the access tokens signed so far,
the only ones whose signature verifies; `revocations` is the history. -/
structure Realm where
  site : Site
  now : Instant
  nextId : Uuid
  issued : List AccessToken
  refreshTokens : List RefreshToken
  denylist : List (Uuid × Instant)
  cutoffs : String → Option Instant
  logins : Nat
  revocations : List Revocation

variable (settings : AuthSettings)

def isJtiDenied (s : Realm) (jti : Uuid) : Bool := s.denylist.any fun entry => entry.1 = jti ∧ s.now < entry.2

def getUserRevocationCutoff (s : Realm) (sub : String) : Option Instant :=
  (s.cutoffs sub).filter fun cutoff => s.now < cutoff + settings.cutoffLifetime

def verifyAccessToken (s : Realm) (token : AccessToken) : Bool :=
  s.now - settings.leeway < token.exp && token.iat ≤ s.now + settings.leeway && token.iat ≠ 0 &&
    !isJtiDenied s token.jti &&
    (getUserRevocationCutoff settings s token.sub).all fun cutoff => cutoff < token.iat

def getAuthContext (s : Realm) (token : AccessToken) : Option Account :=
  if verifyAccessToken settings s token then
    (s.site.accounts.getByUsername token.sub).filter Account.isActive
  else none

def verifyRefreshToken (s : Realm) (id : Uuid) : Option RefreshToken :=
  s.refreshTokens.find? fun rt => rt.id = id ∧ rt.revokedAt = none ∧ s.now < rt.expiresAt

def revokeRows (now : Instant) (ids : List Uuid) (rows : List RefreshToken) : List RefreshToken :=
  rows.map fun rt => if rt.id ∈ ids then { rt with revokedAt := some now } else rt

def maxRefreshTokensPerUser : Nat := 10

/-- The oldest rows make room. Rows stand in the order they were made. -/
def enforceRefreshTokenLimit (now : Instant) (userId : Uuid) (rows : List RefreshToken) : List RefreshToken :=
  let tokens := rows.filter fun rt => rt.userId = userId ∧ rt.revokedAt = none
  if tokens.length < maxRefreshTokensPerUser then rows
  else revokeRows now ((tokens.take (tokens.length - maxRefreshTokensPerUser + 1)).map RefreshToken.id) rows

def createTokens (s : Realm) (user : Account) (login : Nat) : Realm :=
  { s with
    nextId := s.nextId + 2
    issued := ⟨user.username, numericDate s.now, numericDate (s.now + settings.accessLifetime), s.nextId, login⟩ ::
      s.issued
    refreshTokens := enforceRefreshTokenLimit s.now user.id s.refreshTokens ++
      [⟨s.nextId + 1, user.id, s.now + settings.refreshLifetime, none, login⟩] }

/-- Whether the account is active is not asked. -/
def login (s : Realm) (username password : String) : Except Raise Realm :=
  if ¬ s.site.passwordLogin then .error (.http 403 "Password login is disabled. Use OAuth instead.")
  else
    match s.site.accounts.getByUsername username with
    | none => .error (.http 401 "Incorrect username or password")
    | some user =>
      if user.password = some password then .ok (createTokens settings { s with logins := s.logins + 1 } user s.logins)
      else .error (.http 401 "Incorrect username or password")

def oauthUser (userId : Uuid) (username email : String) : Account where
  id := userId
  username := username
  email := email
  password := none
  role := .user
  isActive := true
  nukeBalance := settings.creditsInitialBalance

/-- The identity provider vouches for an account, or for someone who has none yet. -/
def oauthCallback (s : Realm) (userId : Uuid) (username email : String) : Except Raise Realm :=
  match s.site.accounts.getById userId with
  | some user => .ok (createTokens settings { s with logins := s.logins + 1 } user s.logins)
  | none => do
    let user := oauthUser settings userId username email
    let accounts ← Accounts.commit (s.site.accounts.table.insert user)
    return createTokens settings { s with site := { s.site with accounts }, logins := s.logins + 1 } user s.logins

/-- The token presented is used up even where the account is not active. -/
def refresh (s : Realm) (id : Uuid) : Except Raise Realm :=
  match verifyRefreshToken s id with
  | none => .error (.http 401 "Invalid or expired refresh token")
  | some rt =>
    let revoked := { s with refreshTokens := revokeRows s.now [rt.id] s.refreshTokens }
    match (s.site.accounts.getById rt.userId).filter Account.isActive with
    | none => .ok revoked
    | some user => .ok (createTokens settings revoked user rt.login)

/-- The access token is denied for what is left of its life, in whole seconds. -/
def logout (s : Realm) (token : Option AccessToken) (id : Option Uuid) : Realm :=
  { s with
    denylist :=
      match token.filter fun token => verifyAccessToken settings s token with
      | none => s.denylist
      | some token =>
        if token.exp - s.now < second then s.denylist else (token.jti, s.now + numericDate (token.exp - s.now)) :: s.denylist
    refreshTokens := revokeRows s.now ((id.bind (verifyRefreshToken s)).map RefreshToken.id).toList s.refreshTokens }

/-- The cutoffs once every access token given out for the account so far is cut off. -/
def Realm.revokeUserTokens (s : Realm) (userId : Uuid) (sub : String) : Option Instant :=
  match s.site.accounts.getById userId with
  | none => s.cutoffs sub
  | some user => if sub = user.username then some s.now else s.cutoffs sub

def impersonationLifetime : Int := 30 * minute

/-- An access token for the account, without a login of its own and with no
refresh token beside it. Whether the account is active is not asked. -/
def impersonate (s : Realm) (userId : Uuid) : Except Raise Realm := do
  let username ← impersonateUser s.site userId
  return { s with
    nextId := s.nextId + 1
    issued := ⟨username, numericDate s.now, numericDate (s.now + impersonationLifetime), s.nextId, s.logins⟩ :: s.issued
    logins := s.logins + 1 }

/-- Redis refuses a key that is to live for no time. -/
def invalidExpireTime : Raise := .exception "invalid expire time in 'setex' command"

def adminRevokeUserTokens (s : Realm) (username : String) : Except Raise Realm :=
  match s.site.accounts.getByUsername username with
  | none => .error (.http 404 "User not found")
  | some user =>
    if settings.cutoffLifetime ≤ 0 then .error invalidExpireTime
    else .ok { s with cutoffs := s.revokeUserTokens user.id }

def roleAccepted (s : Realm) (updatedBy : Account) (userId : Uuid) (data : UserUpdate) : Bool :=
  data.role.isSome && (s.site.accounts.getById userId).any fun user =>
    (updatedRole s.site updatedBy user data.role).toBool

def Realm.cascade (s : Realm) (userIds : List Uuid) : List RefreshToken :=
  s.refreshTokens.filter fun rt => rt.userId ∉ userIds

/-- The history once these accounts have had their password or role changed, or
been disabled or deleted. -/
def Realm.completed (s : Realm) (userIds : List Uuid) : List Revocation :=
  (userIds.filterMap s.site.accounts.getById).map (fun user => ⟨user.username, user.role, s.logins⟩) ++ s.revocations

def Realm.revoked (s : Realm) (site : Site) (userId : Uuid) : Realm :=
  { s with site, cutoffs := s.revokeUserTokens userId, revocations := s.completed [userId] }

inductive Event
  | login (username password : String)
  | oauthCallback (userId : Uuid) (username email : String)
  | request (i : Nat)
  | refresh (id : Uuid)
  | logout (token : Option AccessToken) (id : Option Uuid)
  | changePassword (userId : Uuid) (currentPassword newPassword : String)
  | updateUser (updatedBy : Account) (userId : Uuid) (data : UserUpdate)
  | disableUser (userId : Uuid) (disabled : Bool)
  | bulkUserAction (action : String) (userIds : List Uuid)
  | deleteUser (userId : Uuid)
  | wait (duration : Nat)

/-- The batch endpoint and the deletion set no cutoff. -/
def handle (s : Realm) : Event → Except Raise Realm
  | .login username password => login settings s username password
  | .oauthCallback userId username email => oauthCallback settings s userId username email
  | .request i =>
    match (s.issued[i]?).bind (getAuthContext settings s) with
    | none => .error (.http 401 "Could not validate credentials")
    | some _ => .ok s
  | .refresh id => refresh settings s id
  | .logout token id => .ok (logout settings s token id)
  | .changePassword userId currentPassword newPassword => do
    let site ← changePassword s.site userId currentPassword newPassword
    return s.revoked site userId
  | .updateUser updatedBy userId data =>
    match updateUser s.site updatedBy userId data with
    | .ok site =>
      if data.role.isSome then .ok (s.revoked site userId) else .ok { s with site }
    | .error raise =>
      -- The cutoff is set before the fields after the role are looked at.
      if roleAccepted s updatedBy userId data then .ok { s with cutoffs := s.revokeUserTokens userId }
      else .error raise
  | .disableUser userId disabled => do
    let site ← disableUser s.site userId disabled
    if disabled then return s.revoked site userId else return { s with site }
  | .bulkUserAction action userIds => do
    let site ← bulkUserAction s.site action userIds
    if action = "delete" then
      return { s with site, refreshTokens := s.cascade userIds, revocations := s.completed userIds }
    else if action = "disable" then return { s with site, revocations := s.completed userIds }
    else return { s with site }
  | .deleteUser userId => do
    let site ← deleteUser s.site userId
    return { s with site, refreshTokens := s.cascade [userId], revocations := s.completed [userId] }
  | .wait duration => .ok { s with now := s.now + duration }

def step : Step Realm Event := fun s e => (handle settings s e).toOption

/-- Accounts that no one has logged in to yet. -/
def opened (site : Site) (now : Instant) : Realm where
  site := site
  now := now
  nextId := 0
  issued := []
  refreshTokens := []
  denylist := []
  cutoffs := fun _ => none
  logins := 0
  revocations := []

end NukeLab.Sessions
