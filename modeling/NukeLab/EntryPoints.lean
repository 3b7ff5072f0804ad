import NukeLab.DockerNames
import NukeLab.SessionRevocation

namespace NukeLab.EntryPoints

open Program Records Roles State Tables Sessions SessionRevocation
open Administration hiding Event handle step login

structure ApiToken where
  userId : Uuid
  tokenHash : String
  tokenPrefix : Option String
  expiresAt : Option Instant
  revokedAt : Option Instant
  isActive : Bool
  deriving DecidableEq

/-- The libraries that read a signed token and compare a text with a hash. A
comparison that raises is one that fails. -/
structure Libraries where
  decode : String → Option AccessToken
  decode_empty : decode "" = none
  verifyPassword : String → String → Bool

/-- The tables. Rows come in the order in which they stand. -/
structure Database where
  realm : Realm
  apiTokens : List ApiToken

structure Request where
  authorization : Option String
  queryToken : Option String
  cookie : Option String

def bearer (token : String) : Request := ⟨some ("Bearer " ++ token), none, none⟩

def splitScheme (authorization : String) : Option (String × String) :=
  let cs := authorization.toList
  if ' ' ∈ cs then
    some (String.ofList (cs.takeWhile (· ≠ ' ')), String.ofList ((cs.dropWhile (· ≠ ' ')).drop 1))
  else none

def isBearerScheme (scheme : String) : Bool :=
  let cs := scheme.toList.flatMap DockerNames.lower
  cs = "bearer".toList || cs = "token".toList

def securityScheme (request : Request) : Except Raise String :=
  match request.authorization.filter (· ≠ "") with
  | none => .error (.http 401 "Not authenticated")
  | some authorization =>
    let (scheme, token) := (splitScheme authorization).getD ("", "")
    if ¬ isBearerScheme scheme then .error (.http 401 "Invalid authentication scheme") else .ok token

def verifyAuthToken (request : Request) : Except Raise String :=
  let authorization := request.authorization.getD ""
  match splitScheme authorization with
  | some (scheme, token) => if ¬ isBearerScheme scheme then .error (.http 401 "Invalid scheme") else .ok token
  | none =>
    if authorization ≠ "" then .ok authorization
    else
      match request.cookie.filter (· ≠ "") with
      | some cookie => .ok cookie
      | none => .error (.http 401 "Missing token")

def extractTokenOptional (request : Request) : Option String :=
  match request.authorization.filter (· ≠ "") with
  | some authorization =>
    match splitScheme authorization with
    | some (scheme, token) => if isBearerScheme scheme then some token else some authorization
    | none => some authorization
  | none => (request.queryToken.filter (· ≠ "")).or request.cookie

def extractToken (request : Request) : Except Raise String :=
  match extractTokenOptional request with
  | none => .error (.http 401 "Missing token")
  | some token => .ok token

section Lookup

variable (settings : AuthSettings) (lib : Libraries) (db : Database)

def jwtAccount (token : String) : Option Account :=
  ((lib.decode token).filter fun jwt => jwt.sub ≠ "" ∧ verifyAccessToken settings db.realm jwt).bind fun jwt =>
    db.realm.site.accounts.getByUsername jwt.sub

def jwtUser (token : String) : Option Account := (jwtAccount settings lib db token).filter Account.isActive

def usable : List ApiToken := db.apiTokens.filter fun t => t.isActive ∧ t.revokedAt = none

def isExpired (t : ApiToken) : Bool := t.expiresAt.any fun expiresAt => expiresAt < db.realm.now

def activeOwner (t : ApiToken) : Option Account := (db.realm.site.accounts.getById t.userId).filter Account.isActive

def tokenPrefix (token : String) : String := String.ofList (token.toList.take 16)

def credentialsException : Raise := .http 401 "Could not validate credentials"

def getAuthContext (token : String) : Except Raise Account :=
  match jwtUser settings lib db token with
  | some user => .ok user
  | none =>
    let apiTokens := (usable db).filter fun t => t.tokenPrefix = some (tokenPrefix token)
    match apiTokens.find? fun t => lib.verifyPassword token t.tokenHash with
    | none => .error credentialsException
    | some t =>
      if isExpired db t then .error credentialsException
      else
        match activeOwner db t with
        | some user => .ok user
        | none => .error credentialsException

/-- A row of an inactive account is passed over. -/
def verifyRows (token : String) : List ApiToken → Except Raise Account
  | [] => .error (.http 401 "Invalid token")
  | t :: ts =>
    if lib.verifyPassword token t.tokenHash then
      if isExpired db t then .error (.http 401 "Token expired")
      else
        match activeOwner db t with
        | some user => .ok user
        | none => verifyRows token ts
    else verifyRows token ts

def verifyAuth (request : Request) : Except Raise Account := do
  let token ← verifyAuthToken request
  match jwtUser settings lib db token with
  | some user => .ok user
  | none => verifyRows lib db token (usable db)

def resolveUserFromToken (token : String) : Except Raise (Option Account) :=
  match jwtUser settings lib db token with
  | some user => .ok (some user)
  | none =>
    match (usable db).find? fun t => lib.verifyPassword token t.tokenHash with
    | none => .ok none
    | some t => if isExpired db t then .error (.http 401 "Token expired") else .ok (activeOwner db t)

/-- Over a WebSocket, whether the account is active is not asked. -/
def validateToken (token : String) : Option Account :=
  if token = "" then none else jwtAccount settings lib db token

/-- Whom each way in takes the credential for, with a request that carries it. -/
structure Agree (token : String) : Prop where
  verifyAuth : (verifyAuth settings lib db (bearer token)).toOption =
    (securityScheme (bearer token) >>= getAuthContext settings lib db).toOption
  resolve : (extractToken (bearer token) >>= resolveUserFromToken settings lib db).toOption.join =
    (securityScheme (bearer token) >>= getAuthContext settings lib db).toOption
  validate : (lib.decode token).isSome → validateToken settings lib db token =
    (securityScheme (bearer token) >>= getAuthContext settings lib db).toOption

def matching (token : String) : List ApiToken := (usable db).filter fun t => lib.verifyPassword token t.tokenHash

/-- The account that a row alone stands for. -/
def stands (t : ApiToken) : Option Account := if isExpired db t then none else activeOwner db t

def dormant (t : ApiToken) : Bool := !isExpired db t && (activeOwner db t).isNone

/-- The account of a signed token is active; of the rows that match any other
credential, the first that stores its prefix stands for whom the first of all
stands, none that stands for anyone comes after dormant ones alone, and none is
matched by a signed token. -/
def Concordant (token : String) : Prop :=
  match jwtAccount settings lib db token with
  | some user => user.isActive
  | none =>
    ((matching lib db token).find? fun t => t.tokenPrefix = some (tokenPrefix token)).bind (stands db) =
        (matching lib db token).head?.bind (stands db) ∧
      (∀ t ∈ ((matching lib db token).dropWhile (dormant db)).head?, (stands db t).isSome →
        (matching lib db token).head? = some t) ∧
      ((lib.decode token).isSome → (matching lib db token).head?.bind (stands db) = none)

end Lookup

/-! A credential sent as a bearer token reaches every way in. -/

theorem splitScheme_bearer (token : String) : splitScheme ("Bearer " ++ token) = some ("Bearer", token) := by
  have hlist : ("Bearer " ++ token).toList = ['B', 'e', 'a', 'r', 'e', 'r', ' '] ++ token.toList := by
    rw [String.toList_append]
    rfl
  rw [splitScheme, hlist]
  simp

theorem authorization_bearer (token : String) :
    (bearer token).authorization.filter (· ≠ "") = some ("Bearer " ++ token) := by
  refine Option.filter_some_pos (decide_eq_true fun hempty => ?_)
  have hlength := congrArg String.length hempty
  rw [String.length_append] at hlength
  exact absurd hlength (by simp)

theorem securityScheme_bearer (token : String) : securityScheme (bearer token) = .ok token := by
  rw [securityScheme, authorization_bearer]
  dsimp only
  rw [splitScheme_bearer, Option.getD_some]
  dsimp only
  exact if_neg (by decide)

theorem verifyAuthToken_bearer (token : String) : verifyAuthToken (bearer token) = .ok token := by
  rw [verifyAuthToken, bearer]
  dsimp only
  rw [Option.getD_some, splitScheme_bearer]
  exact if_neg (by decide)

theorem extractToken_bearer (token : String) : extractToken (bearer token) = .ok token := by
  rw [extractToken, extractTokenOptional, authorization_bearer]
  dsimp only
  rw [splitScheme_bearer]
  dsimp only
  rw [if_pos (by decide)]

/-! What each way in makes of the rows. -/

section Rows

variable (settings : AuthSettings) (lib : Libraries) (db : Database) (token : String)

theorem getAuthContext_toOption :
    (getAuthContext settings lib db token).toOption = (jwtUser settings lib db token).or
      (((matching lib db token).find? fun t => t.tokenPrefix = some (tokenPrefix token)).bind (stands db)) := by
  have hfind : ((usable db).filter fun t => t.tokenPrefix = some (tokenPrefix token)).find?
      (fun t => lib.verifyPassword token t.tokenHash) =
        (matching lib db token).find? fun t => t.tokenPrefix = some (tokenPrefix token) := by
    rw [matching, List.find?_filter, List.find?_filter]
    exact congrArg (List.find? · (usable db)) (funext fun t => decide_eq_decide.mpr and_comm)
  rw [getAuthContext]
  dsimp only
  rw [hfind]
  cases jwtUser settings lib db token with
  | some user => rfl
  | none =>
      cases (matching lib db token).find? fun t => t.tokenPrefix = some (tokenPrefix token) with
      | none => rfl
      | some t =>
          dsimp only
          rw [Option.none_or, Option.bind_some, stands]
          split
          · rfl
          · cases activeOwner db t <;> rfl

theorem verifyRows_toOption (rows : List ApiToken) :
    (verifyRows lib db token rows).toOption =
      (((rows.filter fun t => lib.verifyPassword token t.tokenHash).dropWhile (dormant db)).head?).bind (stands db) := by
  induction rows with
  | nil => rfl
  | cons t ts ih =>
      rw [verifyRows, List.filter_cons]
      split
      · rw [List.dropWhile_cons]
        by_cases hexpired : isExpired db t
        · simp [hexpired, dormant, stands]
          rfl
        · cases howner : activeOwner db t with
          | none => simp [hexpired, howner, dormant, ih]
          | some user =>
              simp [hexpired, howner, dormant, stands]
              rfl
      · exact ih

theorem resolve_join :
    (resolveUserFromToken settings lib db token).toOption.join = (jwtUser settings lib db token).or
      ((matching lib db token).head?.bind (stands db)) := by
  rw [matching, List.head?_filter, resolveUserFromToken]
  cases jwtUser settings lib db token with
  | some user => rfl
  | none =>
      cases (usable db).find? fun t => lib.verifyPassword token t.tokenHash with
      | none => rfl
      | some t =>
          dsimp only
          rw [Option.none_or, Option.bind_some, stands]
          split <;> rfl

end Rows

theorem first_awake_iff {db : Database} {rows : List ApiToken} :
    ((rows.dropWhile (dormant db)).head?.bind (stands db) = rows.head?.bind (stands db)) ↔
      ∀ t ∈ (rows.dropWhile (dormant db)).head?, (stands db t).isSome → rows.head? = some t := by
  cases rows with
  | nil => exact iff_of_true rfl fun _ h => nomatch h
  | cons first rest =>
      rw [List.dropWhile_cons]
      by_cases hdormant : dormant db first
      · rw [if_pos hdormant, List.head?_cons, Option.bind_some]
        have hfirst : stands db first = none := by
          obtain ⟨hexpired, howner⟩ := Bool.and_eq_true_iff.mp hdormant
          rw [stands, if_neg (by simpa using hexpired), Option.isNone_iff_eq_none.mp howner]
        rw [hfirst, Option.bind_eq_none_iff]
        refine forall_congr' fun t => forall_congr' fun ht => ?_
        constructor
        · intro hnone hsome
          rw [hnone] at hsome
          exact nomatch hsome
        · intro h
          by_contra hsome
          have heq := Option.some.inj (h (Option.isSome_iff_ne_none.mpr hsome))
          exact hsome (heq ▸ hfirst)
      · rw [if_neg hdormant]
        exact iff_of_true rfl fun t ht _ => ht

theorem isActive_of_stands {db : Database} {t : ApiToken} {user : Account} (h : stands db t = some user) :
    user.isActive = true := by
  rw [stands] at h
  split at h
  · exact nomatch h
  · exact (Option.filter_eq_some_iff.mp h).2

theorem isJwt_of_jwtAccount {settings : AuthSettings} {lib : Libraries} {db : Database} {token : String} {user : Account}
    (h : jwtAccount settings lib db token = some user) : (lib.decode token).isSome := by
  obtain ⟨jwt, hjwt, -⟩ := Option.bind_eq_some_iff.mp h
  rw [(Option.filter_eq_some_iff.mp hjwt).1]
  rfl

/-- The ways in agree on a credential exactly where the rows that match it are
no reason to differ. -/
theorem entry_points_agree_iff (settings : AuthSettings) (lib : Libraries) (db : Database) (token : String) :
    Agree settings lib db token ↔ Concordant settings lib db token := by
  have hauth : (securityScheme (bearer token) >>= getAuthContext settings lib db).toOption =
      (jwtUser settings lib db token).or
        (((matching lib db token).find? fun t => t.tokenPrefix = some (tokenPrefix token)).bind (stands db)) := by
    rw [securityScheme_bearer]
    exact getAuthContext_toOption settings lib db token
  have hverify : (verifyAuth settings lib db (bearer token)).toOption = (jwtUser settings lib db token).or
      (((matching lib db token).dropWhile (dormant db)).head?.bind (stands db)) := by
    rw [verifyAuth, verifyAuthToken_bearer]
    dsimp only [bind, Except.bind]
    cases jwtUser settings lib db token with
    | some user => rfl
    | none => exact verifyRows_toOption lib db token (usable db)
  have hresolve : (extractToken (bearer token) >>= resolveUserFromToken settings lib db).toOption.join =
      (jwtUser settings lib db token).or ((matching lib db token).head?.bind (stands db)) := by
    rw [extractToken_bearer]
    exact resolve_join settings lib db token
  have hvalidate : (lib.decode token).isSome → validateToken settings lib db token = jwtAccount settings lib db token := by
    intro hjwt
    refine if_neg fun hempty => ?_
    rw [hempty, lib.decode_empty] at hjwt
    exact nomatch hjwt
  have hagree : Agree settings lib db token ↔ _ ∧ _ ∧ _ :=
    ⟨fun h => ⟨h.verifyAuth, h.resolve, h.validate⟩, fun h => ⟨h.1, h.2.1, h.2.2⟩⟩
  rw [hagree, hauth, hverify, hresolve, Concordant]
  cases haccount : jwtAccount settings lib db token with
  | some user =>
      have hjwt := isJwt_of_jwtAccount haccount
      rw [haccount] at hvalidate
      by_cases hactive : user.isActive
      · have huser : jwtUser settings lib db token = some user := by
          rw [jwtUser, haccount]
          exact Option.filter_some_pos hactive
        rw [huser]
        exact iff_of_true ⟨rfl, rfl, hvalidate⟩ hactive
      · -- The WebSocket takes an account that no other way in can come to.
        have huser : jwtUser settings lib db token = none := by
          rw [jwtUser, haccount]
          exact Option.filter_some_neg (by simpa using hactive)
        refine iff_of_false (fun h => hactive ?_) hactive
        have hsame := h.2.2 hjwt
        rw [hvalidate hjwt, huser, Option.none_or] at hsame
        obtain ⟨t, -, hstands⟩ := Option.bind_eq_some_iff.mp hsame.symm
        exact isActive_of_stands hstands
  | none =>
      have huser : jwtUser settings lib db token = none := by
        rw [jwtUser, haccount]
        rfl
      rw [huser, Option.none_or, Option.none_or, Option.none_or]
      constructor
      · rintro ⟨hawake, hfirst, hsocket⟩
        refine ⟨hfirst.symm, first_awake_iff.mp (hawake.trans hfirst.symm), fun hjwt => ?_⟩
        rw [hfirst, ← hsocket hjwt, hvalidate hjwt, haccount]
      · rintro ⟨hstored, hawake, hsocket⟩
        refine ⟨(first_awake_iff.mpr hawake).trans hstored.symm, hstored.symm, fun hjwt => ?_⟩
        rw [hvalidate hjwt, haccount, hstored, hsocket hjwt]

section House

def oldToken : ApiToken := ⟨1, "nukelab_secret", none, none, none, true⟩

/-- Where no signed token is at hand, and a hash is the text itself. -/
def plainLibraries : Libraries where
  decode := fun _ => none
  decode_empty := rfl
  verifyPassword := fun token hash => token = hash

/-- The proxy's check lets in what the API refuses. -/
theorem token_without_prefix :
    ¬ ∀ (settings : AuthSettings) (lib : Libraries) (db : Database) (token : String), Agree settings lib db token := by
  intro h
  have hverify := (h defaultSettings plainLibraries ⟨opened house day, [oldToken]⟩ "nukelab_secret").verifyAuth
  revert hverify
  decide +kernel

end House

end NukeLab.EntryPoints
