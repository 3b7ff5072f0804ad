import NukeLab.Addresses
import NukeLab.Records

namespace NukeLab.AuthSidecar

open Addresses Records

structure Config where
  serverId : String
  authEnabled : Bool
  algorithm : String
  tokenHeader : String
  tokenCookie : String
  tokenQueryParam : String
  rateLimitEnabled : Bool
  rateLimitRequests : Int
  rateLimitWindow : Int

/-- A request as the server hands it on: a header or a query parameter that is
not there reads as empty, and of several the first counts. -/
structure Request where
  remoteAddr : String
  header : String → String
  query : String → String
  cookie : String → Option String

def isSpace (c : Char) : Bool :=
  let n := c.toNat
  9 ≤ n && n ≤ 13 || n == 32 || n == 0x85 || n == 0xa0 || n == 0x1680 || 0x2000 ≤ n && n ≤ 0x200a || n == 0x2028 ||
    n == 0x2029 || n == 0x202f || n == 0x205f || n == 0x3000

def trimSpace (cs : List Char) : String := String.ofList ((cs.dropWhile isSpace).reverse.dropWhile isSpace).reverse

def beforeLastColon (cs : List Char) : Option (List Char) :=
  if ':' ∈ cs then some ((cs.reverse.dropWhile (· ≠ ':')).drop 1).reverse else none

def splitHostPort (hostport : String) : Option String :=
  let cs := hostport.toList
  (beforeLastColon cs).bind fun before =>
    match cs with
    | '[' :: rest =>
      let host := rest.takeWhile (· ≠ ']')
      -- The bracket is closed, right before the last colon, and no other one stands anywhere.
      if before = '[' :: host ++ [']'] ∧ '[' ∉ rest ∧ ']' ∉ cs.drop before.length then some (String.ofList host) else none
    | _ => if ':' ∈ before ∨ '[' ∈ cs ∨ ']' ∈ cs then none else some (String.ofList before)

def extractClientIP (r : Request) : String :=
  if r.header "X-Forwarded-For" ≠ "" then trimSpace ((r.header "X-Forwarded-For").toList.takeWhile (· ≠ ','))
  else if r.header "X-Real-Ip" ≠ "" then trimSpace (r.header "X-Real-Ip").toList
  else (splitHostPort r.remoteAddr).getD r.remoteAddr

def isLoopback (ip : String) : Bool := (parseIP ip).any Address.isLoopback

structure Bucket where
  tokens : Int
  lastReset : Instant
  deriving DecidableEq

structure RateLimiter where
  buckets : String → Option Bucket
  requests : Int
  window : Int

def newRateLimiter (requests window : Int) : RateLimiter := ⟨fun _ => none, requests, window⟩

/-- The bucket as a request finds it, full where it is new or its window has passed. -/
def RateLimiter.refilled (rl : RateLimiter) (now : Instant) (ip : String) : Bucket :=
  let b := (rl.buckets ip).getD ⟨rl.requests, now⟩
  if now - b.lastReset > rl.window then ⟨rl.requests, now⟩ else b

def RateLimiter.put (rl : RateLimiter) (ip : String) (b : Bucket) : RateLimiter :=
  { rl with buckets := Function.update rl.buckets ip (some b) }

@[simp] theorem RateLimiter.put_self (rl : RateLimiter) (ip : String) (b : Bucket) : (rl.put ip b).buckets ip = some b :=
  Function.update_self _ _ _

theorem RateLimiter.put_of_ne (rl : RateLimiter) {ip key : String} (h : key ≠ ip) (b : Bucket) :
    (rl.put ip b).buckets key = rl.buckets key :=
  Function.update_of_ne h _ _

def RateLimiter.allow (rl : RateLimiter) (now : Instant) (ip : String) : Bool × RateLimiter :=
  let b := rl.refilled now ip
  if b.tokens ≤ 0 then (false, rl.put ip b) else (true, rl.put ip { b with tokens := b.tokens - 1 })

structure Sidecar where
  rateLimiter : Option RateLimiter
  lastActivity : Int

def newAuthSidecar (cfg : Config) : Sidecar where
  rateLimiter :=
    if cfg.rateLimitEnabled then some (newRateLimiter cfg.rateLimitRequests (cfg.rateLimitWindow * second)) else none
  lastActivity := 0

def Sidecar.recordActivity (a : Sidecar) (now : Instant) : Sidecar := { a with lastActivity := now / second }

/-- Whether the limiter lets a request pass, with loopback exempt. -/
def Sidecar.letsPass (a : Sidecar) (now : Instant) (clientIP : String) : Bool × Sidecar :=
  match a.rateLimiter with
  | none => (true, a)
  | some rl =>
    if isLoopback clientIP then (true, a)
    else ((rl.allow now clientIP).1, { a with rateLimiter := some (rl.allow now clientIP).2 })

/-- The token of the URI that the proxy was asked for, as it is written there. -/
def originalUriToken (param : String) (uri : List Char) : Option String :=
  if '?' ∈ uri then
    (((uri.dropWhile (· ≠ '?')).drop 1).splitOn '&').findSome? fun pair =>
      if '=' ∈ pair ∧ String.ofList (pair.takeWhile (· ≠ '=')) = param then
        some (String.ofList ((pair.dropWhile (· ≠ '=')).drop 1))
      else none
  else none

def authorizationToken (auth : String) : String :=
  if (auth.toList.take 7).map Char.toLower = "bearer ".toList then String.ofList (auth.toList.drop 7) else auth

def extractToken (cfg : Config) (r : Request) : String :=
  if r.query cfg.tokenQueryParam ≠ "" then r.query cfg.tokenQueryParam
  else
    match originalUriToken cfg.tokenQueryParam (r.header "X-Original-Uri").toList with
    | some token => token
    | none =>
      match r.cookie cfg.tokenCookie with
      | some value => value
      | none => authorizationToken (r.header cfg.tokenHeader)

/-- The claims of a token: those read as text where they are text, and the time
after which it has expired. -/
structure Claims where
  aud : Option String
  sub : Option String
  clientIp : Option String
  type : Option String
  exp : Option Instant
  deriving DecidableEq

inductive TimeError
  | tokenExpired
  | tokenNotValidYet
  | invalidType
  deriving DecidableEq

/-- The library: the claims of a token whose signature verifies under the
configured key by that algorithm, the time claims that fail, all of them, and
their text. -/
structure Jwt where
  verify : String → String → Except String Claims
  validate : Claims → Instant → List TimeError
  expired_iff : ∀ claims now, .tokenExpired ∈ validate claims now ↔ ∃ exp ∈ claims.exp, exp ≤ now
  describe : List TimeError → String

structure JwtError where
  errors : List TimeError
  text : String

structure ValidationResult where
  valid : Bool
  userId : String
  serverId : String
  tokenType : String
  error : String
  expiry : Int
  expiredAuthentic : Bool

def invalid (error serverId : String) : ValidationResult := ⟨false, "", serverId, "", error, 0, false⟩

inductive Endpoint
  | validate
  | auth
  deriving DecidableEq

/-- The address that the limiter goes by: one handler takes it from the headers,
the other from the connection. -/
def limiterIP : Endpoint → Request → String
  | .validate, r => if extractClientIP r = "" then r.remoteAddr else extractClientIP r
  | .auth, r =>
    let host := (splitHostPort r.remoteAddr).getD ""
    if host = "" then r.remoteAddr else host

variable (cfg : Config) (jwt : Jwt)

/-- Time claims are looked at once the signature has been verified. -/
def parse (now : Instant) (tokenString : String) : Except JwtError Claims :=
  match jwt.verify cfg.algorithm tokenString with
  | .error text => .error ⟨[], text⟩
  | .ok claims =>
    let errors := jwt.validate claims now
    if errors = [] then .ok claims else .error ⟨errors, jwt.describe errors⟩

def isAuthenticToken (tokenString : String) : Bool :=
  match jwt.verify cfg.algorithm tokenString with
  | .error _ => false
  | .ok claims => claims.aud.any fun aud => aud ≠ "" ∧ aud = cfg.serverId

def validateToken (now : Instant) (tokenString clientIP : String) : ValidationResult :=
  if ¬ cfg.authEnabled then ⟨true, "", "", "", "auth_disabled", 0, false⟩
  else
    match parse cfg jwt now tokenString with
    | .error e =>
      if .tokenExpired ∈ e.errors ∧ isAuthenticToken cfg jwt tokenString then
        { invalid "token_expired" cfg.serverId with expiredAuthentic := true }
      else invalid e.text ""
    | .ok claims =>
      match claims.aud.filter (· ≠ "") with
      | none => invalid "missing_audience" ""
      | some aud =>
        if aud ≠ cfg.serverId then invalid "server_mismatch" aud
        else
          match claims.sub.filter (· ≠ "") with
          | none => invalid "missing_subject" ""
          | some sub =>
            if (claims.clientIp.filter (· ≠ "")).any (· ≠ clientIP) then invalid "ip_mismatch" aud
            else
              ⟨true, sub, aud, (claims.type.filter (· ≠ "")).getD "session", "",
                (claims.exp.map fun exp => exp / second).getD 0, false⟩

/-- A status, headers, and an error or what was found. -/
structure Response where
  status : Nat
  headers : List (String × String)
  error : Option String
  result : Option ValidationResult

def validateHandler (now : Instant) (r : Request) (a : Sidecar) : Response × Sidecar :=
  let (admitted, a) := a.letsPass now (limiterIP .validate r)
  if ¬ admitted then (⟨429, [], some "rate_limit_exceeded", none⟩, a)
  else
    let token := extractToken cfg r
    if token = "" then
      if cfg.authEnabled then (⟨401, [], some "missing_token", none⟩, a)
      else (⟨200, [("X-Auth-Status", "disabled")], none, none⟩, a.recordActivity now)
    else
      let result := validateToken cfg jwt now token (extractClientIP r)
      if ¬ result.valid then
        (⟨401, [("X-Auth-Error", result.error)], some result.error, none⟩,
          if result.expiredAuthentic then a.recordActivity now else a)
      else
        (⟨200, [("X-User-Id", result.userId), ("X-Server-Id", result.serverId), ("X-Token-Type", result.tokenType),
            ("X-Auth-Status", "valid")], none, some result⟩, a.recordActivity now)

def authRequestHandler (now : Instant) (r : Request) (a : Sidecar) : Response × Sidecar :=
  let (admitted, a) := a.letsPass now (limiterIP .auth r)
  if ¬ admitted then (⟨429, [], none, none⟩, a)
  else
    let token := extractToken cfg r
    if token = "" then
      if cfg.authEnabled then (⟨401, [], none, none⟩, a)
      else (⟨200, [("X-User-Id", "anonymous")], none, none⟩, a.recordActivity now)
    else
      let result := validateToken cfg jwt now token (extractClientIP r)
      if ¬ result.valid then (⟨401, [], none, none⟩, if result.expiredAuthentic then a.recordActivity now else a)
      else
        (⟨200, [("X-User-Id", result.userId), ("X-Server-Id", result.serverId), ("X-Token-Type", result.tokenType)],
            none, none⟩, a.recordActivity now)

def answer : Endpoint → Instant → Request → Sidecar → Response × Sidecar
  | .validate => validateHandler cfg jwt
  | .auth => authRequestHandler cfg jwt

end NukeLab.AuthSidecar
