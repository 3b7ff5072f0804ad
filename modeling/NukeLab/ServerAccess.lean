import NukeLab.ContainerNames
import NukeLab.Sessions

namespace NukeLab.ServerAccess

open Records State Sessions

structure ServerAuthSettings where
  appName : String
  serverAuthEnabled : Bool
  serverAuthTokenTtl : Int
  maxTokensPerMinute : Nat

inductive ClaimValue
  | text (value : String)
  | moment (value : Instant)
  deriving DecidableEq

def ClaimValue.wire : ClaimValue → ClaimValue
  | .text value => .text value
  | .moment t => .moment (numericDate t)

abbrev Claims := List (String × ClaimValue)

namespace Claims

def get (claims : Claims) (name : String) : Option ClaimValue := claims.lookup name

def put (claims : Claims) (name : String) (value : ClaimValue) : Claims :=
  if claims.any fun c => c.1 = name then claims.map fun c => if c.1 = name then (name, value) else c
  else claims ++ [(name, value)]

def update (claims custom : Claims) : Claims := custom.foldl (fun claims c => put claims c.1 c.2) claims

def wire (claims : Claims) : Claims :=
  claims.map fun c => (c.1, c.2.wire)

def expiry (claims : Claims) : Option Instant :=
  match claims.get "exp" with
  | some (.moment t) => some (numericDate t)
  | _ => none

end Claims

def ClaimValue.Truthy : ClaimValue → Prop
  | .text value => value ≠ ""
  | .moment _ => True

structure DecodeOptions where
  require : List String
  verifyExp : Bool
  verifyIat : Bool
  audience : Option String

structure Jwt (τ : Type) where
  encode : Claims → τ
  decode : τ → DecodeOptions → Instant → Except String Claims

/-- A row of the table in which tokens are recorded as they are issued. -/
structure ServerAccessToken where
  id : Uuid
  serverId : Uuid
  userId : Uuid
  jti : String
  keyId : String
  issuedAt : Instant
  expiresAt : Instant
  clientIp : Option String
  userAgent : Option String
  tokenType : String

/-- One request for a token, with the identifiers drawn for it. -/
structure TokenRequest where
  serverId : Uuid
  userId : Uuid
  clientIp : Option String
  userAgent : Option String
  tokenType : String
  customClaims : Claims
  jti : Uuid
  rowId : Uuid

def checkRateLimit (settings : ServerAuthSettings) (rows : List ServerAccessToken) (userId serverId : Uuid) (now : Instant) :
    Except String Unit :=
  let count := rows.countP fun row => row.userId = userId ∧ row.serverId = serverId ∧ row.issuedAt ≥ now - minute
  if count ≥ settings.maxTokensPerMinute then
    .error ("Rate limit exceeded: maximum " ++ toString settings.maxTokensPerMinute ++ " tokens per minute per server")
  else .ok ()

def claimsFor (settings : ServerAuthSettings) (keyId : String) (request : TokenRequest) (now : Instant) : Claims :=
  let expires := now + settings.serverAuthTokenTtl * second
  let claims : Claims :=
    [("iss", .text settings.appName), ("sub", .text (uuidText request.userId)), ("aud", .text (uuidText request.serverId)),
      ("jti", .text (uuidText request.jti)), ("kid", .text keyId), ("iat", .moment now), ("exp", .moment expires),
      ("type", .text request.tokenType), ("ver", .text "1")]
  let claims :=
    match request.clientIp with
    | some ip => if ip = "" then claims else claims.put "client_ip" (.text ip)
    | none => claims
  claims.update request.customClaims

variable {τ : Type}

def generateAccessToken (jwt : Jwt τ) (settings : ServerAuthSettings) (keyId : String) (rows : List ServerAccessToken)
    (request : TokenRequest) (now : Instant) : Except String (τ × List ServerAccessToken) := do
  if ¬ settings.serverAuthEnabled then throw "Server authentication is disabled"
  checkRateLimit settings rows request.userId request.serverId now
  let row : ServerAccessToken :=
    { id := request.rowId, serverId := request.serverId, userId := request.userId, jti := uuidText request.jti,
      keyId := keyId, issuedAt := now, expiresAt := now + settings.serverAuthTokenTtl * second,
      clientIp := request.clientIp, userAgent := request.userAgent, tokenType := request.tokenType }
  return (jwt.encode (claimsFor settings keyId request now), rows ++ [row])

def decodeOptions : DecodeOptions := ⟨["exp", "iat", "sub", "aud", "jti"], true, true, none⟩

def validateToken (jwt : Jwt τ) (settings : ServerAuthSettings) (token : τ) (expectedServerId : Option Uuid) (now : Instant) :
    Except String Claims := do
  if ¬ settings.serverAuthEnabled then throw "Server authentication is disabled"
  let claims ← jwt.decode token decodeOptions now
  match expectedServerId with
  | some serverId =>
    if claims.get "aud" ≠ some (.text (uuidText serverId)) then throw "Token not valid for this server"
  | none => pure ()
  return claims

/-- What the library documents: a token whose signature verifies yields what was
signed, and one with an audience is refused where none is expected. -/
structure Documented (jwt : Jwt τ) : Prop where
  faithful : ∀ claims options now decoded, jwt.decode (jwt.encode claims) options now = .ok decoded → decoded = claims.wire
  audience : ∀ (claims : Claims) options now value decoded, claims.get "aud" = some value → value.Truthy →
    options.audience = none → jwt.decode (jwt.encode claims) options now ≠ .ok decoded

/-- A token issued with these claims for a server is good for that server until
it expires, and for no other. -/
structure RoundTrip (jwt : Jwt τ) (settings : ServerAuthSettings) (token : τ) (claims : Claims) (serverId : Uuid)
    (issued : Instant) : Prop where
  accepted : ∀ expiry ∈ claims.expiry, ∀ now, issued ≤ now → now < expiry →
    validateToken jwt settings token (some serverId) now = .ok claims.wire
  refused : ∀ other now accepted, other ≠ serverId → validateToken jwt settings token (some other) now ≠ .ok accepted
  expires : ∀ expiry ∈ claims.expiry, ∀ now accepted, expiry ≤ now →
    validateToken jwt settings token (some serverId) now ≠ .ok accepted

namespace Claims

theorem get_append (claims : Claims) (name other : String) (value : ClaimValue) :
    Claims.get (claims ++ [(name, value)]) other = (claims.get other).or (if other = name then some value else none) := by
  rw [get, List.lookup_append, List.lookup_cons, List.lookup_nil, get]
  by_cases h : other = name
  · rw [if_pos h, h, beq_self_eq_true]
  · rw [if_neg h, beq_false_of_ne h]

theorem get_map_ne {claims : Claims} (name : String) (value : ClaimValue) {other : String} (h : other ≠ name) :
    Claims.get (claims.map fun c => if c.1 = name then (name, value) else c) other = claims.get other := by
  induction claims with
  | nil => rfl
  | cons c claims ih =>
      rw [get] at ih ⊢
      rw [List.map_cons, List.lookup_cons, ih, get, get, List.lookup_cons]
      by_cases hname : c.1 = name
      · rw [if_pos hname, hname, beq_false_of_ne h]
      · rw [if_neg hname]

theorem get_map_self {claims : Claims} {name : String} (value : ClaimValue) (h : claims.any fun c => c.1 = name) :
    Claims.get (claims.map fun c => if c.1 = name then (name, value) else c) name = some value := by
  induction claims with
  | nil => cases h
  | cons c claims ih =>
      rw [get] at ih ⊢
      rw [List.map_cons, List.lookup_cons]
      by_cases hname : c.1 = name
      · rw [if_pos hname, beq_self_eq_true]
      · rw [if_neg hname, beq_false_of_ne fun heq => hname heq.symm]
        rw [List.any_cons, decide_eq_false hname, Bool.false_or] at h
        exact ih h

@[simp] theorem get_put (claims : Claims) (name other : String) (value : ClaimValue) :
    (claims.put name value).get other = if other = name then some value else claims.get other := by
  rw [put]
  by_cases hother : other = name
  · rw [if_pos hother, hother]
    split
    next hany => exact get_map_self value hany
    next hany =>
      have hnone : claims.get name = none := by
        apply List.lookup_eq_none_iff.mpr
        intro c hc
        by_contra heq
        have hname : c.1 = name := (beq_iff_eq.mp (by simpa using heq)).symm
        exact hany (List.any_eq_true.mpr ⟨c, hc, decide_eq_true hname⟩)
      rw [get_append, hnone, if_pos rfl]
      rfl
  · rw [if_neg hother]
    split
    · exact get_map_ne name value hother
    · rw [get_append, if_neg hother, Option.or_none]

theorem get_update (claims custom : Claims) (name : String) :
    (claims.update custom).get name = (Claims.get custom.reverse name).or (claims.get name) := by
  induction custom generalizing claims with
  | nil => rfl
  | cons c custom ih =>
      have hstep : (claims.update (c :: custom)).get name = ((claims.put c.1 c.2).update custom).get name := rfl
      rw [hstep, ih, List.reverse_cons, get_append, get_put, Option.or_assoc]
      by_cases hname : name = c.1
      · rw [if_pos hname, if_pos hname, Option.some_or]
      · rw [if_neg hname, if_neg hname, Option.none_or]

theorem get_wire (claims : Claims) (name : String) : claims.wire.get name = (claims.get name).map ClaimValue.wire := by
  induction claims with
  | nil => rfl
  | cons c claims ih =>
      rw [wire, get] at ih ⊢
      rw [List.map_cons, List.lookup_cons, get, List.lookup_cons, ih]
      cases name == c.1 <;> rfl

end Claims

theorem uuidText_ne_empty (u : Uuid) : uuidText u ≠ "" := by
  intro h
  have hchars := ContainerNames.uuidText_toList u
  rw [h] at hchars
  exact List.cons_ne_nil _ _ hchars.symm

variable {jwt : Jwt τ} {settings : ServerAuthSettings} {keyId : String} {request : TokenRequest}

/-- What a token says where the request does not say it in its place. -/
theorem get_claimsFor (now : Instant) {name : String} {value : ClaimValue} (hip : name ≠ "client_ip")
    (h : Claims.get
      [("iss", .text settings.appName), ("sub", .text (uuidText request.userId)), ("aud", .text (uuidText request.serverId)),
        ("jti", .text (uuidText request.jti)), ("kid", .text keyId), ("iat", .moment now),
        ("exp", .moment (now + settings.serverAuthTokenTtl * second)), ("type", .text request.tokenType),
        ("ver", .text "1")] name = some value) :
    (claimsFor settings keyId request now).get name = (Claims.get request.customClaims.reverse name).or (some value) := by
  rw [claimsFor, Claims.get_update]
  congr 1
  split
  · split
    · exact h
    · rw [Claims.get_put, if_neg hip, h]
  · exact h

theorem isSome_aud (now : Instant) : ((claimsFor settings keyId request now).get "aud").isSome := by
  have hne : "aud" ≠ "client_ip" := by decide
  rw [get_claimsFor now hne rfl, Option.isSome_or, Option.isSome_some, Bool.or_true]

/-- Whatever its audience is, no token of the service is accepted for a server. -/
theorem validate_never (hjwt : Documented jwt) {claims : Claims} (haud : (claims.get "aud").isSome) (serverId : Uuid)
    (now : Instant) (accepted : Claims) :
    validateToken jwt settings (jwt.encode claims) (some serverId) now ≠ .ok accepted := by
  intro h
  rw [validateToken] at h
  split at h
  · cases h
  · cases hdecode : jwt.decode (jwt.encode claims) decodeOptions now with
    | error e =>
        rw [hdecode] at h
        cases h
    | ok decoded =>
        obtain ⟨aud, haud⟩ := Option.isSome_iff_exists.mp haud
        by_cases htruthy : aud.Truthy
        · exact hjwt.audience claims decodeOptions now aud _ haud htruthy rfl hdecode
        · rw [hdecode] at h
          obtain rfl := hjwt.faithful _ _ _ _ hdecode
          -- the library lets an empty audience pass; the service's own check does not
          cases aud with
          | moment t => exact htruthy trivial
          | text value =>
              obtain rfl : value = "" := not_not.mp htruthy
              have hwire : claims.wire.get "aud" ≠ some (.text (uuidText serverId)) := by
                rw [Claims.get_wire, haud]
                intro heq
                cases uuidText_ne_empty serverId (by injection heq with heq; injection heq with heq; exact heq.symm)
              simp only [bind, Except.bind, if_pos hwire] at h
              cases h

/-- A token requested so is no good from the start: it has expired, or it never says
when it does. -/
def BornExpired (settings : ServerAuthSettings) (request : TokenRequest) (now : Instant) : Prop :=
  match Claims.get request.customClaims.reverse "exp" with
  | some (.moment t) => numericDate t ≤ now
  | some (.text _) => True
  | none => settings.serverAuthTokenTtl ≤ 0

theorem numericDate_lifetime_le (now : Instant) (ttl : Int) : numericDate (now + ttl * second) ≤ now ↔ ttl ≤ 0 := by
  have h (n k : Int) : n / 1000000 * 1000000 + k * 1000000 ≤ n ↔ k ≤ 0 := by omega
  rw [numericDate_add]
  exact h now ttl

theorem bornExpired_iff (now : Instant) :
    BornExpired settings request now ↔ ∀ expiry ∈ (claimsFor settings keyId request now).expiry, expiry ≤ now := by
  have hne : "exp" ≠ "client_ip" := by decide
  rw [Claims.expiry, get_claimsFor now hne rfl, BornExpired]
  cases Claims.get request.customClaims.reverse "exp" with
  | none => exact (numericDate_lifetime_le now _).symm.trans (by simp)
  | some value =>
      cases value with
      | text value => simp
      | moment t => simp

theorem roundTrip_iff_bornExpired (hjwt : Documented jwt) {rows rows' : List ServerAccessToken} {now : Instant} {token : τ}
    (h : generateAccessToken jwt settings keyId rows request now = .ok (token, rows')) :
    RoundTrip jwt settings token (claimsFor settings keyId request now) request.serverId now ↔
      BornExpired settings request now := by
  have htoken : token = jwt.encode (claimsFor settings keyId request now) := by
    rw [generateAccessToken] at h
    split at h
    · cases h
    · cases hlimit : checkRateLimit settings rows request.userId request.serverId now with
      | error e =>
          rw [hlimit] at h
          cases h
      | ok =>
          rw [hlimit] at h
          cases h
          rfl
  subst htoken
  have hnever : ∀ serverId t accepted,
      validateToken jwt settings (jwt.encode (claimsFor settings keyId request now)) (some serverId) t ≠ .ok accepted :=
    validate_never hjwt (isSome_aud now)
  rw [bornExpired_iff]
  constructor
  · intro hround expiry hexpiry
    by_contra hlive
    exact hnever _ _ _ (hround.accepted expiry hexpiry now le_rfl (not_le.mp hlive))
  · intro hborn
    exact
      { accepted := fun expiry hexpiry t hissued ht =>
          absurd (hborn expiry hexpiry) (not_le.mpr (lt_of_le_of_lt hissued ht))
        refused := fun other t accepted _ => hnever other t accepted
        expires := fun _ _ t accepted _ => hnever _ t accepted }

def defaultSettings : ServerAuthSettings := ⟨"NukeLab", true, 300, 10⟩

def visit : TokenRequest := ⟨1, 2, some "10.0.0.9", none, "session", [], 3, 4⟩

/-- The library for one key, where a signed text is the claims themselves. -/
def pyJwt : Jwt Claims where
  encode := Claims.wire
  decode claims options now :=
    match options.require.find? fun name => (claims.get name).isNone with
    | some name => .error ("Token is missing the \"" ++ name ++ "\" claim")
    | none =>
      match claims.get "iat", claims.get "exp" with
      | some (.moment iat), some (.moment exp) =>
        if options.verifyIat ∧ iat > now then .error "The token is not yet valid (iat)"
        else if options.verifyExp ∧ exp ≤ now then .error "Signature has expired"
        else
          match options.audience, claims.get "aud" with
          | none, none => .ok claims
          | none, some aud => if aud = .text "" then .ok claims else .error "Invalid audience"
          | some _, none => .error "Token is missing the \"aud\" claim"
          | some audience, some aud => if aud = .text audience then .ok claims else .error "Audience doesn't match"
      | _, _ => .error "Issued At claim (iat) must be an integer."

theorem pyJwt_decode_ok {claims decoded : Claims} {options : DecodeOptions} {now : Instant}
    (h : pyJwt.decode claims options now = .ok decoded) :
    decoded = claims ∧ ∀ aud, claims.get "aud" = some aud → options.audience = none → aud = .text "" := by
  rw [pyJwt] at h
  dsimp only at h
  split at h
  · cases h
  · split at h
    · split at h
      · cases h
      · split at h
        · cases h
        · split at h
          next haud =>
            cases h
            refine ⟨rfl, fun aud h _ => ?_⟩
            rw [haud] at h
            cases h
          next heq haud =>
            split at h
            next hempty =>
              cases h
              refine ⟨rfl, fun aud h _ => ?_⟩
              rw [haud] at h
              cases h
              exact hempty
            · cases h
          · cases h
          next audience _ heq _ =>
            split at h
            · cases h
              refine ⟨rfl, fun _ _ hnone => ?_⟩
              rw [heq] at hnone
              cases hnone
            · cases h
    · cases h

theorem documented_pyJwt : Documented pyJwt where
  faithful _ _ _ _ h := (pyJwt_decode_ok h).1
  audience claims options now value decoded haud htruthy hnone h := by
    have hwire : claims.wire.get "aud" = some value.wire := by
      rw [Claims.get_wire, haud]
      rfl
    have hempty := (pyJwt_decode_ok h).2 _ hwire hnone
    cases value with
    | text value =>
        injection hempty with hempty
        exact htruthy hempty
    | moment t => cases hempty

theorem roundTrip_of_lifetime_zero :
    RoundTrip pyJwt { defaultSettings with serverAuthTokenTtl := 0 }
      (claimsFor { defaultSettings with serverAuthTokenTtl := 0 } "key" visit 0).wire
      (claimsFor { defaultSettings with serverAuthTokenTtl := 0 } "key" visit 0) 1 0 :=
  (@roundTrip_iff_bornExpired Claims pyJwt _ "key" visit documented_pyJwt [] [_] 0 _ rfl).mpr le_rfl

/-- With the default settings, a token is refused by the server it is for. -/
theorem own_server_refuses :
    ¬ ∀ (τ : Type) (jwt : Jwt τ) (settings : ServerAuthSettings) (keyId : String) (rows rows' : List ServerAccessToken)
      (request : TokenRequest) (now : Instant) (token : τ), Documented jwt →
      generateAccessToken jwt settings keyId rows request now = .ok (token, rows') →
      RoundTrip jwt settings token (claimsFor settings keyId request now) request.serverId now := by
  intro h
  have hround := h _ pyJwt defaultSettings "key" [] [_] visit 0 _ documented_pyJwt rfl
  exact validate_never documented_pyJwt (isSome_aud 0) 1 0 _ (hround.accepted (300 * second) rfl 0 le_rfl (by decide))

end NukeLab.ServerAccess
