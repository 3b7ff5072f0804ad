import NukeLab.AuthSidecar

namespace NukeLab.SidecarValidation

open Records AuthSidecar

variable (cfg : Config) (jwt : Jwt)

structure Genuine (tokenString : String) (claims : Claims) : Prop where
  signature : jwt.verify cfg.algorithm tokenString = .ok claims
  audience : claims.aud = some cfg.serverId

structure Vouched (r : Request) (claims : Claims) : Prop extends Genuine cfg jwt (extractToken cfg r) claims where
  subject : ∃ sub ∈ claims.sub, sub ≠ ""
  bound : ∀ ip ∈ claims.clientIp, ip ≠ "" → ip = extractClientIP r

def InDate (now : Instant) (claims : Claims) : Prop := ∀ exp ∈ claims.exp, now < exp

/-- What an answer must rest on: an allowed request on a token with every check
passed, and activity without one on a token that `Trusted` accepts and whose
date alone has passed; and past the limiter both handlers do the same. -/
structure Sound (Trusted : Request → Claims → Prop) (now : Instant) (r : Request) (a : Sidecar) : Prop where
  allowed : ∀ endpoint, (answer cfg jwt endpoint now r a).1.status = 200 → ∃ claims, Vouched cfg jwt r claims ∧ InDate now claims
  activity : ∀ endpoint, (answer cfg jwt endpoint now r a).2.lastActivity ≠ a.lastActivity →
    (answer cfg jwt endpoint now r a).1.status = 200 ∨ ∃ claims, Trusted r claims ∧ ¬ InDate now claims
  alike : ∀ endpoint other, (answer cfg jwt endpoint now r a).1.status ≠ 429 → (answer cfg jwt other now r a).1.status ≠ 429 →
    ((answer cfg jwt endpoint now r a).1.status = 200 ↔ (answer cfg jwt other now r a).1.status = 200) ∧
      (answer cfg jwt endpoint now r a).2.lastActivity = (answer cfg jwt other now r a).2.lastActivity

variable {cfg jwt} {now : Instant} {r : Request} {a : Sidecar} {tokenString clientIP : String}

theorem parse_ok {claims : Claims} (h : parse cfg jwt now tokenString = .ok claims) :
    jwt.verify cfg.algorithm tokenString = .ok claims ∧ InDate now claims := by
  unfold parse at h
  split at h
  · exact nomatch h
  · rename_i found hverify
    dsimp only at h
    split at h
    · rename_i hnone
      cases h
      refine ⟨hverify, fun exp hexp => not_le.mp fun hpast => ?_⟩
      have hexpired := (jwt.expired_iff claims now).mpr ⟨exp, hexp, hpast⟩
      rw [hnone] at hexpired
      exact nomatch hexpired
    · exact nomatch h

theorem isAuthenticToken_iff :
    isAuthenticToken cfg jwt tokenString = true ↔
      cfg.serverId ≠ "" ∧ ∃ claims, Genuine cfg jwt tokenString claims := by
  unfold isAuthenticToken
  split
  · rename_i text hverify
    refine iff_of_false (by decide) ?_
    rintro ⟨-, claims, hsignature, -⟩
    exact nomatch (hverify.symm.trans hsignature)
  · rename_i claims hverify
    rw [Option.any_eq_true]
    constructor
    · rintro ⟨aud, haud, h⟩
      obtain ⟨hne, rfl⟩ := of_decide_eq_true h
      exact ⟨hne, claims, hverify, haud⟩
    · rintro ⟨hne, found, hsignature, haudience⟩
      cases hverify.symm.trans hsignature
      exact ⟨cfg.serverId, haudience, decide_eq_true ⟨hne, rfl⟩⟩

theorem validateToken_expired (hauth : cfg.authEnabled)
    (h : (validateToken cfg jwt now tokenString clientIP).expiredAuthentic = true) :
    ∃ claims, Genuine cfg jwt tokenString claims ∧ ¬ InDate now claims := by
  unfold validateToken at h
  rw [if_neg (not_not.mpr hauth)] at h
  split at h
  · rename_i e he
    split at h
    · rename_i hexpired
      obtain ⟨-, claims, hgenuine⟩ := isAuthenticToken_iff.mp hexpired.2
      refine ⟨claims, hgenuine, fun hdate => ?_⟩
      rw [parse, hgenuine.signature] at he
      dsimp only at he
      split at he
      · exact nomatch he
      · cases he
        obtain ⟨exp, hexp, hpast⟩ := (jwt.expired_iff claims now).mp hexpired.1
        exact absurd (hdate exp hexp) (not_lt.mpr hpast)
    · exact nomatch h
  · split at h
    · exact nomatch h
    split at h
    · exact nomatch h
    split at h
    · exact nomatch h
    split at h
    · exact nomatch h
    · exact nomatch h

theorem validateToken_valid (hauth : cfg.authEnabled)
    (h : (validateToken cfg jwt now tokenString clientIP).valid = true) :
    ∃ claims, Genuine cfg jwt tokenString claims ∧ InDate now claims ∧ (∃ sub ∈ claims.sub, sub ≠ "") ∧
      ∀ ip ∈ claims.clientIp, ip ≠ "" → ip = clientIP := by
  unfold validateToken at h
  rw [if_neg (not_not.mpr hauth)] at h
  split at h
  · split at h <;> exact nomatch h
  · rename_i claims hparse
    obtain ⟨hverify, hdate⟩ := parse_ok hparse
    split at h
    · exact nomatch h
    · rename_i aud haud
      split at h
      · exact nomatch h
      · rename_i hserver
        split at h
        · exact nomatch h
        · rename_i sub hsub
          split at h
          · exact nomatch h
          · rename_i hbound
            obtain ⟨haud, -⟩ := Option.filter_eq_some_iff.mp haud
            obtain ⟨hsub, hne⟩ := Option.filter_eq_some_iff.mp hsub
            refine ⟨claims, ⟨hverify, haud.trans (congrArg some (not_not.mp hserver))⟩, hdate,
              ⟨sub, hsub, of_decide_eq_true hne⟩, fun ip hip hne => ?_⟩
            by_contra hother
            refine hbound ((Option.any_eq_true _ _).mpr ⟨ip, ?_, decide_eq_true hother⟩)
            exact Option.filter_eq_some_iff.mpr ⟨hip, decide_eq_true hne⟩

theorem letsPass_lastActivity (a : Sidecar) (now : Instant) (ip : String) :
    (a.letsPass now ip).2.lastActivity = a.lastActivity := by
  unfold Sidecar.letsPass
  split
  · rfl
  · split <;> rfl

def verdict (cfg : Config) (jwt : Jwt) (now : Instant) (r : Request) : ValidationResult :=
  validateToken cfg jwt now (extractToken cfg r) (extractClientIP r)

/-- An answer without the limiter: allowed or not, and counted as activity or not. -/
structure Follows (cfg : Config) (jwt : Jwt) (now : Instant) (r : Request) (a : Sidecar) (out : Response × Sidecar) : Prop where
  status : out.1.status = 200 ↔ extractToken cfg r ≠ "" ∧ (verdict cfg jwt now r).valid
  activity : out.2.lastActivity =
    if extractToken cfg r ≠ "" ∧ ((verdict cfg jwt now r).valid ∨ (verdict cfg jwt now r).expiredAuthentic) then now / second
    else a.lastActivity

/-- The three ways on from the limiter, which left the sidecar as `b`. -/
theorem follows_of_cases {b : Sidecar} {out : Response × Sidecar} (hb : b.lastActivity = a.lastActivity)
    (hmissing : extractToken cfg r = "" → out.1.status = 401 ∧ out.2 = b)
    (hinvalid : extractToken cfg r ≠ "" → (verdict cfg jwt now r).valid = false → out.1.status = 401 ∧
      out.2 = if (verdict cfg jwt now r).expiredAuthentic then b.recordActivity now else b)
    (hvalid : extractToken cfg r ≠ "" → (verdict cfg jwt now r).valid = true →
      out.1.status = 200 ∧ out.2 = b.recordActivity now) : Follows cfg jwt now r a out := by
  by_cases htoken : extractToken cfg r = ""
  · obtain ⟨hstatus, hstate⟩ := hmissing htoken
    refine ⟨?_, ?_⟩
    · rw [hstatus]
      exact iff_of_false (by decide) fun h => h.1 htoken
    · rw [hstate, hb, if_neg fun h => h.1 htoken]
  · cases hresult : (verdict cfg jwt now r).valid with
    | false =>
        obtain ⟨hstatus, hstate⟩ := hinvalid htoken hresult
        refine ⟨?_, ?_⟩
        · rw [hstatus]
          exact iff_of_false (by decide) fun h => Bool.false_ne_true (hresult.symm.trans h.2)
        · rw [hstate]
          by_cases hexpired : (verdict cfg jwt now r).expiredAuthentic
          · rw [if_pos hexpired, if_pos ⟨htoken, Or.inr hexpired⟩, Sidecar.recordActivity]
          · rw [if_neg hexpired, hb, if_neg]
            rintro ⟨-, h | h⟩
            · exact Bool.false_ne_true (hresult.symm.trans h)
            · exact hexpired h
    | true =>
        obtain ⟨hstatus, hstate⟩ := hvalid htoken hresult
        refine ⟨?_, ?_⟩
        · rw [hstatus]
          exact iff_of_true rfl ⟨htoken, hresult⟩
        · rw [hstate, if_pos ⟨htoken, Or.inl hresult⟩, Sidecar.recordActivity]

/-- Either the limiter answers, or the token decides. -/
theorem answer_follows (hauth : cfg.authEnabled) (endpoint : Endpoint) (now : Instant) (r : Request) (a : Sidecar) :
    (answer cfg jwt endpoint now r a).1.status = 429 ∧ (answer cfg jwt endpoint now r a).2.lastActivity = a.lastActivity ∨
      Follows cfg jwt now r a (answer cfg jwt endpoint now r a) := by
  have hsame := letsPass_lastActivity a now (limiterIP endpoint r)
  cases endpoint with
  | validate =>
      rw [answer, validateHandler]
      generalize a.letsPass now (limiterIP .validate r) = admission at hsame ⊢
      obtain ⟨admitted, b⟩ := admission
      cases admitted with
      | false => exact Or.inl ⟨rfl, hsame⟩
      | true =>
          refine Or.inr (follows_of_cases hsame (fun htoken => ?_) (fun htoken hresult => ?_) fun htoken hresult => ?_)
          · simp [htoken, hauth]
          · rw [verdict] at hresult ⊢
            simp [htoken, hresult]
          · rw [verdict] at hresult
            simp [htoken, hresult]
  | auth =>
      rw [answer, authRequestHandler]
      generalize a.letsPass now (limiterIP .auth r) = admission at hsame ⊢
      obtain ⟨admitted, b⟩ := admission
      cases admitted with
      | false => exact Or.inl ⟨rfl, hsame⟩
      | true =>
          refine Or.inr (follows_of_cases hsame (fun htoken => ?_) (fun htoken hresult => ?_) fun htoken hresult => ?_)
          · simp [htoken, hauth]
          · rw [verdict] at hresult ⊢
            simp [htoken, hresult]
          · rw [verdict] at hresult
            simp [htoken, hresult]

theorem follows_of_status (hauth : cfg.authEnabled) {endpoint : Endpoint}
    (h : (answer cfg jwt endpoint now r a).1.status ≠ 429) :
    Follows cfg jwt now r a (answer cfg jwt endpoint now r a) :=
  (answer_follows hauth endpoint now r a).resolve_left fun hlimited => h hlimited.1

/-- A request is allowed on a token that passes every check, and counted as
activity besides on one that has expired and verifies for this server; and both
handlers decide alike. -/
theorem sidecar_sound (cfg : Config) (jwt : Jwt) (hauth : cfg.authEnabled) (now : Instant) (r : Request) (a : Sidecar) :
    Sound cfg jwt (fun r => Genuine cfg jwt (extractToken cfg r)) now r a where
  allowed endpoint h := by
    have hfollows := follows_of_status hauth (by rw [h]; decide : (answer cfg jwt endpoint now r a).1.status ≠ 429)
    obtain ⟨claims, hgenuine, hdate, hsub, hbound⟩ := validateToken_valid hauth (hfollows.status.mp h).2
    exact ⟨claims, ⟨hgenuine, hsub, hbound⟩, hdate⟩
  activity endpoint h := by
    rcases answer_follows hauth endpoint now r a with ⟨-, hsame⟩ | hfollows
    · exact absurd hsame h
    · rw [hfollows.activity] at h
      obtain ⟨htoken, hvalid | hexpired⟩ := of_not_not fun hnot => h (if_neg hnot)
      · exact Or.inl (hfollows.status.mpr ⟨htoken, hvalid⟩)
      · exact Or.inr (validateToken_expired hauth hexpired)
  alike endpoint other h h' := by
    have hfollows := follows_of_status hauth h
    have hfollows' := follows_of_status hauth h'
    exact ⟨hfollows.status.trans hfollows'.status.symm, hfollows.activity.trans hfollows'.activity.symm⟩

section Lab

def labConfig : Config := ⟨"lab", true, "RS256", "Authorization", "nukelab_server_token", "access_token", true, 100, 60⟩

def labJwt (claims : Claims) : Jwt where
  verify _ _ := .ok claims
  validate claims now := if claims.exp.any (· ≤ now) then [.tokenExpired] else []
  expired_iff claims now := by
    cases claims.exp <;> simp
  describe _ := "token is expired"

def labRequest : Request := ⟨"203.0.113.7:4711", fun _ => "", fun _ => "token", fun _ => none⟩

def boundClaims : Claims := ⟨some "lab", some "1", some "203.0.113.7", none, some day⟩

theorem sidecar_sound_bound :
    Sound labConfig (labJwt boundClaims)
      (fun r => Genuine labConfig (labJwt boundClaims) (extractToken labConfig r)) 0 labRequest (newAuthSidecar labConfig) :=
  sidecar_sound labConfig (labJwt boundClaims) rfl 0 labRequest (newAuthSidecar labConfig)

/-- An expired token that is bound to another address counts as activity all the same. -/
theorem expired_elsewhere_counts :
    ¬ ∀ (cfg : Config) (jwt : Jwt) (now : Instant) (r : Request) (a : Sidecar), cfg.authEnabled →
      Sound cfg jwt (Vouched cfg jwt) now r a := by
  intro h
  have hsound := h labConfig (labJwt ⟨some "lab", some "1", some "198.51.100.9", none, some 0⟩) day labRequest
    (newAuthSidecar labConfig) rfl
  rcases hsound.activity .auth (by decide +kernel) with hallowed | ⟨claims, hvouched, -⟩
  · revert hallowed
    decide +kernel
  · obtain rfl := Except.ok.inj hvouched.signature
    have hbound := hvouched.bound "198.51.100.9" rfl (by decide)
    revert hbound
    decide +kernel

end Lab

end NukeLab.SidecarValidation
