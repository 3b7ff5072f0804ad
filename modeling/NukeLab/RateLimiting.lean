import NukeLab.ClientAddress
import NukeLab.Double
import NukeLab.ExpiringCounters
import NukeLab.Machine
import NukeLab.Records

namespace NukeLab.RateLimiting

open ClientAddress ExpiringCounters Machine Records
open RateLimitMiddleware (getClientIp)

structure Settings where
  rateLimitEnabled : Bool
  rateLimitWindowSeconds : Int
  rateLimitStrictMultiplier : ℚ
  rateLimitWebsocketCpm : Int
  rateLimitBucketTtlMultiplier : Int

structure Payload where
  sub : String
  role : Option String

/-- The check of an access token, revocations included, and the first digits of a hash. -/
structure Libraries where
  verifyAccessToken : Instant → String → Option Payload
  hashTokenForKey : String → String

structure Request extends ClientAddress.Request where
  path : String
  authorization : Option String
  cookie : Option String

def exemptPaths : List String := ["/api/health", "/health", "/api/docs", "/api/openapi.json"]

def exemptPrefixes : List String := ["/api/auth", "/api/system"]

def isExempt (path : String) : Bool := path ∈ exemptPaths || exemptPrefixes.any fun start => startsWith path start

def roleRateLimits : List (String × Int) :=
  [("guest", 30), ("user", 120), ("support", 300), ("moderator", 300), ("admin", 600), ("super_admin", 3000)]

def getRoleRateLimit (role : String) : Int := (roleRateLimits.lookup role).getD ((roleRateLimits.lookup "user").getD 0)

/-- `int(x)` of a product of doubles. -/
def truncatedProduct (limit : Int) (multiplier : ℚ) : Int :=
  if 0 ≤ limit * multiplier then ⌊Double.mul limit multiplier⌋ else -⌊Double.mul (-limit) multiplier⌋

inductive Tier
  | strict
  | websocket
  | general
  deriving DecidableEq

def tier (path : String) : Tier :=
  if startsWith path "/api/admin" || startsWith path "/admin" then .strict
  else if startsWith path "/ws" || startsWith path "/api/ws" then .websocket
  else .general

def limitOf (settings : Settings) (role : String) : Tier → Int
  | .strict => truncatedProduct (getRoleRateLimit role) settings.rateLimitStrictMultiplier
  | .websocket => settings.rateLimitWebsocketCpm
  | .general => getRoleRateLimit role

/-- The parts of a key, which its text keeps apart by colons. -/
structure RedisKey where
  userKey : String
  bucket : Int
  suffix : Tier
  deriving DecidableEq

def extractToken (r : Request) : Option String :=
  let auth := r.authorization.getD ""
  if startsWith auth "Bearer " || startsWith auth "Token " then
    some (String.ofList ((auth.toList.dropWhile (· ≠ ' ')).drop 1))
  else r.cookie

def presented (r : Request) : Option String := (extractToken r).filter (· ≠ "")

def decodeJwt (lib : Libraries) (now : Instant) (token : String) : Option Payload :=
  (lib.verifyAccessToken now token).filter (·.sub ≠ "")

def userKeyAndRole (lib : Libraries) (now : Instant) (r : Request) : String × String :=
  match presented r with
  | some token =>
    match decodeJwt lib now token with
    | some payload => (payload.sub, payload.role.getD "user")
    | none => ("tkn:" ++ lib.hashTokenForKey token, "user")
  | none => ("ip:" ++ getClientIp r.toRequest, "unauthenticated")

def bucket (settings : Settings) (now : Instant) : Int := (now / second).fdiv settings.rateLimitWindowSeconds

structure Arrival where
  time : Instant
  request : Request

/-- The middleware of one process: whether its client is made, and the hash of its script known. -/
structure Limiter where
  redis : Bool
  luaIncrExpire : Bool

/-- The next handler is called and its answer gets headers, or it is not. -/
inductive Answer
  | passed (headers : List (String × Int))
  | tooManyRequests (detail error : String) (headers : List (String × Int))
  | divisionByZero

def Answer.isPassed : Answer → Bool
  | .passed _ => true
  | _ => false

/-- Redis with its counters, and whether it has the script; the requests of each
process that wait for the script to be loaded; the answers so far. -/
structure Site where
  counters : Counters RedisKey
  script : Bool
  limiters : Nat → Limiter
  loading : List (Nat × Arrival)
  answered : List (Arrival × Answer)

/-- What the script returns. There is none where its hash is not known yet, or
Redis does not have the script any more: the call raises. -/
def evalsha (site : Site) (process : Nat) (now ttl : Int) (key : RedisKey) : Option Nat × Counters RedisKey :=
  if (site.limiters process).luaIncrExpire ∧ site.script then
    let (current, counters) := hit site.counters now ttl key
    (some current, counters)
  else (none, site.counters)

structure Verdict where
  isLimited : Bool
  retryAfter : Int
  limit : Int
  remaining : Int

/-- The window is that of the time the check began, the answer of the time it ends. -/
def checkRateLimit (settings : Settings) (userKey role path : String) (begun : Instant) (process : Nat) (now : Instant)
    (site : Site) : Verdict × Counters RedisKey :=
  let window := settings.rateLimitWindowSeconds
  let limit := limitOf settings role (tier path)
  let ttl := window * settings.rateLimitBucketTtlMultiplier * second
  match evalsha site process now ttl ⟨userKey, bucket settings begun, tier path⟩ with
  | (some current, counters) =>
    (if current > limit then ⟨true, window - (now / second).fmod window, limit, 0⟩
      else ⟨false, 0, limit, max 0 (limit - current)⟩, counters)
  | (none, counters) => (⟨false, 0, 0, 0⟩, counters)

def respond (settings : Settings) (now : Instant) (verdict : Verdict) : Answer :=
  if verdict.isLimited then
    .tooManyRequests "Too many requests. Please slow down." "rate_limit_exceeded"
      [("Retry-After", verdict.retryAfter), ("X-RateLimit-Limit", verdict.limit), ("X-RateLimit-Remaining", 0),
        ("X-RateLimit-Reset", now / second + verdict.retryAfter)]
  else if verdict.limit > 0 then
    .passed [("X-RateLimit-Limit", verdict.limit), ("X-RateLimit-Remaining", verdict.remaining),
      ("X-RateLimit-Reset", (bucket settings now + 1) * settings.rateLimitWindowSeconds)]
  else .passed []

def serve (settings : Settings) (lib : Libraries) (process : Nat) (x : Arrival) (now : Instant) (site : Site) : Site :=
  let (userKey, role) := userKeyAndRole lib x.time x.request
  let (verdict, counters) := checkRateLimit settings userKey role x.request.path x.time process now site
  { site with counters := counters, answered := site.answered ++ [(x, respond settings now verdict)] }

/-- A request up to its answer, or up to where it waits for the script. The first
one of a process makes the client before the script is loaded. -/
def dispatch (settings : Settings) (lib : Libraries) (process : Nat) (x : Arrival) (site : Site) : Site :=
  if isExempt x.request.path ∨ ¬ settings.rateLimitEnabled then
    { site with answered := site.answered ++ [(x, .passed [])] }
  else if settings.rateLimitWindowSeconds = 0 then { site with answered := site.answered ++ [(x, .divisionByZero)] }
  else if (site.limiters process).redis then serve settings lib process x x.time site
  else
    { site with
      limiters := Function.update site.limiters process { site.limiters process with redis := true }
      loading := site.loading ++ [(process, x)] }

/-- A request comes, Redis answers that the script is loaded, or Redis comes back
with its counters and without the script. -/
inductive Event
  | arrive (process : Nat) (x : Arrival)
  | loaded (now : Instant) (index : Nat)
  | restart

def loaded (site : Site) (process index : Nat) : Site :=
  { site with
    script := true
    limiters := Function.update site.limiters process { site.limiters process with luaIncrExpire := true }
    loading := site.loading.eraseIdx index }

def step (settings : Settings) (lib : Libraries) : Step Site Event
  | site, .arrive process x => some (dispatch settings lib process x site)
  | site, .loaded now index =>
    (site.loading[index]?).map fun (process, x) => serve settings lib process x now (loaded site process index)
  | site, .restart => some { site with script := false }

section Runs

variable (settings : Settings) (lib : Libraries)

def sends (peer : String) (window : Int) (paths : Tier) (x : Arrival) : Bool :=
  directIp x.request.toRequest = peer ∧ bucket settings x.time = window ∧ tier x.request.path = paths ∧
    ¬ isExempt x.request.path

def passes (chosen : Arrival → Bool) (site : Site) : Nat :=
  site.answered.countP fun (x, answer) => chosen x && answer.isPassed

def Site.begin (script : Bool) (limiters : Nat → Limiter) : Site := ⟨fun _ => none, script, limiters, [], []⟩

/-- The limiter is on, with windows and a time to live for its keys. -/
structure Settings.Sensible (settings : Settings) : Prop where
  enabled : settings.rateLimitEnabled
  window : 0 < settings.rateLimitWindowSeconds
  ttl : 0 < settings.rateLimitBucketTtlMultiplier

/-- The request finds the script there or is the one that loads it, and a script
asked for in a window is loaded within it. -/
def Counted (chosen : Arrival → Bool) (site : Site) : Event → Prop
  | .arrive process x =>
    chosen x → (site.limiters process).redis → (site.limiters process).luaIncrExpire ∧ site.script
  | .loaded now index => ∀ load ∈ site.loading[index]?, bucket settings now = bucket settings load.2.time
  | .restart => True

instance (chosen : Arrival → Bool) (site : Site) (event : Event) : Decidable (Counted settings chosen site event) :=
  match event with
  | .arrive process x =>
    inferInstanceAs (Decidable (chosen x → (site.limiters process).redis →
      (site.limiters process).luaIncrExpire ∧ site.script))
  | .loaded now index =>
    inferInstanceAs (Decidable (∀ load ∈ site.loading[index]?, bucket settings now = bucket settings load.2.time))
  | .restart => inferInstanceAs (Decidable True)

def HoldsNoToken (peer : String) (run : List Event) : Prop :=
  ∀ process x, .arrive process x ∈ run → directIp x.request.toRequest = peer → ∀ token ∈ presented x.request,
    decodeJwt lib x.time token = none

def SameCaller (r r' : Request) : Prop :=
  presented r = presented r' ∧ (presented r = none → getClientIp r.toRequest = getClientIp r'.toRequest)

end Runs

variable {settings : Settings} {lib : Libraries} {x : Arrival} {key : RedisKey}

def redisKey (settings : Settings) (lib : Libraries) (x : Arrival) : RedisKey :=
  ⟨(userKeyAndRole lib x.time x.request).1, bucket settings x.time, tier x.request.path⟩

def ttl (settings : Settings) : Int :=
  settings.rateLimitWindowSeconds * settings.rateLimitBucketTtlMultiplier * second

def windowEnd (settings : Settings) (window : Int) : Instant := (window + 1) * (second * settings.rateLimitWindowSeconds)

theorem bucket_eq (h : settings.Sensible) (now : Instant) :
    bucket settings now = now / (second * settings.rateLimitWindowSeconds) := by
  have hsecond : 0 ≤ second := by decide
  rw [bucket, Int.fdiv_eq_ediv_of_nonneg _ h.window.le, Int.ediv_ediv_of_nonneg hsecond]

theorem lt_windowEnd (h : settings.Sensible) (now : Instant) : now < windowEnd settings (bucket settings now) := by
  rw [bucket_eq h, windowEnd]
  exact Int.lt_ediv_add_one_mul_self now (mul_pos (by decide) h.window)

theorem windowEnd_le (h : settings.Sensible) (now : Instant) :
    windowEnd settings (bucket settings now) ≤ now + ttl settings := by
  have hstart : now / (second * settings.rateLimitWindowSeconds) * (second * settings.rateLimitWindowSeconds) ≤ now :=
    Int.ediv_mul_le now (mul_pos (by decide) h.window).ne'
  have hlength : second * settings.rateLimitWindowSeconds ≤ ttl settings := by
    have hnonneg : 0 ≤ second * settings.rateLimitWindowSeconds := (mul_pos (by decide) h.window).le
    calc second * settings.rateLimitWindowSeconds
        ≤ second * settings.rateLimitWindowSeconds * settings.rateLimitBucketTtlMultiplier :=
          le_mul_of_one_le_right hnonneg h.ttl
      _ = ttl settings := by rw [ttl]; ring
  rw [bucket_eq h, windowEnd, add_mul, one_mul]
  exact add_le_add hstart hlength

section Serving

variable {site : Site} {process : Nat} {now : Instant}

/-- A script that runs hits the counter of the request's key and lets it pass within the limit. -/
theorem serve_counted (settings : Settings) (lib : Libraries) (x : Arrival) (now : Instant)
    (hscript : (site.limiters process).luaIncrExpire ∧ site.script) :
    let counted := hit site.counters now (ttl settings) (redisKey settings lib x)
    ∃ answer, serve settings lib process x now site =
        { site with counters := counted.2, answered := site.answered ++ [(x, answer)] } ∧
      (answer.isPassed ↔
        (counted.1 : Int) ≤ limitOf settings (userKeyAndRole lib x.time x.request).2 (tier x.request.path)) := by
  unfold serve checkRateLimit evalsha
  unfold redisKey ttl
  dsimp only
  rw [if_pos hscript]
  generalize hit site.counters now _ _ = counted
  dsimp only
  refine ⟨_, rfl, ?_⟩
  unfold respond
  split
  · rename_i hover
    rw [if_pos rfl]
    exact iff_of_false Bool.false_ne_true (not_le.mpr hover)
  · rename_i hwithin
    rw [if_neg Bool.false_ne_true]
    split
    · exact iff_of_true rfl (not_lt.mp hwithin)
    · exact iff_of_true rfl (not_lt.mp hwithin)

theorem serve_uncounted (settings : Settings) (lib : Libraries) (x : Arrival) (now : Instant)
    (hscript : ¬ ((site.limiters process).luaIncrExpire ∧ site.script)) :
    ∃ answer, serve settings lib process x now site = { site with answered := site.answered ++ [(x, answer)] } := by
  unfold serve checkRateLimit evalsha
  dsimp only
  rw [if_neg hscript]
  exact ⟨_, rfl⟩

theorem passes_append (chosen : Arrival → Bool) (site : Site) (x : Arrival) (answer : Answer) (counters : Counters RedisKey) :
    passes chosen { site with counters := counters, answered := site.answered ++ [(x, answer)] } =
      passes chosen site + if chosen x && answer.isPassed then 1 else 0 := by
  rw [passes, passes, List.countP_append, List.countP_singleton]

theorem passes_of_not_chosen {chosen : Arrival → Bool} (hx : ¬ chosen x) (site : Site) (answer : Answer)
    (counters : Counters RedisKey) :
    passes chosen { site with counters := counters, answered := site.answered ++ [(x, answer)] } = passes chosen site := by
  rw [passes_append, Bool.eq_false_iff.mpr hx, Bool.false_and, if_neg Bool.false_ne_true, Nat.add_zero]

end Serving

def Fits (settings : Settings) (lib : Libraries) (key : RedisKey) (limit : Int) (x : Arrival) : Prop :=
  redisKey settings lib x = key ∧ limitOf settings (userKeyAndRole lib x.time x.request).2 (tier x.request.path) = limit

/-- What has passed is counted by the key and within the limit, and what waits will be. -/
structure Metered (settings : Settings) (lib : Libraries) (key : RedisKey) (limit : Int) (chosen : Arrival → Bool)
    (site : Site) : Prop where
  counts : ∃ n, Counts site.counters key n (windowEnd settings key.bucket) ∧ passes chosen site ≤ n
  within : passes chosen site ≤ limit.toNat
  loading : ∀ load ∈ site.loading, chosen load.2 → Fits settings lib key limit load.2

section Metering

variable {site : Site} {process : Nat} {now : Instant} {limit : Int} {chosen : Arrival → Bool}

/-- Serving a request in its window keeps the meter, where the requests that matter are counted. -/
theorem Metered.serve (h : settings.Sensible) (hm : Metered settings lib key limit chosen site)
    (hbucket : bucket settings now = bucket settings x.time) (hfits : chosen x → Fits settings lib key limit x)
    (hscript : chosen x → (site.limiters process).luaIncrExpire ∧ site.script) :
    Metered settings lib key limit chosen (serve settings lib process x now site) := by
  obtain ⟨⟨n, hn, hle⟩, hwithin, hloading⟩ := hm
  by_cases hruns : (site.limiters process).luaIncrExpire ∧ site.script
  · obtain ⟨answer, hserve, hpassed⟩ := serve_counted settings lib x now hruns
    rw [hserve]
    by_cases hsame : redisKey settings lib x = key
    · have hbucket : key.bucket = bucket settings now := by rw [← hsame, redisKey, hbucket]
      have hnow := lt_windowEnd h now
      have httl := windowEnd_le h now
      rw [← hbucket] at hnow httl
      obtain ⟨hcount, hcounts⟩ := hn.hit hnow httl
      rw [hsame] at hpassed ⊢
      rw [hcount] at hpassed
      have hgrown : passes chosen { site with
            counters := (hit site.counters now (ttl settings) key).2, answered := site.answered ++ [(x, answer)] } ≤
          n + 1 ∧ passes chosen { site with
            counters := (hit site.counters now (ttl settings) key).2, answered := site.answered ++ [(x, answer)] } ≤
          limit.toNat := by
        rw [passes_append]
        split
        · rename_i hboth
          rw [Bool.and_eq_true] at hboth
          have hlimit := hpassed.mp hboth.2
          rw [(hfits hboth.1).2] at hlimit
          omega
        · omega
      exact ⟨⟨n + 1, hcounts, hgrown.1⟩, hgrown.2, hloading⟩
    · have hx : ¬ chosen x := fun hx => hsame (hfits hx).1
      have hpasses := passes_of_not_chosen hx site answer (hit site.counters now (ttl settings) (redisKey settings lib x)).2
      exact ⟨⟨n, hn.hit_of_ne (Ne.symm hsame), hpasses.trans_le hle⟩, hpasses.trans_le hwithin, hloading⟩
  · obtain ⟨answer, hserve⟩ := serve_uncounted settings lib x now hruns
    have hpasses := passes_of_not_chosen (fun hx => hruns (hscript hx)) site answer site.counters
    rw [hserve]
    exact ⟨⟨n, hn, hpasses.trans_le hle⟩, hpasses.trans_le hwithin, hloading⟩

theorem Metered.step {site' : Site} {event : Event} (h : settings.Sensible)
    (hchosen : ∀ x, chosen x → ¬ isExempt x.request.path) (hm : Metered settings lib key limit chosen site)
    (hfits : ∀ process x, event = .arrive process x → chosen x → Fits settings lib key limit x)
    (hcounted : Counted settings chosen site event) (hstep : step settings lib site event = some site') :
    Metered settings lib key limit chosen site' := by
  cases event with
  | arrive process x =>
      cases hstep
      rw [dispatch]
      split
      · rename_i hunlimited
        have hx : ¬ chosen x := fun hx => hunlimited.elim (hchosen x hx) fun hoff => hoff h.enabled
        have hpasses := passes_of_not_chosen hx site (.passed []) site.counters
        obtain ⟨⟨n, hn, hle⟩, hwithin, hloading⟩ := hm
        exact ⟨⟨n, hn, hpasses.trans_le hle⟩, hpasses.trans_le hwithin, hloading⟩
      · rw [if_neg h.window.ne']
        split
        · rename_i hredis
          exact hm.serve h rfl (hfits process x rfl) fun hx => hcounted hx hredis
        · refine ⟨hm.counts, hm.within, fun load hload => ?_⟩
          rcases List.mem_append.mp hload with hload | hload
          · exact hm.loading load hload
          · rw [List.mem_singleton.mp hload]
            exact hfits process x rfl
  | loaded now index =>
      obtain ⟨⟨process, x⟩, hload, rfl⟩ := Option.map_eq_some_iff.mp hstep
      have hmem := List.mem_of_getElem? hload
      have hloaded : Metered settings lib key limit chosen (loaded site process index) :=
        ⟨hm.counts, hm.within, fun load h => hm.loading load (List.mem_of_mem_eraseIdx h)⟩
      refine hloaded.serve h (hcounted (process, x) hload) (hm.loading (process, x) hmem) fun _ => ?_
      rw [loaded]
      simp only [Function.update_self, and_self]
  | restart =>
      cases hstep
      exact ⟨hm.counts, hm.within, hm.loading⟩

end Metering

theorem userKeyAndRole_of_invalid {r : Request} {now : Instant}
    (h : ∀ token ∈ presented r, decodeJwt lib now token = none) :
    userKeyAndRole lib now r =
      match presented r with
      | some token => ("tkn:" ++ lib.hashTokenForKey token, "user")
      | none => ("ip:" ++ getClientIp r.toRequest, "unauthenticated") := by
  unfold userKeyAndRole
  cases hpresented : presented r with
  | none => rfl
  | some token => simp only [h token hpresented]

theorem limitOf_of_invalid {r : Request} {now : Instant} (h : ∀ token ∈ presented r, decodeJwt lib now token = none)
    (paths : Tier) :
    limitOf settings (userKeyAndRole lib now r).2 paths = limitOf settings "unauthenticated" paths := by
  have huser : getRoleRateLimit "user" = getRoleRateLimit "unauthenticated" := by decide
  rw [userKeyAndRole_of_invalid h]
  split
  · cases paths with
    | strict => simp only [limitOf, huser]
    | websocket => rfl
    | general => exact huser
  · rfl

theorem SameCaller.userKey {r r' : Request} {now now' : Instant} (hsame : SameCaller r r')
    (h : ∀ token ∈ presented r, decodeJwt lib now token = none)
    (h' : ∀ token ∈ presented r', decodeJwt lib now' token = none) :
    (userKeyAndRole lib now r).1 = (userKeyAndRole lib now' r').1 := by
  rw [userKeyAndRole_of_invalid h, userKeyAndRole_of_invalid h', ← hsame.1]
  cases hpresented : presented r with
  | none =>
      dsimp only
      rw [hsame.2 hpresented]
  | some token => rfl

theorem sends_iff {peer : String} {window : Int} {paths : Tier} :
    sends settings peer window paths x ↔ directIp x.request.toRequest = peer ∧ bucket settings x.time = window ∧
      tier x.request.path = paths ∧ ¬ isExempt x.request.path :=
  decide_eq_true_iff

section Lab

def labSettings : Settings := ⟨true, 60, 1 / 2, 1, 2⟩

theorem labSettings_sensible : labSettings.Sensible := ⟨rfl, by decide, by decide⟩

def strictLibraries : Libraries := ⟨fun _ _ => none, id⟩

def madeUp (token : String) : Event :=
  .arrive 0 ⟨0, ⟨⟨some outsider, none, none⟩, "/ws", some ("Bearer " ++ token), none⟩⟩

theorem holdsNoToken (peer : String) (run : List Event) : HoldsNoToken strictLibraries peer run :=
  fun _ _ _ _ _ _ => rfl

end Lab

end NukeLab.RateLimiting
