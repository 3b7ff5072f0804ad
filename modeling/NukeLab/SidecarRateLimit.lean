import Mathlib.Data.Set.Basic
import NukeLab.SidecarValidation

namespace NukeLab.SidecarRateLimit

open Records AuthSidecar
open SidecarValidation (labConfig labJwt boundClaims)

structure Arrival where
  time : Instant
  endpoint : Endpoint
  request : Request

def peerIP (r : Request) : String := limiterIP .auth r

def outside (r : Request) : Bool := !isLoopback (peerIP r)

variable (cfg : Config) (jwt : Jwt)

def decisions (a : Sidecar) : List Arrival → List Bool
  | [] => []
  | x :: xs =>
    let out := answer cfg jwt x.endpoint x.time x.request a
    if outside x.request then decide (out.1.status ≠ 429) :: decisions out.2 xs else decisions out.2 xs

/-- From the same peer at the same time, to the same handler; cookies are headers too. -/
structure SameButHeaders (x y : Arrival) : Prop where
  time : x.time = y.time
  endpoint : x.endpoint = y.endpoint
  remoteAddr : x.request.remoteAddr = y.request.remoteAddr
  query : x.request.query = y.request.query

def peers (run : List Arrival) : Set String := {ip | ∃ x ∈ run, outside x.request ∧ peerIP x.request = ip}

/-- The address that the limiter goes by is the peer's own where the peer is
outside, and none of those where it is the proxy. -/
structure Plain (outsiders : Set String) (x : Arrival) : Prop where
  peer : outside x.request → limiterIP x.endpoint x.request = peerIP x.request
  proxy : ¬ outside x.request → isLoopback (limiterIP x.endpoint x.request) ∨ limiterIP x.endpoint x.request ∉ outsiders

variable {cfg jwt} {now : Instant} {a b : Sidecar} {rl rl' : RateLimiter} {ip : String} {keys : Set String}

structure Shares (keys : Set String) (rl rl' : RateLimiter) : Prop where
  requests : rl.requests = rl'.requests
  window : rl.window = rl'.window
  buckets : ∀ ip ∈ keys, rl.buckets ip = rl'.buckets ip

theorem Shares.put (h : Shares keys rl rl') (ip : String) (bucket : Bucket) :
    Shares keys (rl.put ip bucket) (rl'.put ip bucket) := by
  refine ⟨h.requests, h.window, fun key hkey => ?_⟩
  by_cases heq : key = ip
  · rw [heq, RateLimiter.put_self, RateLimiter.put_self]
  · rw [RateLimiter.put_of_ne _ heq, RateLimiter.put_of_ne _ heq, h.buckets key hkey]

theorem Shares.put_aside (h : Shares keys rl rl') (hip : ip ∉ keys) (bucket : Bucket) :
    Shares keys (rl.put ip bucket) rl' := by
  refine ⟨h.requests, h.window, fun key hkey => ?_⟩
  have hne : key ≠ ip := fun heq => hip (heq ▸ hkey)
  rw [RateLimiter.put_of_ne _ hne, h.buckets key hkey]

theorem allow_put (rl : RateLimiter) (now : Instant) (ip : String) : ∃ bucket, (rl.allow now ip).2 = rl.put ip bucket := by
  unfold RateLimiter.allow
  dsimp only
  split
  · exact ⟨_, rfl⟩
  · exact ⟨_, rfl⟩

theorem Shares.allow (h : Shares keys rl rl') (hip : ip ∈ keys) (now : Instant) :
    (rl.allow now ip).1 = (rl'.allow now ip).1 ∧ Shares keys (rl.allow now ip).2 (rl'.allow now ip).2 := by
  have hrefilled : rl.refilled now ip = rl'.refilled now ip := by
    rw [RateLimiter.refilled, RateLimiter.refilled, h.requests, h.window, h.buckets ip hip]
  unfold RateLimiter.allow
  rw [hrefilled]
  dsimp only
  split
  · exact ⟨rfl, h.put ip _⟩
  · exact ⟨rfl, h.put ip _⟩

def Agree (keys : Set String) (a b : Sidecar) : Prop := Option.Rel (Shares keys) a.rateLimiter b.rateLimiter

theorem Agree.refl (keys : Set String) (a : Sidecar) : Agree keys a a := by
  unfold Agree
  cases a.rateLimiter with
  | none => exact Option.Rel.none
  | some rl => exact Option.Rel.some ⟨rfl, rfl, fun _ _ => rfl⟩

theorem Agree.letsPass (h : Agree keys a b) (hip : ip ∈ keys) (now : Instant) :
    (a.letsPass now ip).1 = (b.letsPass now ip).1 ∧ Agree keys (a.letsPass now ip).2 (b.letsPass now ip).2 := by
  have hagree := h
  unfold Agree at h
  unfold Sidecar.letsPass
  cases ha : a.rateLimiter with
  | none =>
      rw [ha] at h
      cases hb : b.rateLimiter with
      | none => exact ⟨rfl, hagree⟩
      | some rl' =>
          rw [hb] at h
          exact nomatch h
  | some rl =>
      rw [ha] at h
      cases hb : b.rateLimiter with
      | none =>
          rw [hb] at h
          exact nomatch h
      | some rl' =>
          rw [hb] at h
          dsimp only
          split
          · exact ⟨rfl, hagree⟩
          · cases h with
            | some h =>
                obtain ⟨hsame, hshares⟩ := h.allow hip now
                exact ⟨hsame, Option.Rel.some hshares⟩

theorem Agree.aside (h : Agree keys a b) (hip : isLoopback ip ∨ ip ∉ keys) (now : Instant) :
    Agree keys (a.letsPass now ip).2 b := by
  have hagree := h
  unfold Agree at h
  unfold Sidecar.letsPass
  cases ha : a.rateLimiter with
  | none => exact hagree
  | some rl =>
      rw [ha] at h
      dsimp only
      split
      · exact hagree
      · rename_i hloopback
        obtain ⟨bucket, hput⟩ := allow_put rl now ip
        cases hb : b.rateLimiter with
        | none =>
            rw [hb] at h
            exact nomatch h
        | some rl' =>
            rw [hb] at h
            unfold Agree
            dsimp only
            rw [hb, hput]
            cases h with
            | some h => exact Option.Rel.some (h.put_aside (hip.resolve_left hloopback) bucket)

theorem Agree.symm (h : Agree keys a b) : Agree keys b a := by
  unfold Agree at h ⊢
  generalize a.rateLimiter = rl, b.rateLimiter = rl' at h ⊢
  cases h with
  | some h => exact Option.Rel.some ⟨h.requests.symm, h.window.symm, fun ip hip => (h.buckets ip hip).symm⟩
  | none => exact Option.Rel.none

/-- A handler answers 429 where the limiter does not let the request pass, and
only then; what else it does leaves the limiter as it is. -/
theorem answer_limiter (cfg : Config) (jwt : Jwt) (endpoint : Endpoint) (now : Instant) (r : Request) (a : Sidecar) :
    ((answer cfg jwt endpoint now r a).1.status ≠ 429 ↔ (a.letsPass now (limiterIP endpoint r)).1 = true) ∧
      (answer cfg jwt endpoint now r a).2.rateLimiter = (a.letsPass now (limiterIP endpoint r)).2.rateLimiter := by
  have hrejected : (401 : Nat) ≠ 429 := by decide
  have hallowed : (200 : Nat) ≠ 429 := by decide
  cases endpoint with
  | validate =>
      rw [answer, validateHandler]
      generalize a.letsPass now (limiterIP .validate r) = admission
      obtain ⟨admitted, b⟩ := admission
      cases admitted with
      | false => exact ⟨iff_of_false (fun h => h rfl) Bool.false_ne_true, rfl⟩
      | true =>
          dsimp only
          rw [if_neg (by decide)]
          split
          · split
            · exact ⟨iff_of_true hrejected rfl, rfl⟩
            · exact ⟨iff_of_true hallowed rfl, rfl⟩
          · split
            · refine ⟨iff_of_true hrejected rfl, ?_⟩
              dsimp only
              split <;> rfl
            · exact ⟨iff_of_true hallowed rfl, rfl⟩
  | auth =>
      rw [answer, authRequestHandler]
      generalize a.letsPass now (limiterIP .auth r) = admission
      obtain ⟨admitted, b⟩ := admission
      cases admitted with
      | false => exact ⟨iff_of_false (fun h => h rfl) Bool.false_ne_true, rfl⟩
      | true =>
          dsimp only
          rw [if_neg (by decide)]
          split
          · split
            · exact ⟨iff_of_true hrejected rfl, rfl⟩
            · exact ⟨iff_of_true hallowed rfl, rfl⟩
          · split
            · refine ⟨iff_of_true hrejected rfl, ?_⟩
              dsimp only
              split <;> rfl
            · exact ⟨iff_of_true hallowed rfl, rfl⟩

theorem plain_of_peer {x : Arrival} (houtside : outside x.request)
    (hpeer : limiterIP x.endpoint x.request = peerIP x.request) : Plain keys x :=
  ⟨fun _ => hpeer, fun h => absurd houtside h⟩

theorem SameButHeaders.peerIP {x y : Arrival} (h : SameButHeaders x y) : peerIP x.request = peerIP y.request := by
  unfold SidecarRateLimit.peerIP limiterIP
  dsimp only
  rw [h.remoteAddr]

theorem SameButHeaders.outside {x y : Arrival} (h : SameButHeaders x y) : outside x.request = outside y.request := by
  unfold SidecarRateLimit.outside
  rw [h.peerIP]

theorem Agree.answer (cfg : Config) (jwt : Jwt) (h : Agree keys a b) {x y : Arrival} (hsame : SameButHeaders x y)
    (hx : Plain keys x) (hy : Plain keys y) (hkeys : outside x.request → peerIP x.request ∈ keys) :
    (outside x.request → ((answer cfg jwt x.endpoint x.time x.request a).1.status ≠ 429 ↔
      (answer cfg jwt y.endpoint y.time y.request b).1.status ≠ 429)) ∧
    Agree keys (answer cfg jwt x.endpoint x.time x.request a).2 (answer cfg jwt y.endpoint y.time y.request b).2 := by
  obtain ⟨hdecided, hlimiter⟩ := answer_limiter cfg jwt x.endpoint x.time x.request a
  obtain ⟨hdecided', hlimiter'⟩ := answer_limiter cfg jwt y.endpoint y.time y.request b
  rw [hdecided, hdecided']
  unfold Agree
  rw [hlimiter, hlimiter']
  by_cases houtside : outside x.request
  · rw [hx.peer houtside, hy.peer (hsame.outside ▸ houtside), ← hsame.peerIP, ← hsame.time]
    obtain ⟨heq, hagree⟩ := h.letsPass (hkeys houtside) x.time
    exact ⟨fun _ => by rw [heq], hagree⟩
  · have hx := hx.proxy houtside
    have hy := hy.proxy (hsame.outside ▸ houtside)
    exact ⟨fun h => absurd h houtside, ((h.aside hx x.time).symm.aside hy y.time).symm⟩

/-- By induction on the two runs side by side, with the buckets of the peers
outside the same in both. -/
theorem Agree.decisions {run run' : List Arrival} (hsame : List.Forall₂ SameButHeaders run run')
    (hrun : ∀ x ∈ run, Plain keys x) (hrun' : ∀ y ∈ run', Plain keys y)
    (hkeys : ∀ x ∈ run, outside x.request → peerIP x.request ∈ keys) :
    ∀ {a b : Sidecar}, Agree keys a b → decisions cfg jwt a run = decisions cfg jwt b run' := by
  induction hsame with
  | nil => exact fun _ => rfl
  | @cons x y xs ys hxy _ ih =>
      intro a b h
      obtain ⟨hdecision, hagree⟩ := h.answer cfg jwt hxy (hrun x (List.mem_cons_self ..))
        (hrun' y (List.mem_cons_self ..)) (hkeys x (List.mem_cons_self ..))
      have hrest := ih (fun x hx => hrun x (List.mem_cons_of_mem _ hx)) (fun y hy => hrun' y (List.mem_cons_of_mem _ hy))
        (fun x hx => hkeys x (List.mem_cons_of_mem _ hx)) hagree
      unfold SidecarRateLimit.decisions
      dsimp only
      rw [← hxy.outside, hrest]
      split
      · rename_i houtside
        rw [decide_eq_decide.mpr (hdecision houtside)]
      · rfl

/-- The headers do not matter to the limiter as long as those that reach it name
the peer of a request from outside, and none of those peers where the proxy asks. -/
theorem decisions_eq (cfg : Config) (jwt : Jwt) {run run' : List Arrival} (hsame : List.Forall₂ SameButHeaders run run')
    (hrun : ∀ x ∈ run, Plain (peers run) x) (hrun' : ∀ y ∈ run', Plain (peers run) y) :
    decisions cfg jwt (newAuthSidecar cfg) run = decisions cfg jwt (newAuthSidecar cfg) run' :=
  Agree.decisions hsame hrun hrun' (fun x hx houtside => ⟨x, hx, houtside, rfl⟩) (Agree.refl _ _)

section Lab

def strictConfig : Config := { labConfig with rateLimitRequests := 1 }

/-- A request to /validate from outside, with this header and no other. -/
def withHeader (name value : String) : Arrival where
  time := 0
  endpoint := .validate
  request := ⟨"203.0.113.7:4711", fun key => if key = name then value else "", fun _ => "token", fun _ => none⟩

theorem sameButHeaders_withHeader (name value name' value' : String) :
    SameButHeaders (withHeader name value) (withHeader name' value') :=
  ⟨rfl, rfl, rfl, rfl⟩

/-- Two requests of which the second is limited, with headers that the limiter does not read
and with one that names the peer. -/
theorem decisions_eq_withHeader :
    decisions strictConfig (labJwt boundClaims) (newAuthSidecar strictConfig)
        [withHeader "Accept" "text/html", withHeader "Accept" ""] =
      decisions strictConfig (labJwt boundClaims) (newAuthSidecar strictConfig)
        [withHeader "X-Forwarded-For" "203.0.113.7", withHeader "Accept" "text/html"] := by
  apply decisions_eq
  · exact List.Forall₂.cons (sameButHeaders_withHeader _ _ _ _)
      (List.Forall₂.cons (sameButHeaders_withHeader _ _ _ _) List.Forall₂.nil)
  · refine List.forall_mem_cons.mpr ⟨?_, List.forall_mem_singleton.mpr ?_⟩
    · exact plain_of_peer (by decide +kernel) (by decide +kernel)
    · exact plain_of_peer (by decide +kernel) (by decide +kernel)
  · refine List.forall_mem_cons.mpr ⟨?_, List.forall_mem_singleton.mpr ?_⟩
    · exact plain_of_peer (by decide +kernel) (by decide +kernel)
    · exact plain_of_peer (by decide +kernel) (by decide +kernel)

/-- Two requests from one peer, the second of which names another address or not. -/
theorem header_moves_bucket :
    ¬ ∀ (cfg : Config) (jwt : Jwt) (run run' : List Arrival), List.Forall₂ SameButHeaders run run' →
      decisions cfg jwt (newAuthSidecar cfg) run = decisions cfg jwt (newAuthSidecar cfg) run' := by
  intro h
  have heq := h strictConfig (labJwt boundClaims) [withHeader "Accept" "", withHeader "Accept" ""]
    [withHeader "Accept" "", withHeader "X-Forwarded-For" "198.51.100.9"]
    (List.Forall₂.cons (sameButHeaders_withHeader _ _ _ _)
      (List.Forall₂.cons (sameButHeaders_withHeader _ _ _ _) List.Forall₂.nil))
  revert heq
  decide +kernel

end Lab

end NukeLab.SidecarRateLimit
