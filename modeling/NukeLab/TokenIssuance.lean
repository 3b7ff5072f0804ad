import NukeLab.Interleaving
import NukeLab.ServerAccess
import NukeLab.SlidingWindows
import Mathlib.Tactic.Linarith

namespace NukeLab.TokenIssuance

open Interleaving Machine Records ServerAccess SlidingWindows State

/-- The recorded tokens and the time. `issued` is all that was ever recorded. -/
structure Store where
  rows : List ServerAccessToken
  now : Instant
  issued : List ServerAccessToken

inductive Request
  | generate (request : TokenRequest)
  | cleanup

/-- How far a call has come. `asOf` is when its count was made. -/
inductive Phase (τ : Type)
  | generate (request : TokenRequest)
  | counting (request : TokenRequest) (begun : Instant)
  | admitted (request : TokenRequest) (asOf : Instant)
  | recording (row : ServerAccessToken) (token : τ) (asOf : Instant)
  | issued (token : τ)
  | cleanup
  | cleaning (now : Instant)
  | failed (detail : String)
  | cleaned

/-- The time that passed before a turn, and whether its commit went through. -/
structure Answer where
  elapsed : Nat
  committed : Bool

variable {τ : Type}

def begin : Request → Phase τ
  | .generate request => .generate request
  | .cleanup => .cleanup

def rowFor (settings : ServerAuthSettings) (keyId : String) (request : TokenRequest) (now : Instant) : ServerAccessToken :=
  { id := request.rowId, serverId := request.serverId, userId := request.userId, jti := uuidText request.jti,
    keyId := keyId, issuedAt := now, expiresAt := now + settings.serverAuthTokenTtl * second,
    clientIp := request.clientIp, userAgent := request.userAgent, tokenType := request.tokenType }

def maxAgeDays : Int := 7

/-- A call gives way at each of its queries; the clock does not go back. -/
def advance (jwt : Jwt τ) (settings : ServerAuthSettings) (keyId : String) : Advance Store (Phase τ) Answer :=
  fun _ s p answer =>
    let now := s.now + answer.elapsed
    let s := { s with now := now }
    match p with
    | .generate request =>
      if ¬ settings.serverAuthEnabled then some (s, .failed "Server authentication is disabled")
      else some (s, .counting request now)
    | .counting request begun =>
      match checkRateLimit settings s.rows request.userId request.serverId begun with
      | .error detail => some (s, .failed detail)
      | .ok () => some (s, .admitted request now)
    | .admitted request asOf =>
      some (s, .recording (rowFor settings keyId request now) (jwt.encode (claimsFor settings keyId request now)) asOf)
    | .recording row token _ =>
      if answer.committed then some ({ s with rows := s.rows ++ [row], issued := s.issued ++ [row] }, .issued token)
      else some (s, .failed "commit")
    | .cleanup => some (s, .cleaning now)
    | .cleaning begun =>
      if answer.committed then
        some ({ s with rows := s.rows.filter fun row => ¬ row.expiresAt < begun - maxAgeDays * day }, .cleaned)
      else some (s, .failed "commit")
    | .issued _ | .failed _ | .cleaned => none

def timesOf (userId serverId : Uuid) (rows : List ServerAccessToken) : List Instant :=
  (rows.filter fun row => row.userId = userId ∧ row.serverId = serverId).map ServerAccessToken.issuedAt

/-- A call of the user's for the server that was let through and has not recorded its token. -/
def Between (userId serverId : Uuid) : Phase τ → Prop
  | .admitted request _ => request.userId = userId ∧ request.serverId = serverId
  | .recording row _ _ => row.userId = userId ∧ row.serverId = serverId
  | _ => False

instance (userId serverId : Uuid) (p : Phase τ) : Decidable (Between userId serverId p) :=
  match p with
  | .admitted _ _ | .recording _ _ _ => inferInstanceAs (Decidable (_ ∧ _))
  | .generate _ | .counting _ _ | .issued _ | .cleanup | .cleaning _ | .failed _ | .cleaned => .isFalse id

def Counting (userId serverId : Uuid) : Phase τ → Prop
  | .counting request _ => request.userId = userId ∧ request.serverId = serverId
  | _ => False

instance (userId serverId : Uuid) (p : Phase τ) : Decidable (Counting userId serverId p) :=
  match p with
  | .counting _ _ => inferInstanceAs (Decidable (_ ∧ _))
  | .generate _ | .admitted _ _ | .recording _ _ _ | .issued _ | .cleanup | .cleaning _ | .failed _ | .cleaned => .isFalse id

/-- When a call counts, at most so many others are between their count and their commit. -/
def Overlaps (userId serverId : Uuid) (others : Nat) (s : System Store (Phase τ)) : Event Request Answer → Prop
  | .call _ => True
  | .turn i _ => (∃ p ∈ s.calls[i]?, Counting userId serverId p) → s.calls.countP (Between userId serverId ·) ≤ others

instance (userId serverId : Uuid) (others : Nat) (s : System Store (Phase τ)) (e : Event Request Answer) :
    Decidable (Overlaps userId serverId others s e) :=
  match e with
  | .call _ => .isTrue trivial
  | .turn _ _ => inferInstanceAs (Decidable (_ → _))

/-- A call whose token may yet fall into the minute from `start`. -/
def Pending (userId serverId : Uuid) (start : Instant) : Phase τ → Prop
  | .admitted request asOf => request.userId = userId ∧ request.serverId = serverId ∧ asOf ≤ start + minute
  | .recording row _ asOf => row.userId = userId ∧ row.serverId = serverId ∧ asOf ≤ start + minute
  | _ => False

instance (userId serverId : Uuid) (start : Instant) (p : Phase τ) : Decidable (Pending userId serverId start p) :=
  match p with
  | .admitted _ _ | .recording _ _ _ => inferInstanceAs (Decidable (_ ∧ _))
  | .generate _ | .counting _ _ | .issued _ | .cleanup | .cleaning _ | .failed _ | .cleaned => .isFalse id

structure Kept (s : Store) : Prop where
  spans : ∀ row ∈ s.rows, row.issuedAt ≤ row.expiresAt
  recent : ∀ userId serverId start, s.now - maxAgeDays * day ≤ start →
    since start (timesOf userId serverId s.rows) = since start (timesOf userId serverId s.issued)

def Timely (s : Store) : Phase τ → Prop
  | .counting _ begun | .cleaning begun => begun ≤ s.now
  | .admitted _ asOf => asOf ≤ s.now
  | .recording row _ asOf => asOf ≤ row.issuedAt ∧ row.issuedAt ≤ row.expiresAt
  | _ => True

def Room (userId serverId : Uuid) (bound : Nat) (s : System Store (Phase τ)) : Prop :=
  ∀ start, within start minute (timesOf userId serverId s.shared.issued) + s.calls.countP (Pending userId serverId start ·) ≤ bound

section

variable {jwt : Jwt τ} {settings : ServerAuthSettings} {keyId : String} {userId serverId : Uuid} {start : Instant}
  {s t : Store} {p q : Phase τ} {answer : Answer} {i : Nat}

theorem timesOf_append (rows : List ServerAccessToken) (row : ServerAccessToken) :
    timesOf userId serverId (rows ++ [row]) =
      timesOf userId serverId rows ++ if row.userId = userId ∧ row.serverId = serverId then [row.issuedAt] else [] := by
  rw [timesOf, timesOf, List.filter_append, List.map_append]
  by_cases h : row.userId = userId ∧ row.serverId = serverId
  · rw [if_pos h, List.filter_singleton, decide_eq_true h]
    rfl
  · rw [if_neg h, List.filter_singleton, decide_eq_false h]
    rfl

theorem since_timesOf (start : Instant) (rows : List ServerAccessToken) :
    since start (timesOf userId serverId rows) =
      rows.countP fun row => row.userId = userId ∧ row.serverId = serverId ∧ row.issuedAt ≥ start := by
  rw [since, timesOf, List.countP_map, List.countP_filter]
  apply List.countP_congr
  intro row _
  simp only [Function.comp_apply, Bool.and_eq_true, decide_eq_true_eq]
  exact ⟨fun h => ⟨h.2.1, h.2.2, h.1⟩, fun h => ⟨h.2.2, h.1, h.2.1⟩⟩

theorem since_of_checkRateLimit {rows : List ServerAccessToken} {begun : Instant}
    (h : checkRateLimit settings rows userId serverId begun = .ok ()) :
    since (begun - minute) (timesOf userId serverId rows) < settings.maxTokensPerMinute := by
  rw [checkRateLimit] at h
  split at h
  · cases h
  · next hcount => exact by rwa [since_timesOf, ← Nat.not_le]

def Store.after (s : Store) (elapsed : Nat) : Store := { s with now := s.now + elapsed }

inductive Turned (jwt : Jwt τ) (settings : ServerAuthSettings) (keyId : String) (s : Store) :
    Phase τ → Store → Phase τ → Prop
  | begun (request) : Turned jwt settings keyId s (.generate request) s (.counting request s.now)
  | admitted (request begun) (hroom : since (begun - minute) (timesOf request.userId request.serverId s.rows) < settings.maxTokensPerMinute) :
      Turned jwt settings keyId s (.counting request begun) s (.admitted request s.now)
  | signed (request asOf) : Turned jwt settings keyId s (.admitted request asOf) s
      (.recording (rowFor settings keyId request s.now) (jwt.encode (claimsFor settings keyId request s.now)) asOf)
  | recorded (row token asOf) : Turned jwt settings keyId s (.recording row token asOf)
      { s with rows := s.rows ++ [row], issued := s.issued ++ [row] } (.issued token)
  | asked : Turned jwt settings keyId s .cleanup s (.cleaning s.now)
  | cleaned (begun) : Turned jwt settings keyId s (.cleaning begun)
      { s with rows := s.rows.filter fun row => ¬ row.expiresAt < begun - maxAgeDays * day } .cleaned
  | failed (p detail) : Turned jwt settings keyId s p s (.failed detail)

theorem advance_turned (h : advance jwt settings keyId i s p answer = some (t, q)) :
    Turned jwt settings keyId (s.after answer.elapsed) p t q := by
  cases p with
  | generate request =>
      simp only [advance] at h
      split at h <;> cases h
      · exact .failed _ _
      · exact .begun request
  | counting request begun =>
      simp only [advance] at h
      split at h
      · cases h
        exact .failed _ _
      · next hroom =>
          cases h
          exact .admitted request begun (since_of_checkRateLimit hroom)
  | admitted request asOf =>
      cases h
      exact .signed request asOf
  | recording row token asOf =>
      simp only [advance] at h
      split at h <;> cases h
      · exact .recorded row token asOf
      · exact .failed _ _
  | cleanup =>
      cases h
      exact .asked
  | cleaning begun =>
      simp only [advance] at h
      split at h <;> cases h
      · exact .cleaned begun
      · exact .failed _ _
  | issued | failed | cleaned => cases h

theorem Kept.after (h : Kept s) (elapsed : Nat) : Kept (s.after elapsed) where
  spans := h.spans
  recent userId serverId start hstart := by
    have helapsed := Int.natCast_nonneg elapsed
    have hlater : s.now - maxAgeDays * day ≤ start := by
      simp only [Store.after] at hstart
      linarith
    exact h.recent userId serverId start hlater

theorem Timely.after (h : Timely s p) (elapsed : Nat) : Timely (s.after elapsed) p := by
  cases p with
  | counting | cleaning | admitted =>
      have helapsed := Int.natCast_nonneg elapsed
      simp only [Timely, Store.after] at h ⊢
      linarith
  | recording => exact h
  | generate | issued | cleanup | failed | cleaned => trivial

theorem Timely.of_now (h : Timely s p) (hnow : t.now = s.now) : Timely t p := by
  cases p with
  | counting | cleaning | admitted =>
      rw [Timely] at h ⊢
      rwa [hnow]
  | recording => exact h
  | generate | issued | cleanup | failed | cleaned => trivial

theorem Turned.now (h : Turned jwt settings keyId s p t q) : t.now = s.now := by cases h <;> rfl

theorem since_cleaned {rows : List ServerAccessToken} {cutoff : Instant} (hspans : ∀ row ∈ rows, row.issuedAt ≤ row.expiresAt)
    (hstart : cutoff ≤ start) :
    since start (timesOf userId serverId (rows.filter fun row => ¬ row.expiresAt < cutoff)) = since start (timesOf userId serverId rows) := by
  rw [since_timesOf, since_timesOf, List.countP_filter]
  apply List.countP_congr
  intro row hrow
  have hspan := hspans row hrow
  simp only [Bool.and_eq_true, decide_eq_true_eq]
  refine ⟨fun h => h.1, fun h => ⟨h, ?_⟩⟩
  linarith [h.2.2]

theorem Turned.kept (hkept : Kept s) (htimely : Timely s p) (httl : 0 ≤ settings.serverAuthTokenTtl)
    (h : Turned jwt settings keyId s p t q) : Kept t ∧ Timely t q := by
  cases h with
  | begun | asked | admitted => exact ⟨hkept, Int.le_refl _⟩
  | failed => exact ⟨hkept, trivial⟩
  | signed request asOf =>
      refine ⟨hkept, htimely, ?_⟩
      have hsecond : 0 ≤ settings.serverAuthTokenTtl * second := Int.mul_nonneg httl (by decide)
      simp only [rowFor]
      linarith
  | recorded row token asOf =>
      refine ⟨⟨?_, fun userId serverId start hstart => ?_⟩, trivial⟩
      · rw [List.forall_mem_append, List.forall_mem_singleton]
        exact ⟨hkept.spans, htimely.2⟩
      · rw [timesOf_append, timesOf_append, since_concat, since_concat, hkept.recent userId serverId start hstart]
  | cleaned begun =>
      refine ⟨⟨fun row hrow => hkept.spans row (List.mem_filter.mp hrow).1, fun userId serverId start hstart => ?_⟩, trivial⟩
      have hbegun : begun ≤ s.now := htimely
      rw [since_cleaned hkept.spans (by dsimp only at hstart; linarith)]
      exact hkept.recent userId serverId start hstart

theorem Pending.between (h : Pending userId serverId start p) : Between userId serverId p := by
  cases p with
  | admitted | recording => exact ⟨h.1, h.2.1⟩
  | generate | counting | issued | cleanup | cleaning | failed | cleaned => exact h

theorem within_timesOf_append (rows : List ServerAccessToken) (row : ServerAccessToken) :
    within start minute (timesOf userId serverId (rows ++ [row])) = within start minute (timesOf userId serverId rows) +
      if (row.userId = userId ∧ row.serverId = serverId) ∧ start ≤ row.issuedAt ∧ row.issuedAt ≤ start + minute then 1 else 0 := by
  rw [timesOf_append, within, within, List.countP_append]
  by_cases hpair : row.userId = userId ∧ row.serverId = serverId
  · simp [hpair, List.countP_singleton]
  · simp [hpair]

/-- What a call that was let through may add has room: the last minute, as it was counted, holds every window that is
still open. -/
theorem room_of_admitted {calls : List (Phase τ)} {begun : Instant} {others : Nat}
    (hkept : Kept s) (hbegun : begun ≤ s.now)
    (hcount : since (begun - minute) (timesOf userId serverId s.rows) < settings.maxTokensPerMinute)
    (hothers : calls.countP (Between userId serverId ·) ≤ others) (hopen : s.now ≤ start + minute) :
    within start minute (timesOf userId serverId s.issued) + (calls.countP (Pending userId serverId start ·) + 1) ≤
      settings.maxTokensPerMinute + others := by
  have hrecent : s.now - maxAgeDays * day ≤ s.now - minute := by
    have hminute : minute ≤ maxAgeDays * day := by decide
    linarith
  have hpending : calls.countP (Pending userId serverId start ·) ≤ calls.countP (Between userId serverId ·) := by
    refine List.countP_mono_left fun p _ hp => ?_
    rw [decide_eq_true_eq] at hp ⊢
    exact hp.between
  have hwindow : within start minute (timesOf userId serverId s.issued) < settings.maxTokensPerMinute := by
    calc within start minute (timesOf userId serverId s.issued)
        ≤ since (s.now - minute) (timesOf userId serverId s.issued) := within_le_since (by linarith)
      _ = since (s.now - minute) (timesOf userId serverId s.rows) := (hkept.recent userId serverId _ hrecent).symm
      _ ≤ since (begun - minute) (timesOf userId serverId s.rows) := since_mono (by linarith)
      _ < settings.maxTokensPerMinute := hcount
  omega

theorem countP_pending_le {calls : List (Phase τ)} (hp : calls[i]? = some p)
    (h : Pending userId serverId start q → Pending userId serverId start p) :
    (calls.set i q).countP (Pending userId serverId start ·) ≤ calls.countP (Pending userId serverId start ·) := by
  have hset := countP_set hp q (Pending userId serverId start)
  by_cases hq : Pending userId serverId start q
  · rw [if_pos hq, if_pos (h hq)] at hset
    omega
  · rw [if_neg hq] at hset
    omega

theorem Room.turn {calls : List (Phase τ)} {others : Nat} (hroom : Room userId serverId (settings.maxTokensPerMinute + others) ⟨s, calls⟩)
    (hkept : Kept s) (htimely : Timely s p) (hp : calls[i]? = some p)
    (hothers : Counting userId serverId p → calls.countP (Between userId serverId ·) ≤ others)
    (h : Turned jwt settings keyId s p t q) :
    Room userId serverId (settings.maxTokensPerMinute + others) ⟨t, calls.set i q⟩ := by
  intro start
  have hroom := hroom start
  cases h with
  | begun | asked | failed | cleaned =>
      refine (Nat.add_le_add_left (countP_pending_le hp ?_) _).trans hroom
      exact False.elim
  | signed request asOf =>
      have hle := countP_pending_le (q := .recording (rowFor settings keyId request s.now)
        (jwt.encode (claimsFor settings keyId request s.now)) asOf) hp fun h : Pending userId serverId start _ => h
      exact (Nat.add_le_add_left hle _).trans hroom
  | recorded row token asOf =>
      have hset := countP_set hp (.issued token) (Pending userId serverId start)
      rw [if_neg (show ¬ Pending userId serverId start (.issued token) from id)] at hset
      dsimp only
      rw [within_timesOf_append]
      split
      · next hrow =>
          have hasOf : asOf ≤ start + minute := htimely.1.trans hrow.2.2
          rw [if_pos (show Pending userId serverId start (.recording row token asOf) from ⟨hrow.1.1, hrow.1.2, hasOf⟩)] at hset
          dsimp only at hroom
          omega
      · dsimp only at hroom
        omega
  | admitted request begun hcount =>
      by_cases hpending : Pending userId serverId start (.admitted (τ := τ) request s.now)
      · obtain ⟨rfl, rfl, hopen⟩ := hpending
        have hset := countP_set hp (.admitted request s.now) (Pending request.userId request.serverId start)
        have hle := room_of_admitted hkept htimely hcount (hothers ⟨rfl, rfl⟩) hopen
        rw [if_pos (show Pending request.userId request.serverId start (.admitted request s.now) from ⟨rfl, rfl, hopen⟩),
          if_neg (show ¬ Pending request.userId request.serverId start (.counting request begun) from id)] at hset
        dsimp only
        omega
      · exact (Nat.add_le_add_left (countP_pending_le hp fun h => absurd h hpending) _).trans hroom

variable {others : Nat}

def Held (settings : ServerAuthSettings) (userId serverId : Uuid) (others : Nat) (s : System Store (Phase τ)) : Prop :=
  Sound Kept (fun _ => Timely) s ∧ Room userId serverId (settings.maxTokensPerMinute + others) s

theorem held_step {s t : System Store (Phase τ)} {e : Event Request Answer} (httl : 0 ≤ settings.serverAuthTokenTtl)
    (hs : Held settings userId serverId others s) (ho : Overlaps userId serverId others s e)
    (ht : step begin (advance jwt settings keyId) s e = some t) : Held settings userId serverId others t := by
  obtain ⟨hsound, hroom⟩ := hs
  cases e with
  | call request =>
      rw [step_call ht]
      refine ⟨hsound.call request fun _ => by cases request <;> trivial, fun start => ?_⟩
      have hroom := hroom start
      have hquiet : ¬ Pending userId serverId start (begin (τ := τ) request) := by cases request <;> exact id
      dsimp only
      rw [List.countP_append, List.countP_singleton, if_neg (by simpa using hquiet)]
      exact hroom
  | turn i answer =>
      obtain ⟨p, q, u, hp, hq, rfl⟩ := step_turn ht
      have hturned := advance_turned hq
      have hkept := hsound.1.after answer.elapsed
      have htimely := (hsound.2 i p hp).after answer.elapsed
      obtain ⟨hkept', htimely'⟩ := hturned.kept hkept htimely httl
      refine ⟨hsound.turn hkept' htimely' fun j r _ _ hr => ?_, ?_⟩
      · exact (hr.after answer.elapsed).of_now hturned.now
      · exact Room.turn (s := s.shared.after answer.elapsed) hroom hkept htimely hp (fun hcounting => ho ⟨p, hp, hcounting⟩) hturned

/-- A call that no other comes between, at one instant, is the handler told in one piece. -/
theorem alone_generate {request : TokenRequest} {token : τ} {rows : List ServerAccessToken}
    (h : generateAccessToken jwt settings keyId s.rows request s.now = .ok (token, rows)) :
    alone (advance jwt settings keyId) ⟨0, true⟩ 4 s (.generate request) =
      (⟨rows, s.now, s.issued ++ [rowFor settings keyId request s.now]⟩, .issued token) := by
  have hnow : s.now + ((0 : Nat) : Int) = s.now := Int.add_zero _
  by_cases henabled : settings.serverAuthEnabled = true
  · cases hlimit : checkRateLimit settings s.rows request.userId request.serverId s.now with
    | error detail => simp [generateAccessToken, henabled, hlimit, bind, Except.bind] at h
    | ok _ =>
        simp only [generateAccessToken, henabled, hlimit, bind, Except.bind, pure, Except.pure, not_true_eq_false, if_false] at h
        cases h
        simp only [alone, advance, henabled, not_true_eq_false, if_false, hnow, hlimit, if_true]
        rfl
  · simp [generateAccessToken, henabled, bind, Except.bind] at h

/-- However the calls come between one another, no minute sees more tokens of a user for a server than the limit and
the calls that overlapped. -/
theorem tokens_bounded (jwt : Jwt τ) {settings : ServerAuthSettings} (keyId : String) (userId serverId : Uuid) {others : Nat}
    {now : Instant} (httl : 0 ≤ settings.serverAuthTokenTtl) {events : List (Event Request Answer)}
    (h : AllSteps (step begin (advance jwt settings keyId)) (Overlaps userId serverId others) ⟨⟨[], now, []⟩, []⟩ events) :
    AllStates (step begin (advance jwt settings keyId))
      (fun s => Bounded minute (settings.maxTokensPerMinute + others) (timesOf userId serverId s.shared.issued))
      ⟨⟨[], now, []⟩, []⟩ events := by
  have hstart : Held (τ := τ) settings userId serverId others ⟨⟨[], now, []⟩, []⟩ :=
    ⟨⟨⟨fun _ h => (nomatch h), fun _ _ _ _ => rfl⟩, fun _ _ h => (nomatch h)⟩, fun _ => Nat.zero_le _⟩
  have hheld := allStates_of_allSteps (fun s e t hs ho ht => held_step httl hs ho ht) hstart h
  exact hheld.mono fun s hs start => (Nat.le_add_right _ _).trans (hs.2 start)

end

section Overlap

def unsigned : Jwt Unit := ⟨fun _ => (), fun _ _ _ => .error "Signature verification failed"⟩

def onePerMinute : ServerAuthSettings := ⟨"nukelab", true, 300, 1⟩

def request (jti : Uuid) : TokenRequest := ⟨1, 2, none, none, "session", [], jti, jti⟩

def overlapping : List (Event Request Answer) :=
  [.call (.generate (request 3)), .call (.generate (request 4)), .turn 0 ⟨1, true⟩, .turn 1 ⟨1, true⟩, .turn 0 ⟨1, true⟩,
    .turn 1 ⟨1, true⟩, .turn 0 ⟨1, true⟩, .turn 0 ⟨1, true⟩, .turn 1 ⟨1, true⟩, .turn 1 ⟨1, true⟩]

theorem tokens_bounded_overlapping :
    (run (step begin (advance unsigned onePerMinute "kid")) ⟨⟨[], 0, []⟩, []⟩ overlapping).map (fun s => s.shared.issued.length) =
        some 2 ∧
      AllStates (step begin (advance unsigned onePerMinute "kid")) (fun s => Bounded minute (1 + 1) (timesOf 2 1 s.shared.issued))
        ⟨⟨[], 0, []⟩, []⟩ overlapping :=
  ⟨by decide +kernel, tokens_bounded unsigned "kid" 2 1 (by decide) (by decide +kernel)⟩

end Overlap

end NukeLab.TokenIssuance
