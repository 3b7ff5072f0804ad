import NukeLab.AuthSidecar
import NukeLab.KeyedRuns
import NukeLab.SlidingWindows

namespace NukeLab.LimiterWindows

open AuthSidecar KeyedRuns Records SlidingWindows

abbrev Arrival := String × Instant

section Sidecar

def resets (rl : RateLimiter) (now : Instant) (ip : String) : Bool :=
  (rl.buckets ip).all fun b => now - b.lastReset > rl.window

structure Verdict where
  reset : Bool
  allowed : Bool
  deriving DecidableEq

/-- The requests with what the sidecar decides on them, one after the other. -/
def verdicts (rl : RateLimiter) : List Arrival → List (String × Instant × Verdict)
  | [] => []
  | (ip, now) :: rest =>
    let out := rl.allow now ip
    (ip, now, ⟨resets rl now ip, out.1⟩) :: verdicts out.2 rest

def sinceReset (past : List (Instant × Verdict)) : List (Instant × Verdict) :=
  past.foldl (fun made x => if x.2.reset then [x] else made ++ [x]) []

def allowedTimes (past : List (Instant × Verdict)) : List Instant := (past.filter fun x => x.2.allowed).map Prod.fst

end Sidecar

section Maintenance

def rateLimitMax : Nat := 30

def rateLimitWindow : Int := 60 * second

/-- The times of each address. Clock readings are subtracted exactly. -/
abbrev RequestLog := String → List Instant

def isRateLimited (log : RequestLog) (now : Instant) (ip : String) : Bool × RequestLog :=
  let timestamps := (log ip).filter fun t => now - t < rateLimitWindow
  if timestamps.length ≥ rateLimitMax then (true, Function.update log ip timestamps)
  else (false, Function.update log ip (timestamps ++ [now]))

/-- The requests with whether they are refused, one after the other. -/
def refusals (log : RequestLog) : List Arrival → List (String × Instant × Bool)
  | [] => []
  | (ip, now) :: rest =>
    let out := isRateLimited log now ip
    (ip, now, out.1) :: refusals out.2 rest

def passedTimes (past : List (Instant × Bool)) : List Instant := (past.filter fun x => !x.2).map Prod.fst

end Maintenance

section Buckets

variable {requests window : Int} {b : Option Bucket} {now : Instant}

def filled (requests window : Int) (b : Option Bucket) (now : Instant) : Bucket :=
  let found := b.getD ⟨requests, now⟩
  if now - found.lastReset > window then ⟨requests, now⟩ else found

def taken (b : Bucket) : Bucket := if b.tokens ≤ 0 then b else { b with tokens := b.tokens - 1 }

def serve (requests window : Int) (b : Option Bucket) (now : Instant) : Option Bucket × Verdict :=
  let found := filled requests window b now
  (some (taken found), ⟨b.all fun b => now - b.lastReset > window, decide (0 < found.tokens)⟩)

theorem allow_eq (rl : RateLimiter) (now : Instant) (ip : String) :
    rl.allow now ip = ((serve rl.requests rl.window (rl.buckets ip) now).2.allowed,
      { rl with buckets := Function.update rl.buckets ip (serve rl.requests rl.window (rl.buckets ip) now).1 }) := by
  have hfilled : rl.refilled now ip = filled rl.requests rl.window (rl.buckets ip) now := rfl
  rw [RateLimiter.allow, serve, hfilled, taken]
  dsimp only
  by_cases h : (filled rl.requests rl.window (rl.buckets ip) now).tokens ≤ 0
  · rw [if_pos h, if_pos h, decide_eq_false (by omega)]
    rfl
  · rw [if_neg h, if_neg h, decide_eq_true (by omega)]
    rfl

theorem serve_reset (h : b.all fun b => now - b.lastReset > window) :
    serve requests window b now = (some (taken ⟨requests, now⟩), ⟨true, decide (0 < requests)⟩) := by
  have hfilled : filled requests window b now = ⟨requests, now⟩ := by
    rw [filled]
    cases b with
    | none => exact ite_self _
    | some b => exact if_pos (of_decide_eq_true h)
  rw [serve, hfilled, h]

theorem serve_kept {b : Bucket} (h : ¬ now - b.lastReset > window) :
    serve requests window (some b) now = (some (taken b), ⟨false, decide (0 < b.tokens)⟩) := by
  have hfilled : filled requests window (some b) now = b := if_neg h
  have hreset : (some b).all (fun b => now - b.lastReset > window) = false := decide_eq_false h
  rw [serve, hfilled, hreset]

theorem toNat_taken (b : Bucket) : (taken b).tokens.toNat + (if 0 < b.tokens then 1 else 0) = b.tokens.toNat := by
  rw [taken]
  split
  next h => rw [if_neg (by omega), Nat.add_zero]
  next h =>
    rw [if_pos (by omega)]
    dsimp only
    omega

theorem lastReset_taken (b : Bucket) : (taken b).lastReset = b.lastReset := by
  rw [taken]
  split <;> rfl

theorem verdicts_eq (rl : RateLimiter) (arrivals : List Arrival) :
    verdicts rl arrivals = run (serve rl.requests rl.window) rl.buckets arrivals := by
  induction arrivals generalizing rl with
  | nil => rfl
  | cons x rest ih =>
      obtain ⟨ip, now⟩ := x
      rw [verdicts, run, ih, allow_eq]
      rfl

theorem sinceReset_append (past : List (Instant × Verdict)) (x : Instant × Verdict) :
    sinceReset (past ++ [x]) = if x.2.reset then [x] else sinceReset past ++ [x] := by
  rw [sinceReset, List.foldl_append]
  rfl

theorem allowedTimes_append (past rest : List (Instant × Verdict)) :
    allowedTimes (past ++ rest) = allowedTimes past ++ allowedTimes rest := by
  rw [allowedTimes, List.filter_append, List.map_append, allowedTimes, allowedTimes]

theorem allowedTimes_singleton (now : Instant) (reset allowed : Bool) :
    allowedTimes [(now, ⟨reset, allowed⟩)] = if allowed then [now] else [] := by
  cases allowed <;> rfl

theorem mem_allowedTimes {past : List (Instant × Verdict)} {t : Instant} (h : t ∈ allowedTimes past) :
    ∃ x ∈ past, x.1 = t := by
  obtain ⟨x, hx, rfl⟩ := List.mem_map.mp h
  exact ⟨x, List.mem_of_mem_filter hx, rfl⟩

/-- What the bucket tells of the requests so far: how many came since the last reset, that
no more of them were allowed than tokens have gone, and that no more than the tokens
of one bucket were within a window before. -/
structure Metered (requests window : Int) (past : List (Instant × Verdict)) (b : Bucket) : Prop where
  counted : b.tokens.toNat = (requests - (sinceReset past).length).toNat
  spent : (allowedTimes (sinceReset past)).length + b.tokens.toNat ≤ requests.toNat
  started : ∃ x ∈ past, x.1 = b.lastReset
  earlier : ∃ before, past = before ++ sinceReset past ∧ (∀ x ∈ before, x.1 ≤ b.lastReset) ∧
    since (b.lastReset - window) (allowedTimes before) ≤ requests.toNat
  bounded : Bounded window (2 * requests.toNat) (allowedTimes past)

def MeteredOrNew (requests window : Int) (past : List (Instant × Verdict)) : Option Bucket → Prop
  | none => past = []
  | some b => Metered requests window past b

theorem metered_reset {past : List (Instant × Verdict)} (hnow : ∀ x ∈ past, x.1 ≤ now)
    (hsince : since (now - window) (allowedTimes past) ≤ requests.toNat)
    (hbounded : Bounded window (2 * requests.toNat) (allowedTimes past)) :
    Metered requests window (past ++ [(now, ⟨true, decide (0 < requests)⟩)]) (taken ⟨requests, now⟩) := by
  have hreset : sinceReset (past ++ [(now, ⟨true, decide (0 < requests)⟩)]) = [(now, ⟨true, decide (0 < requests)⟩)] := by
    rw [sinceReset_append, if_pos rfl]
  have htaken : (taken ⟨requests, now⟩).tokens.toNat + (if 0 < requests then 1 else 0) = requests.toNat :=
    toNat_taken ⟨requests, now⟩
  constructor
  · rw [hreset, List.length_singleton]
    split at htaken <;> omega
  · rw [hreset, allowedTimes_singleton]
    by_cases h : 0 < requests
    · rw [if_pos h] at htaken
      rw [if_pos (decide_eq_true h), List.length_singleton]
      omega
    · rw [if_neg h] at htaken
      rw [if_neg (by simpa using h), List.length_nil]
      omega
  · exact ⟨_, List.mem_append_right _ (List.mem_singleton_self _), (lastReset_taken ⟨requests, now⟩).symm⟩
  · rw [hreset, lastReset_taken]
    exact ⟨past, rfl, hnow, hsince⟩
  · rw [allowedTimes_append, allowedTimes_singleton]
    by_cases h : 0 < requests
    · rw [if_pos (decide_eq_true h)]
      exact hbounded.append (by omega)
    · rw [if_neg (by simpa using h), List.append_nil]
      exact hbounded

theorem metered_kept {past : List (Instant × Verdict)} {b : Bucket} (hnow : ∀ x ∈ past, x.1 ≤ now)
    (h : Metered requests window past b) :
    Metered requests window (past ++ [(now, ⟨false, decide (0 < b.tokens)⟩)]) (taken b) := by
  have hsinceReset : sinceReset (past ++ [(now, ⟨false, decide (0 < b.tokens)⟩)]) =
      sinceReset past ++ [(now, ⟨false, decide (0 < b.tokens)⟩)] := by
    rw [sinceReset_append, if_neg Bool.false_ne_true]
  have htaken := toNat_taken b
  have hcounted := h.counted
  have hspent := h.spent
  obtain ⟨x, hx, hstart⟩ := h.started
  obtain ⟨before, hpast, hbefore, hsince⟩ := h.earlier
  constructor
  · rw [hsinceReset, List.length_append, List.length_singleton]
    split at htaken <;> omega
  · rw [hsinceReset, allowedTimes_append, allowedTimes_singleton, List.length_append]
    by_cases hpos : 0 < b.tokens
    · rw [if_pos hpos] at htaken
      rw [if_pos (decide_eq_true hpos), List.length_singleton]
      omega
    · rw [if_neg hpos] at htaken
      rw [if_neg (by simpa using hpos), List.length_nil]
      omega
  · exact ⟨x, List.mem_append_left _ hx, hstart.trans (lastReset_taken b).symm⟩
  · refine ⟨before, ?_, ?_⟩
    · rw [hsinceReset, ← List.append_assoc, ← hpast]
    · rw [lastReset_taken]
      exact ⟨hbefore, hsince⟩
  · rw [allowedTimes_append, allowedTimes_singleton]
    by_cases hpos : 0 < b.tokens
    · rw [if_pos (decide_eq_true hpos)]
      apply h.bounded.append
      have hle : b.lastReset ≤ now := hstart ▸ hnow x hx
      have hold : since (now - window) (allowedTimes before) ≤ since (b.lastReset - window) (allowedTimes before) :=
        since_mono (Int.sub_le_sub_right hle window)
      have hnew := since_le_length (now - window) (allowedTimes (sinceReset past))
      rw [hpast, allowedTimes_append, since_concat]
      omega
    · rw [if_neg (by simpa using hpos), List.append_nil]
      exact h.bounded

theorem Metered.since_passed {past : List (Instant × Verdict)} {b : Bucket} (h : Metered requests window past b)
    (hpassed : now - b.lastReset > window) : since (now - window) (allowedTimes past) ≤ requests.toNat := by
  obtain ⟨before, hpast, hbefore, -⟩ := h.earlier
  have hold : since (now - window) (allowedTimes before) = 0 := by
    apply since_eq_zero
    intro t ht
    obtain ⟨x, hx, rfl⟩ := mem_allowedTimes ht
    have hreset : b.lastReset < now - window := lt_sub_comm.mp hpassed
    exact Int.lt_of_le_of_lt (hbefore x hx) hreset
  have hnew := since_le_length (now - window) (allowedTimes (sinceReset past))
  have hspent := h.spent
  rw [hpast, allowedTimes_append, since_concat]
  omega

theorem metered_step {past : List (Instant × Verdict)} (hnow : ∀ x ∈ past, x.1 ≤ now)
    (h : MeteredOrNew requests window past b) :
    MeteredOrNew requests window (past ++ [(now, (serve requests window b now).2)]) (serve requests window b now).1 := by
  cases b with
  | none =>
      obtain rfl : past = [] := h
      rw [serve_reset rfl]
      exact metered_reset hnow (Nat.zero_le _) bounded_nil
  | some b =>
      have h : Metered requests window past b := h
      by_cases hpassed : now - b.lastReset > window
      · rw [serve_reset (b := some b) (decide_eq_true hpassed)]
        exact metered_reset hnow (h.since_passed hpassed) h.bounded
      · rw [serve_kept hpassed]
        exact metered_kept hnow h

/-- A request is allowed while no more have come since the reset, with itself, than a bucket holds. -/
theorem allowed_iff {past : List (Instant × Verdict)} (h : MeteredOrNew requests window past b) :
    (serve requests window b now).2.allowed = true ↔
      (sinceReset (past ++ [(now, (serve requests window b now).2)])).length ≤ requests := by
  rw [sinceReset_append]
  cases b with
  | none =>
      rw [serve_reset rfl, if_pos rfl, List.length_singleton]
      exact decide_eq_true_iff
  | some b =>
      have h : Metered requests window past b := h
      by_cases hpassed : now - b.lastReset > window
      · rw [serve_reset (b := some b) (decide_eq_true hpassed), if_pos rfl, List.length_singleton]
        exact decide_eq_true_iff
      · rw [serve_kept hpassed, if_neg Bool.false_ne_true, List.length_append, List.length_singleton]
        have hcounted := h.counted
        rw [decide_eq_true_iff]
        push_cast
        omega

end Buckets

section Logs

variable {now : Instant}

def check (times : List Instant) (now : Instant) : List Instant × Bool :=
  let timestamps := times.filter fun t => now - t < rateLimitWindow
  if timestamps.length ≥ rateLimitMax then (timestamps, true) else (timestamps ++ [now], false)

theorem isRateLimited_eq (log : RequestLog) (now : Instant) (ip : String) :
    isRateLimited log now ip = ((check (log ip) now).2, Function.update log ip (check (log ip) now).1) := by
  rw [isRateLimited, check]
  split <;> rfl

theorem refusals_eq (log : RequestLog) (arrivals : List Arrival) : refusals log arrivals = run check log arrivals := by
  induction arrivals generalizing log with
  | nil => rfl
  | cons x rest ih =>
      obtain ⟨ip, now⟩ := x
      rw [refusals, run, ih, isRateLimited_eq]

theorem passedTimes_append (past rest : List (Instant × Bool)) :
    passedTimes (past ++ rest) = passedTimes past ++ passedTimes rest := by
  rw [passedTimes, List.filter_append, List.map_append, passedTimes, passedTimes]

theorem filter_later {now' : Instant} (h : now ≤ now') (times : List Instant) :
    (times.filter fun t => now - t < rateLimitWindow).filter (fun t => now' - t < rateLimitWindow) =
      times.filter fun t => now' - t < rateLimitWindow := by
  rw [List.filter_filter]
  refine List.filter_congr fun t _ => ?_
  rw [Bool.and_eq_left_iff_imp]
  intro ht
  have hsub := Int.sub_le_sub_right h t
  exact decide_eq_true (Int.lt_of_le_of_lt hsub (of_decide_eq_true ht))

/-- The log has what was let pass, as far as any window reaches back. -/
structure Logged (past : List (Instant × Bool)) (times : List Instant) : Prop where
  kept : ∀ now, (∀ x ∈ past, x.1 ≤ now) → (times.filter fun t => now - t < rateLimitWindow) =
    (passedTimes past).filter fun t => now - t < rateLimitWindow
  bounded : ∀ length < rateLimitWindow, Bounded length rateLimitMax (passedTimes past)

theorem refused_iff {past : List (Instant × Bool)} {times : List Instant} (h : Logged past times)
    (hnow : ∀ x ∈ past, x.1 ≤ now) :
    (check times now).2 = true ↔ rateLimitMax ≤ ((passedTimes past).filter fun t => now - t < rateLimitWindow).length := by
  rw [check, h.kept now hnow]
  split
  next hle => exact iff_of_true rfl hle
  next hlt => exact iff_of_false Bool.false_ne_true hlt

theorem logged_step {past : List (Instant × Bool)} {times : List Instant} (hnow : ∀ x ∈ past, x.1 ≤ now)
    (h : Logged past times) : Logged (past ++ [(now, (check times now).2)]) (check times now).1 := by
  rw [check, h.kept now hnow]
  split
  next hle =>
    have hpassed : passedTimes (past ++ [(now, true)]) = passedTimes past := by
      rw [passedTimes_append]
      exact List.append_nil _
    constructor
    · intro now' hnow'
      rw [hpassed, filter_later (hnow' (now, true) (List.mem_append_right _ (List.mem_singleton_self _)))]
    · rw [hpassed]
      exact h.bounded
  next hlt =>
    have hpassed : passedTimes (past ++ [(now, false)]) = passedTimes past ++ [now] := passedTimes_append _ _
    constructor
    · intro now' hnow'
      rw [hpassed, List.filter_append, List.filter_append,
        filter_later (hnow' (now, false) (List.mem_append_right _ (List.mem_singleton_self _)))]
    · intro length hlength
      rw [hpassed]
      apply (h.bounded length hlength).append
      have hroom := Nat.lt_of_not_ge hlt
      rw [← List.countP_eq_length_filter] at hroom
      refine Nat.lt_of_le_of_lt (List.countP_mono_left fun t _ ht => ?_) hroom
      have hlast : now - t ≤ length := sub_le_comm.mp (of_decide_eq_true ht)
      exact decide_eq_true (Int.lt_of_le_of_lt hlast hlength)

theorem check_refused {now' : Instant} {times : List Instant} (hrefused : (check times now).2 = true) (h : now ≤ now') :
    check (check times now).1 now' = check times now' := by
  have hfound : (check times now).1 = times.filter fun t => now - t < rateLimitWindow := by
    rw [check] at hrefused ⊢
    split at hrefused
    next hle => rw [if_pos hle]
    next => cases hrefused
  rw [hfound, check, check, filter_later h]

end Logs

section Runs

variable {requests window : Int} {arrivals : List Arrival} {ip : String}

/-- What holds of the sidecar's limiter. A request counts among those since the reset. -/
structure SidecarWindows (requests window : Int) (arrivals : List Arrival) : Prop where
  bounded : ∀ ip start length, length ≤ window →
    within start length (allowedTimes (ofKey ip (verdicts (newRateLimiter requests window) arrivals))) ≤ 2 * requests.toNat
  allowed : ∀ ip before x after, ofKey ip (verdicts (newRateLimiter requests window) arrivals) = before ++ x :: after →
    (sinceReset (before ++ [x])).length ≤ requests → x.2.allowed = true
  apart : ∀ ip arrivals', ofKey ip arrivals' = ofKey ip arrivals →
    ofKey ip (verdicts (newRateLimiter requests window) arrivals') =
      ofKey ip (verdicts (newRateLimiter requests window) arrivals)

def emptyLog : RequestLog := fun _ => []

/-- What holds of the middleware's limiter. A request that is refused can be left out. -/
structure MiddlewareWindows (arrivals : List Arrival) : Prop where
  bounded : ∀ ip start length, length < rateLimitWindow →
    within start length (passedTimes (ofKey ip (refusals emptyLog arrivals))) ≤ rateLimitMax
  leftOut : ∀ before ip now after, arrivals = before ++ (ip, now) :: after →
    refusals emptyLog (before ++ [(ip, now)]) = refusals emptyLog before ++ [(ip, now, true)] →
      refusals emptyLog arrivals =
        refusals emptyLog before ++ (ip, now, true) :: (refusals emptyLog (before ++ after)).drop before.length
  apart : ∀ ip arrivals', ofKey ip arrivals' = ofKey ip arrivals →
    ofKey ip (refusals emptyLog arrivals') = ofKey ip (refusals emptyLog arrivals)

theorem ordered_ofKey (h : (arrivals.map Prod.snd).Pairwise (· ≤ ·)) (ip : String) :
    (ofKey ip arrivals).Pairwise (· ≤ ·) :=
  h.sublist (ofKey_sublist ip arrivals)

theorem sidecarWindows (h : (arrivals.map Prod.snd).Pairwise (· ≤ ·)) (requests window : Int) :
    SidecarWindows requests window arrivals := by
  have hnew : ∀ arrivals, verdicts (newRateLimiter requests window) arrivals =
      run (serve requests window) (fun _ => none) arrivals := verdicts_eq _
  have hstart : MeteredOrNew requests window [] none := rfl
  constructor
  · intro ip start length hlength
    obtain ⟨b, hb⟩ := outputs_history (MeteredOrNew requests window)
      (fun past b now hnow hb => metered_step hnow hb) hstart (ordered_ofKey h ip)
    rw [hnew, ofKey_run]
    rw [List.nil_append] at hb
    cases b with
    | none =>
        have hnone : outputs (serve requests window) none (ofKey ip arrivals) = [] := hb
        rw [hnone]
        exact Nat.zero_le _
    | some b =>
        have hb : Metered requests window _ b := hb
        exact hb.bounded.mono hlength start
  · intro ip before x after hsplit
    rw [hnew, ofKey_run] at hsplit
    obtain ⟨b, hb, hx, -⟩ := outputs_split (MeteredOrNew requests window)
      (fun past b now hnow hb => metered_step hnow hb) hstart (ordered_ofKey h ip) hsplit
    rw [List.nil_append] at hb
    obtain ⟨now, verdict⟩ := x
    obtain rfl : verdict = (serve requests window b now).2 := hx
    exact (allowed_iff hb).mpr
  · intro ip arrivals' hsame
    rw [hnew, hnew, ofKey_run, ofKey_run, hsame]

theorem middlewareWindows (h : (arrivals.map Prod.snd).Pairwise (· ≤ ·)) : MiddlewareWindows arrivals := by
  constructor
  · intro ip start length hlength
    have hstart : Logged [] (emptyLog ip) := ⟨fun _ _ => rfl, fun _ _ => bounded_nil⟩
    obtain ⟨times, htimes⟩ := outputs_history Logged (fun past times now hnow htimes => logged_step hnow htimes)
      hstart (ordered_ofKey h ip)
    rw [refusals_eq, ofKey_run]
    exact htimes.bounded length hlength start
  · rintro before ip now after rfl hrefused
    rw [refusals_eq, refusals_eq, run_append] at hrefused
    rw [refusals_eq, refusals_eq, refusals_eq, run_append, run_append, List.drop_left' length_run]
    obtain ⟨hlast, -⟩ := List.cons.inj (List.append_cancel_left hrefused)
    rw [run, hlast]
    congr 2
    apply run_congr
    intro key event hevent
    by_cases hkey : key = ip
    · subst hkey
      rw [Function.update_self]
      apply check_refused (congrArg (fun row => row.2.2) hlast)
      rw [List.map_append, List.map_cons] at h
      have hafter := (List.pairwise_append.mp h).2.1
      exact (List.pairwise_cons.mp hafter).1 event.2 (List.mem_map_of_mem hevent)
    · rw [Function.update_of_ne hkey]
  · intro ip arrivals' hsame
    rw [refusals_eq, refusals_eq, ofKey_run, ofKey_run, hsame]

/-- Both limiters hold every address to its bound in every interval, and to nothing else. -/
theorem windows_bounded (h : (arrivals.map Prod.snd).Pairwise (· ≤ ·)) :
    (∀ requests window, SidecarWindows requests window arrivals) ∧ MiddlewareWindows arrivals :=
  ⟨sidecarWindows h, middlewareWindows h⟩

def visits : List Arrival :=
  [("192.0.2.1", 0), ("192.0.2.2", second), ("192.0.2.1", 2 * second), ("192.0.2.1", 62 * second)]

theorem windows_visits : (∀ requests window, SidecarWindows requests window visits) ∧ MiddlewareWindows visits :=
  windows_bounded (by decide)

end Runs

end NukeLab.LimiterWindows
