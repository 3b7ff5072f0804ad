import Mathlib.Tactic.Linarith
import NukeLab.Interleaving
import NukeLab.IpRestrictions

namespace NukeLab.RestrictionCaches

open Machine Interleaving Records State IpRestrictions

structure Version where
  since : Instant
  restrictions : Restrictions

/-- What a worker has read, and when it was through with it. -/
structure Cache where
  entries : List IPRestriction
  cachedAt : Instant

/-- The versions are those before the current one, the latest first. -/
structure Store where
  now : Instant
  current : Version
  past : List Version
  caches : Nat → Option Cache

inductive Request
  | enter (worker : Nat) (path clientIp : String)
  | create (worker : Nat) (id : Uuid) (req : IPRestrictionCreate) (clientIp : String)
  | delete (worker : Nat) (restrictionId : String)

inductive Ground
  | exempt
  | cached
  | queried
  | failedOpen
  deriving DecidableEq

inductive Phase
  | asked (request : Request)
  | querying (worker : Nat) (clientIp : String)
  | fetched (worker : Nat) (clientIp : String) (entries : List IPRestriction) (readAt : Instant)
  | answered (ground : Ground) (clientIp : String) (denied : Option String) (answeredAt : Instant)
  | committed (worker : Nat)
  | refused (raise : Raise)
  | closed

/-- The time that has passed since the turn before, and whether the database fails. -/
structure Answer where
  elapsed : Nat
  fails : Bool

def cacheTtl : Int := 30 * second

def Store.keep (s : Store) (worker : Nat) (cache : Option Cache) : Store :=
  { s with caches := Function.update s.caches worker cache }

def commit (s : Store) (restrictions : Restrictions) : Store :=
  { s with current := ⟨s.now, restrictions⟩, past := s.current :: s.past }

def write (s : Store) (worker : Nat) : Except Raise Restrictions → Store × Phase
  | .error raise => (s, .refused raise)
  | .ok restrictions => (commit s restrictions, .committed worker)

def ask (s : Store) (fails : Bool) : Request → Store × Phase
  | .enter worker path clientIp =>
    if isExempt path then (s, .answered .exempt clientIp none s.now)
    else
      match s.caches worker with
      | some cache =>
        if s.now - cache.cachedAt < cacheTtl then (s, .answered .cached clientIp (denial cache.entries clientIp) s.now)
        else (s, .querying worker clientIp)
      | none => (s, .querying worker clientIp)
  | .create worker id req clientIp =>
    if fails then (s, .refused (.exception "OperationalError"))
    else write s worker (createIpRestriction s.current.restrictions id req clientIp)
  | .delete worker restrictionId =>
    if fails then (s, .refused (.exception "OperationalError"))
    else write s worker (deleteIpRestriction s.current.restrictions restrictionId)

/-- A statement on the database, or what a worker does up to the next one. -/
def turn (s : Store) (fails : Bool) : Phase → Option (Store × Phase)
  | .asked request => some (ask s fails request)
  | .querying worker clientIp =>
    if fails then some (s, .answered .failedOpen clientIp none s.now)
    else some (s, .fetched worker clientIp (active s.current.restrictions) s.now)
  | .fetched worker clientIp entries _ =>
    some (s.keep worker (some ⟨entries, s.now⟩), .answered .queried clientIp (denial entries clientIp) s.now)
  | .committed worker => some (s.keep worker none, .closed)
  | .answered _ _ _ _ | .refused _ | .closed => none

def advance : Advance Store Phase Answer := fun _ s p answer => turn { s with now := s.now + answer.elapsed } answer.fails p

abbrev Event := Interleaving.Event Request Answer

def InForce (s : Store) (entries : List IPRestriction) (time : Instant) : Prop :=
  ∃ later v earlier, s.current :: s.past = later ++ v :: earlier ∧ entries = active v.restrictions ∧ v.since ≤ time ∧
    ∀ u ∈ later, time ≤ u.since

/-- The verdict on entries that were in force less than so long before, unless
the path is exempt or the database has failed. -/
def Recent (bound : Int) (s : Store) : Phase → Prop
  | .answered ground clientIp denied answeredAt =>
    match ground with
    | .exempt | .failedOpen => denied = none
    | .cached | .queried => ∃ entries readAt, InForce s entries readAt ∧ readAt ≤ answeredAt ∧
        answeredAt < readAt + bound ∧ denied = denial entries clientIp
  | _ => True

def Prompt (delay : Nat) (_ : Nat) (s : Store) : Phase → Answer → Prop
  | .fetched _ _ _ readAt, answer => s.now + answer.elapsed ≤ readAt + delay
  | _, _ => True

instance (delay : Nat) (i : Nat) (s : Store) (p : Phase) (answer : Answer) : Decidable (Prompt delay i s p answer) :=
  match p with
  | .fetched _ _ _ readAt => inferInstanceAs (Decidable (s.now + answer.elapsed ≤ readAt + delay))
  | .asked _ | .querying _ _ | .answered _ _ _ _ | .committed _ | .refused _ | .closed => .isTrue trivial

structure Kept (delay : Nat) (s : Store) : Prop where
  current : s.current.since ≤ s.now
  caches : ∀ worker, ∀ cache ∈ s.caches worker, ∃ readAt, InForce s cache.entries readAt ∧ readAt ≤ cache.cachedAt ∧
    cache.cachedAt ≤ s.now ∧ cache.cachedAt ≤ readAt + delay

def Local (delay : Nat) (_ : Nat) (s : Store) : Phase → Prop
  | .fetched _ _ entries readAt => readAt ≤ s.now ∧ InForce s entries readAt
  | .answered ground clientIp denied answeredAt =>
    answeredAt ≤ s.now ∧ Recent (cacheTtl + delay) s (.answered ground clientIp denied answeredAt)
  | _ => True

structure Later (s u : Store) : Prop where
  now : s.now ≤ u.now
  versions : u.current :: u.past = s.current :: s.past ∨
    u.past = s.current :: s.past ∧ s.now ≤ u.current.since

variable {delay : Nat} {i : Nat} {s u : Store} {p q : Phase} {answer : Answer} {fails : Bool} {entries : List IPRestriction}
  {time : Instant}

theorem Later.inForce (h : Later s u) (htime : time ≤ s.now) (hs : InForce s entries time) : InForce u entries time := by
  obtain ⟨later, v, earlier, hsplit, hrest⟩ := hs
  obtain hsame | ⟨hpast, hcurrent⟩ := h.versions
  · exact ⟨later, v, earlier, hsame.trans hsplit, hrest⟩
  · obtain ⟨hentries, hsince, hlater⟩ := hrest
    refine ⟨u.current :: later, v, earlier, ?_, hentries, hsince, fun x hx => ?_⟩
    · rw [hpast, hsplit]
      rfl
    · obtain rfl | hx := List.mem_cons.mp hx
      · exact htime.trans hcurrent
      · exact hlater x hx

theorem Later.recent {bound : Int} {ground : Ground} {clientIp : String} {denied : Option String} (h : Later s u)
    (htime : time ≤ s.now) (hs : Recent bound s (.answered ground clientIp denied time)) :
    Recent bound u (.answered ground clientIp denied time) := by
  cases ground with
  | exempt | failedOpen => exact hs
  | cached | queried =>
      obtain ⟨entries, readAt, hforce, hread, hrest⟩ := hs
      exact ⟨entries, readAt, h.inForce (hread.trans htime) hforce, hread, hrest⟩

theorem Later.local (h : Later s u) {r : Phase} (hr : Local delay i s r) : Local delay i u r := by
  cases r with
  | fetched worker clientIp entries readAt => exact ⟨hr.1.trans h.now, h.inForce hr.1 hr.2⟩
  | answered ground clientIp denied answeredAt => exact ⟨hr.1.trans h.now, h.recent hr.1 hr.2⟩
  | _ => trivial

theorem Later.cached (h : Later s u) {cache : Cache}
    (hs : ∃ readAt, InForce s cache.entries readAt ∧ readAt ≤ cache.cachedAt ∧ cache.cachedAt ≤ s.now ∧
      cache.cachedAt ≤ readAt + delay) :
    ∃ readAt, InForce u cache.entries readAt ∧ readAt ≤ cache.cachedAt ∧ cache.cachedAt ≤ u.now ∧
      cache.cachedAt ≤ readAt + delay := by
  obtain ⟨readAt, hforce, hread, hcached, hdelay⟩ := hs
  exact ⟨readAt, h.inForce (hread.trans hcached) hforce, hread, hcached.trans h.now, hdelay⟩

theorem later_waited (s : Store) (elapsed : Nat) : Later s { s with now := s.now + elapsed } :=
  ⟨Int.le_add_of_nonneg_right (Int.natCast_nonneg _), .inl rfl⟩

theorem later_commit (s : Store) (restrictions : Restrictions) : Later s (commit s restrictions) :=
  ⟨le_rfl, .inr ⟨rfl, le_rfl⟩⟩

theorem inForce_current (hs : s.current.since ≤ s.now) : InForce s (active s.current.restrictions) s.now :=
  ⟨[], s.current, s.past, rfl, rfl, hs, fun _ h => (nomatch h)⟩

/-- Either nothing is written, or the new version is committed as the refusals allow. -/
theorem write_cases (s : Store) (worker : Nat) (result : Except Raise Restrictions) :
    (∃ raise, write s worker result = (s, .refused raise)) ∨
      ∃ restrictions, write s worker result = (commit s restrictions, .committed worker) := by
  cases result with
  | error raise => exact .inl ⟨raise, rfl⟩
  | ok restrictions => exact .inr ⟨restrictions, rfl⟩

theorem Kept.commit (hs : Kept delay s) (restrictions : Restrictions) : Kept delay (commit s restrictions) where
  current := le_rfl
  caches worker cache hcache := (later_commit s restrictions).cached (hs.caches worker cache hcache)

theorem Kept.keep (hs : Kept delay s) (worker : Nat) {kept : Option Cache}
    (hkept : ∀ cache ∈ kept, ∃ readAt, InForce s cache.entries readAt ∧ readAt ≤ cache.cachedAt ∧ cache.cachedAt ≤ s.now ∧
      cache.cachedAt ≤ readAt + delay) : Kept delay (s.keep worker kept) where
  current := hs.current
  caches other cache hcache := by
    rw [Store.keep] at hcache
    by_cases hother : other = worker
    · subst hother
      exact hkept cache ((Function.update_self other kept s.caches).symm.trans hcache)
    · exact hs.caches other cache ((Function.update_of_ne hother kept s.caches).symm.trans hcache)

theorem Kept.waited (hs : Kept delay s) (elapsed : Nat) : Kept delay { s with now := s.now + elapsed } where
  current := hs.current.trans (later_waited s elapsed).now
  caches worker cache hcache := (later_waited s elapsed).cached (hs.caches worker cache hcache)

theorem write_kept (hs : Kept delay s) {worker : Nat} {result : Except Raise Restrictions}
    (h : write s worker result = (u, q)) : Later s u ∧ Kept delay u ∧ Local delay i u q := by
  obtain ⟨raise, hwrite⟩ | ⟨restrictions, hwrite⟩ := write_cases s worker result
  · rw [hwrite] at h
    cases h
    exact ⟨⟨le_rfl, .inl rfl⟩, hs, trivial⟩
  · rw [hwrite] at h
    cases h
    exact ⟨later_commit s restrictions, hs.commit restrictions, trivial⟩

theorem ask_kept (hs : Kept delay s) {request : Request} (h : ask s fails request = (u, q)) :
    Later s u ∧ Kept delay u ∧ Local delay i u q := by
  have hsame : Later s s := ⟨le_rfl, .inl rfl⟩
  cases request with
  | enter worker path clientIp =>
      rw [ask] at h
      split at h
      · cases h
        exact ⟨hsame, hs, le_rfl, rfl⟩
      cases hcache : s.caches worker with
      | none =>
          rw [hcache] at h
          cases h
          exact ⟨hsame, hs, trivial⟩
      | some cache =>
          rw [hcache] at h
          dsimp only at h
          split at h
          next hfresh =>
            cases h
            obtain ⟨readAt, hforce, hread, hcached, hdelay⟩ := hs.caches worker cache hcache
            refine ⟨hsame, hs, le_rfl, cache.entries, readAt, hforce, hread.trans hcached, ?_, rfl⟩
            linarith
          · cases h
            exact ⟨hsame, hs, trivial⟩
  | create worker id req clientIp =>
      rw [ask] at h
      split at h
      · cases h
        exact ⟨hsame, hs, trivial⟩
      · exact write_kept hs h
  | delete worker restrictionId =>
      rw [ask] at h
      split at h
      · cases h
        exact ⟨hsame, hs, trivial⟩
      · exact write_kept hs h

theorem turn_kept (hs : Kept delay s) (hp : Local delay i s p) (hprompt : Prompt delay i s p ⟨0, fails⟩)
    (h : turn s fails p = some (u, q)) : Later s u ∧ Kept delay u ∧ Local delay i u q := by
  have hsame : Later s s := ⟨le_rfl, .inl rfl⟩
  cases p with
  | asked request => exact ask_kept hs (Option.some.inj h)
  | querying worker clientIp =>
      rw [turn] at h
      split at h
      · cases h
        exact ⟨hsame, hs, le_rfl, rfl⟩
      · cases h
        exact ⟨hsame, hs, le_rfl, inForce_current hs.current⟩
  | fetched worker clientIp entries readAt =>
      cases h
      have hdelay : s.now ≤ readAt + delay := by
        rw [← Int.add_zero s.now]
        exact hprompt
      obtain ⟨hread, hforce⟩ := hp
      refine ⟨⟨le_rfl, .inl rfl⟩, hs.keep worker fun cache hcache => ?_, le_rfl, entries, readAt, hforce, hread, ?_, rfl⟩
      · obtain rfl := Option.some.inj hcache
        exact ⟨readAt, hforce, hread, le_rfl, hdelay⟩
      · have hpos : 0 < cacheTtl := by decide
        linarith
  | committed worker =>
      cases h
      exact ⟨⟨le_rfl, .inl rfl⟩, hs.keep worker fun _ hcache => (nomatch hcache), trivial⟩
  | answered | refused | closed => exact nomatch h

theorem advance_kept (hs : Kept delay s) (hp : Local delay i s p) (hprompt : Prompt delay i s p answer)
    (h : advance i s p answer = some (u, q)) : Later s u ∧ Kept delay u ∧ Local delay i u q := by
  have hwaited := later_waited s answer.elapsed
  have hprompt' : Prompt delay i { s with now := s.now + answer.elapsed } p ⟨0, answer.fails⟩ := by
    cases p with
    | fetched => exact (Int.add_zero _).le.trans hprompt
    | _ => trivial
  obtain ⟨hlater, hkept, hlocal⟩ := turn_kept (hs.waited answer.elapsed) (hwaited.local hp) hprompt' h
  refine ⟨⟨hwaited.now.trans hlater.now, ?_⟩, hkept, hlocal⟩
  obtain hsame | ⟨hpast, hcurrent⟩ := hlater.versions
  · exact .inl hsame
  · exact .inr ⟨hpast, hwaited.now.trans hcurrent⟩

def started (now : Instant) (restrictions : Restrictions) : System Store Phase := ⟨⟨now, ⟨now, restrictions⟩, [], fun _ => none⟩, []⟩

/-- Whichever worker a request comes to, it is judged by restrictions that no
later version had replaced for longer than the cache lasts and a read takes. All
workers go by one clock, which does not go back. -/
theorem verdicts_recent (delay : Nat) (now : Instant) (restrictions : Restrictions) (events : List Event)
    (h : AllSteps (step .asked advance) (Given (Prompt delay)) (started now restrictions) events) :
    AllStates (step .asked advance) (fun s => ∀ p ∈ s.calls, Recent (cacheTtl + delay) s.shared p) (started now restrictions)
      events := by
  have hstart : Sound (Kept delay) (Local delay) (started now restrictions) :=
    ⟨⟨le_rfl, fun _ _ hcache => (nomatch hcache)⟩, fun _ _ hp => (nomatch hp)⟩
  have hsound : AllStates (step .asked advance) (Sound (Kept delay) (Local delay)) (started now restrictions) events := by
    apply allStates_sound_of_given _ _ _ hstart h
    · exact fun _ _ _ _ => trivial
    · exact fun i s p answer u q hs hp hprompt hq => (advance_kept hs hp hprompt hq).2
    · exact fun i s p answer u q j r hj hs hp hprompt hr hq => (advance_kept hs hp hprompt hq).1.local hr
  refine hsound.mono fun s hs p hp => ?_
  obtain ⟨i, hi⟩ := List.getElem?_of_mem hp
  have hlocal := hs.2 i p hi
  cases p with
  | answered => exact hlocal.2
  | _ => trivial

def passing (i elapsed : Nat) : Event := .turn i ⟨elapsed, false⟩

/-- A read is cached by the other worker when an address is blocked, and half a
minute later its next request reads again. -/
def blockedBetween : List Event :=
  [.call (.enter 0 "/api/servers" "10.1.2.3"), passing 0 0, passing 0 0, passing 0 0,
    .call (.create 1 7 ⟨"10.1.0.0/16", .block, by decide⟩ "172.16.0.9"), passing 1 1, passing 1 0,
    .call (.enter 0 "/api/servers" "10.1.2.3"), passing 2 1,
    .call (.enter 0 "/api/servers" "10.1.2.3"), passing 3 29999999, passing 3 0, passing 3 0]

theorem verdicts_recent_blockedBetween : AllStates (step .asked advance)
    (fun s => ∀ p ∈ s.calls, Recent (cacheTtl + (0 : Nat)) s.shared p) (started 0 (.empty _)) blockedBetween :=
  verdicts_recent 0 0 (.empty _) blockedBetween (by decide +kernel)

end NukeLab.RestrictionCaches
