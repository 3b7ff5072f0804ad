import NukeLab.Interleaving
import NukeLab.State

namespace NukeLab.CacheRebuild

open Machine Interleaving Records State

def serverListCacheKey (userId : Uuid) : String := "servers:list:user:" ++ uuidText userId

/-- What Redis holds. A value is known by how many writes to the database its
builder had seen, and a lock by the call that set it; both by when they expire.
No cache key is another key with the suffix of locks, so their keys are apart. -/
structure Redis where
  now : Instant
  values : String → Option (Nat × Instant)
  locks : String → Option (Nat × Instant)
  tracked : List String

/-- Redis, how many writes the database has seen, and for each owner the last of
the writes to the owner's servers whose invalidation is complete; what each call
is about to store. -/
structure Store where
  redis : Redis
  writes : Nat
  settled : Uuid → Nat
  built : Nat → Option (String × Nat)

def stampedeRetryAttempts : Nat := 5

/-- One call for the value of a key, which its caller may track afterwards. Redis
refuses to set what would have expired. -/
structure Job where
  key : String
  ttl : Instant
  lockTtl : Instant
  track : Bool
  ttl_pos : 0 < ttl
  lockTtl_pos : 0 < lockTtl

inductive Request
  | getOrSet (job : Job)
  | write (owner : Uuid)
  | wait (elapsed : Nat)

/-- How far a call has come. `since` is what was settled when it started. -/
inductive Phase
  | asking (job : Job)
  | locking (job : Job) (since : Uuid → Nat)
  | building (job : Job) (since : Uuid → Nat) (expiry : Instant)
  | storing (job : Job) (since : Uuid → Nat) (expiry : Instant) (value : Nat)
  | releasing (job : Job) (since : Uuid → Nat) (expiry : Instant) (value : Option Nat)
  | polling (job : Job) (since : Uuid → Nat) (left : Nat)
  | returned (job : Job) (since : Uuid → Nat) (value : Nat)
  | raised
  | crashed
  | writing (owner : Uuid)
  | deletingOwn (owner : Uuid) (write : Nat)
  | readingTracked (owner : Uuid) (write : Nat)
  | deletingTracked (owner : Uuid) (write : Nat) (members : List String)
  | forgettingTracked (owner : Uuid) (write : Nat)
  | waiting (elapsed : Nat)
  | done

/-- A builder may raise, and a process may end at any point. -/
inductive Answer
  | goes | raises | ends

def begin : Request → Phase
  | .getOrSet job => .asking job
  | .write owner => .writing owner
  | .wait elapsed => .waiting elapsed

namespace Redis

def live {α : Type} (r : Redis) (entry : Option (α × Instant)) : Option α :=
  entry.bind fun e => if r.now < e.2 then some e.1 else none

def get (r : Redis) (key : String) : Option Nat := r.live (r.values key)

def set (r : Redis) (key : String) (value : Nat) (ttl : Instant) : Redis :=
  { r with values := Function.update r.values key (some (value, r.now + ttl)) }

def delete (r : Redis) (keys : List String) : Redis :=
  { r with values := fun key => if key ∈ keys then none else r.values key }

def setLock (r : Redis) (key : String) (i : Nat) (ttl : Instant) : Redis :=
  { r with locks := Function.update r.locks key (some (i, r.now + ttl)) }

/-- Whoever set it. -/
def deleteLock (r : Redis) (key : String) : Redis := { r with locks := Function.update r.locks key none }

end Redis

def Store.leave (s : Store) (i : Nat) : Store := { s with built := Function.update s.built i none }

def advance : Advance Store Phase Answer := fun i s p answer =>
  match p, answer with
  | _, .ends => some (s.leave i, .crashed)
  | .returned job _ _, _ =>
    if job.track then some ({ s with redis := { s.redis with tracked := job.key :: s.redis.tracked } }, .done)
    else some (s, .done)
  | .raised, _ | .crashed, _ | .done, _ => none
  | .waiting elapsed, _ => some ({ s with redis := { s.redis with now := s.redis.now + elapsed } }, .done)
  | .asking job, _ =>
    match s.redis.get job.key with
    | some value => some (s, .returned job s.settled value)
    | none => some (s, .locking job s.settled)
  | .locking job since, _ =>
    match s.redis.live (s.redis.locks job.key) with
    | some _ => some (s, .polling job since stampedeRetryAttempts)
    | none =>
      some ({ s with redis := s.redis.setLock job.key i job.lockTtl },
        .building job since (s.redis.now + job.lockTtl))
  | .building job since expiry, .raises => some (s, .releasing job since expiry none)
  | .building job since expiry, _ =>
    some ({ s with built := Function.update s.built i (some (job.key, s.writes)) }, .storing job since expiry s.writes)
  | .storing job since expiry _, .raises => some (s.leave i, .releasing job since expiry none)
  | .storing job since expiry value, _ =>
    some ({ s with redis := s.redis.set job.key value job.ttl }.leave i, .releasing job since expiry (some value))
  | .releasing job since _ value, _ =>
    let u := { s with redis := s.redis.deleteLock job.key }
    match value with
    | some value => some (u, .returned job since value)
    | none => some (u, .raised)
  | .polling _ _ 0, .raises => some (s, .raised)
  | .polling job since 0, _ => some (s, .returned job since s.writes)
  | .polling job since (left + 1), _ =>
    match s.redis.get job.key with
    | some value => some (s, .returned job since value)
    | none => some (s, .polling job since left)
  | .writing owner, _ => some ({ s with writes := s.writes + 1 }, .deletingOwn owner (s.writes + 1))
  | .deletingOwn owner write, _ =>
    some ({ s with redis := s.redis.delete [serverListCacheKey owner] }, .readingTracked owner write)
  | .readingTracked owner write, _ => some (s, .deletingTracked owner write s.redis.tracked)
  | .deletingTracked owner write members, _ =>
    some ({ s with redis := s.redis.delete members }, .forgettingTracked owner write)
  | .forgettingTracked owner write, _ =>
    some ({ s with
      redis := { s.redis with tracked := [] }
      settled := Function.update s.settled owner (max (s.settled owner) write) }, .done)

/-- The key whose rebuild lock a call has and has not released, and when that expires. -/
def Phase.lock : Phase → Option (String × Instant)
  | .building job _ expiry | .storing job _ expiry _ | .releasing job _ expiry _ => some (job.key, expiry)
  | _ => none

def started (now : Instant) : System Store Phase :=
  ⟨⟨⟨now, fun _ => none, fun _ => none, []⟩, 0, fun _ => 0, fun _ => none⟩, []⟩

def Exclusive (s : System Store Phase) : Prop :=
  ∀ (i j : Nat) (p q : Phase), s.calls[i]? = some p → s.calls[j]? = some q →
    ∀ key ∈ p.lock.map Prod.fst, key ∈ q.lock.map Prod.fst → i = j

def ReleasesOwn (i : Nat) (s : Store) (p : Phase) (_ : Store) (_ : Phase) : Prop :=
  ∀ job since expiry value, p = .releasing job since expiry value →
    ∀ owner ∈ s.redis.live (s.redis.locks job.key), owner = i

def Phase.waits : Phase → Option Nat
  | .waiting elapsed => some elapsed
  | _ => none

def InTime (s : System Store Phase) : Event Request Answer → Prop
  | .call _ => True
  | .turn i _ =>
    ∀ p ∈ s.calls[i]?, ∀ elapsed ∈ p.waits, ∀ q ∈ s.calls, ∀ lock ∈ q.lock, s.shared.redis.now + elapsed < lock.2

instance (s : System Store Phase) : (e : Event Request Answer) → Decidable (InTime s e)
  | .call _ => .isTrue trivial
  | .turn i _ =>
    inferInstanceAs (Decidable (∀ p ∈ s.calls[i]?, ∀ elapsed ∈ p.waits, ∀ q ∈ s.calls, ∀ lock ∈ q.lock, _ < _))

def HoldsLock (i : Nat) (s : Store) (p : Phase) : Prop :=
  ∀ lock ∈ p.lock, s.redis.locks lock.1 = some (i, lock.2) ∧ s.redis.now < lock.2

variable {i : Nat} {s u : Store} {p q : Phase} {answer : Answer}

inductive LockTurn (i : Nat) (s : Store) (p : Phase) : Store → Phase → Prop
  | kept {u : Store} {q : Phase} (hlocks : u.redis.locks = s.redis.locks) (hnow : u.redis.now = s.redis.now)
      (hq : q.lock = p.lock ∨ q.lock = none) : LockTurn i s p u q
  | acquired {key : String} {ttl : Instant} {q : Phase} (hfree : s.redis.live (s.redis.locks key) = none) (httl : 0 < ttl)
      (hq : q.lock = some (key, s.redis.now + ttl)) : LockTurn i s p { s with redis := s.redis.setLock key i ttl } q
  | released {job : Job} {since : Uuid → Nat} {expiry : Instant} {value : Option Nat} {q : Phase}
      (hp : p = .releasing job since expiry value) (hq : q.lock = none) :
      LockTurn i s p { s with redis := s.redis.deleteLock job.key } q
  | waited {elapsed : Nat} {q : Phase} (hp : p = .waiting elapsed) (hq : q.lock = none) :
      LockTurn i s p { s with redis := { s.redis with now := s.redis.now + elapsed } } q

theorem turn_locks (h : advance i s p answer = some (u, q)) : LockTurn i s p u q := by
  cases answer with
  | ends =>
      cases h
      exact .kept rfl rfl (.inr rfl)
  | goes | raises =>
      cases p with
      | asking job =>
          simp only [advance] at h
          split at h <;> (cases h; exact .kept rfl rfl (.inr rfl))
      | locking job since =>
          simp only [advance] at h
          split at h
          · cases h
            exact .kept rfl rfl (.inr rfl)
          next hfree =>
            cases h
            exact .acquired hfree job.lockTtl_pos rfl
      | building | storing =>
          cases h
          exact .kept rfl rfl (.inl rfl)
      | releasing job since expiry value =>
          cases value <;> (cases h; exact .released rfl rfl)
      | polling job since left =>
          cases left with
          | zero =>
              cases h
              exact .kept rfl rfl (.inr rfl)
          | succ left =>
              simp only [advance] at h
              split at h <;> (cases h; exact .kept rfl rfl (.inr rfl))
      | returned job since value =>
          simp only [advance] at h
          split at h <;> (cases h; exact .kept rfl rfl (.inr rfl))
      | writing | deletingOwn | readingTracked | deletingTracked | forgettingTracked =>
          cases h
          exact .kept rfl rfl (.inr rfl)
      | waiting elapsed =>
          cases h
          exact .waited rfl rfl
      | raised | crashed | done => cases h

theorem LockTurn.holdsLock (h : LockTurn i s p u q) (hp : HoldsLock i s p) : HoldsLock i u q := by
  intro lock hlock
  cases h with
  | kept hlocks hnow hq =>
      rw [hlocks, hnow]
      rcases hq with hq | hq
      · exact hp lock (hq ▸ hlock)
      · rw [hq] at hlock
        cases hlock
  | @acquired key ttl _ _ httl hq =>
      rw [hq] at hlock
      obtain rfl := (Option.some.inj hlock)
      exact ⟨Function.update_self _ _ _, Int.lt_add_of_pos_right _ httl⟩
  | released _ hq | waited _ hq =>
      rw [hq] at hlock
      cases hlock

theorem LockTurn.holdsLock_other (h : LockTurn i s p u q) (hp : HoldsLock i s p) {j : Nat} {r : Phase} (hj : j ≠ i)
    (hr : HoldsLock j s r) (hintime : ∀ elapsed, p = .waiting elapsed → ∀ lock ∈ r.lock, s.redis.now + elapsed < lock.2) :
    HoldsLock j u r := by
  intro lock hlock
  obtain ⟨hmine, hlive⟩ := hr lock hlock
  cases h with
  | kept hlocks hnow =>
      rw [hlocks, hnow]
      exact ⟨hmine, hlive⟩
  | @acquired key _ _ hfree =>
      have hne : lock.1 ≠ key := by
        rintro rfl
        rw [Redis.live, hmine, Option.bind_some, if_pos hlive] at hfree
        cases hfree
      exact ⟨(Function.update_of_ne hne _ _).trans hmine, hlive⟩
  | @released job since expiry value _ hp' =>
      subst hp'
      have hown := (hp (job.key, expiry) rfl).1
      have hne : lock.1 ≠ job.key := by
        intro heq
        rw [heq, hown] at hmine
        exact hj (congrArg Prod.fst (Option.some.inj hmine)).symm
      exact ⟨(Function.update_of_ne hne _ _).trans hmine, hlive⟩
  | waited hp' => exact ⟨hmine, hintime _ hp' lock hlock⟩

theorem step_holdsLock {s t : System Store Phase} {e : Event Request Answer}
    (hs : Sound (fun _ => True) HoldsLock s) (hintime : InTime s e) (ht : step begin advance s e = some t) :
    Sound (fun _ => True) HoldsLock t := by
  cases e with
  | call request =>
      rw [step_call ht]
      apply hs.call
      intro i lock hlock
      cases request <;> cases hlock
  | turn i answer =>
      obtain ⟨p, q, u, hp, hq, rfl⟩ := step_turn ht
      have hturn := turn_locks hq
      have hlocal := hs.2 i p hp
      apply hs.turn trivial (hturn.holdsLock hlocal)
      intro j r hj hr hholds
      apply hturn.holdsLock_other hlocal hj hholds
      rintro elapsed rfl lock hlock
      exact hintime _ hp elapsed rfl r (List.mem_of_getElem? hr) lock hlock

theorem exclusive_of_holdsLock {s : System Store Phase} (hs : Sound (fun _ => True) HoldsLock s) : Exclusive s := by
  intro i j p q hp hq key hkp hkq
  obtain ⟨⟨_, e⟩, hlock, rfl⟩ := Option.mem_map.mp hkp
  obtain ⟨⟨_, e'⟩, hlock', rfl⟩ := Option.mem_map.mp hkq
  have hi := (hs.2 i p hp _ hlock).1
  have hj := (hs.2 j q hq _ hlock').1
  exact congrArg Prod.fst (Option.some.inj (hi.symm.trans hj))

/-- Where every call has released its lock by the time that it expires, the lock
of a key is held by one call at most, and no call deletes another's. -/
theorem rebuild_exclusive (now : Instant) (events : List (Event Request Answer))
    (h : AllSteps (step begin advance) InTime (started now) events) :
    AllStates (step begin advance) Exclusive (started now) events ∧
      AllSteps (step begin advance) (EveryTurn advance ReleasesOwn) (started now) events := by
  have hsound : AllStates (step begin advance) (Sound (fun _ => True) HoldsLock) (started now) events :=
    allStates_of_allSteps (fun s e t hs hintime ht => step_holdsLock hs hintime ht) ⟨trivial, fun _ _ hp => nomatch hp⟩ h
  refine ⟨hsound.mono fun s hs => exclusive_of_holdsLock hs, allSteps_everyTurn ?_ hsound⟩
  rintro i s p answer u q - hholds - job since expiry value rfl owner howner
  obtain ⟨hmine, hlive⟩ := hholds (job.key, expiry) rfl
  rw [Redis.live, hmine, Option.bind_some, if_pos hlive] at howner
  exact (Option.some.inj howner).symm

def listOf (userId : Uuid) : Job := ⟨serverListCacheKey userId, 30, 5, false, by decide, by decide⟩

/-- Two calls, of which the second finds the lock of the first, whose build takes two seconds. -/
def quickBuild : List (Event Request Answer) :=
  [.call (.getOrSet (listOf 1)), .call (.getOrSet (listOf 1)), .turn 0 .goes, .turn 0 .goes, .turn 1 .goes,
    .turn 1 .goes, .call (.wait 2), .turn 2 .goes, .turn 0 .goes, .turn 0 .goes, .turn 0 .goes, .turn 1 .goes]

theorem rebuild_exclusive_in_turn :
    AllStates (step begin advance) Exclusive (started 0) quickBuild ∧
      AllSteps (step begin advance) (EveryTurn advance ReleasesOwn) (started 0) quickBuild :=
  rebuild_exclusive 0 quickBuild (by decide +kernel)

/-- A build that takes six seconds, and a second call in the last of them. -/
def slowBuild : List (Event Request Answer) :=
  [.call (.getOrSet (listOf 1)), .turn 0 .goes, .turn 0 .goes, .call (.wait 6), .turn 1 .goes,
    .call (.getOrSet (listOf 1)), .turn 2 .goes, .turn 2 .goes]

theorem two_holders :
    ¬ ∀ (now : Instant) (events : List (Event Request Answer)),
      AllStates (step begin advance) Exclusive (started now) events ∧
        AllSteps (step begin advance) (EveryTurn advance ReleasesOwn) (started now) events := by
  intro h
  have hend : ∃ t p q, run (step begin advance) (started 0) slowBuild = some t ∧ t.calls[0]? = some p ∧
      t.calls[2]? = some q ∧ p.lock = some (serverListCacheKey 1, 5) ∧ q.lock = some (serverListCacheKey 1, 11) :=
    ⟨_, _, _, rfl, rfl, rfl, rfl, rfl⟩
  obtain ⟨t, p, q, hrun, hp, hq, hlock, hlock'⟩ := hend
  have hsame := (h 0 slowBuild).1.last hrun 0 2 p q hp hq (serverListCacheKey 1)
  rw [hlock, hlock'] at hsame
  exact absurd (hsame rfl rfl) (by decide)

end NukeLab.CacheRebuild
