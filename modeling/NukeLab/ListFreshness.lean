import NukeLab.CacheRebuild

namespace NukeLab.ListFreshness

open Machine Interleaving Records CacheRebuild

abbrev Shown := String → Uuid → Prop

/-- A call returns nothing that was read before a write whose invalidation was
complete when it started. -/
def Fresh (shown : Shown) : Phase → Prop
  | .returned job since value => ∀ owner, shown job.key owner → since owner ≤ value
  | _ => True

def NothingBuilt (s : Store) (key : String) (write : Nat) : Prop :=
  ∀ (i : Nat) (value : Nat), s.built i = some (key, value) → write ≤ value

/-- While an invalidation deletes the owner's own key, nothing older than its
write is about to be stored there; when it reads which keys are tracked, the same
holds of every other key that shows the owner's servers, and what is cached there
is tracked or no older than the write. -/
def Careful (shown : Shown) (_ : Nat) (s : Store) : Phase → Answer → Prop
  | .deletingOwn owner write, _ => NothingBuilt s (serverListCacheKey owner) write
  | .readingTracked owner write, _ =>
    ∀ key, shown key owner → key ≠ serverListCacheKey owner →
      NothingBuilt s key write ∧ ∀ value, s.redis.get key = some value → write ≤ value ∨ key ∈ s.redis.tracked
  | _, _ => True

/-- Nothing read before the write is cached under the key, or about to be. -/
structure Clean (s : Store) (key : String) (write : Nat) : Prop where
  cached : ∀ value, s.redis.get key = some value → write ≤ value
  built : NothingBuilt s key write

structure Kept (shown : Shown) (s : Store) : Prop where
  settled : ∀ owner, s.settled owner ≤ s.writes
  clean : ∀ key owner, shown key owner → Clean s key (s.settled owner)

def Local (shown : Shown) (i : Nat) (s : Store) : Phase → Prop
  | .locking _ since | .building _ since _ | .polling _ since _ => ∀ owner, since owner ≤ s.settled owner
  | .storing job since _ value => s.built i = some (job.key, value) ∧ ∀ owner, since owner ≤ value
  | .releasing job since _ value => ∀ v ∈ value, ∀ owner, shown job.key owner → since owner ≤ v
  | .returned job since value => ∀ owner, shown job.key owner → since owner ≤ value
  | .deletingOwn _ write => write ≤ s.writes
  | .readingTracked owner write => write ≤ s.writes ∧ Clean s (serverListCacheKey owner) write
  | .deletingTracked owner write members =>
    write ≤ s.writes ∧ Clean s (serverListCacheKey owner) write ∧
      ∀ key, shown key owner → key ≠ serverListCacheKey owner →
        NothingBuilt s key write ∧ ∀ value, s.redis.get key = some value → write ≤ value ∨ key ∈ members
  | .forgettingTracked owner write => write ≤ s.writes ∧ ∀ key, shown key owner → Clean s key write
  | _ => True

variable {shown : Shown} {i : Nat} {s u : Store} {p q : Phase} {answer : Answer}

theorem get_set (r : Redis) (key other : String) (value : Nat) {ttl : Instant} (httl : 0 < ttl) :
    (r.set key value ttl).get other = if other = key then some value else r.get other := by
  by_cases h : other = key
  · subst h
    have hlive : r.now < r.now + ttl := Int.lt_add_of_pos_right _ httl
    simp only [Redis.get, Redis.set, Redis.live, Function.update_self, Option.bind_some, hlive, if_true]
  · simp only [Redis.get, Redis.set, Redis.live, Function.update_of_ne h, h, if_false]
    rfl

theorem get_delete (r : Redis) (keys : List String) (key : String) :
    (r.delete keys).get key = if key ∈ keys then none else r.get key := by
  by_cases h : key ∈ keys
  · simp only [Redis.get, Redis.delete, Redis.live, h, if_true, Option.bind_none]
  · simp only [Redis.get, Redis.delete, Redis.live, h, if_false]
    rfl

/-- What no turn undoes: the writes seen, what is settled, and what is cached or
about to be stored and is no older than a write that the database has seen. -/
structure Later (s u : Store) : Prop where
  writes : s.writes ≤ u.writes
  settled : ∀ owner, s.settled owner ≤ u.settled owner
  built : ∀ key write, write ≤ s.writes → NothingBuilt s key write → NothingBuilt u key write
  cached : ∀ key value, u.redis.get key = some value → s.redis.get key = some value ∨
    ∃ j, s.built j = some (key, value)

theorem Clean.max {key : String} {a b : Nat} (ha : Clean s key a) (hb : Clean s key b) : Clean s key (max a b) where
  cached value h := max_le (ha.cached value h) (hb.cached value h)
  built i value h := max_le (ha.built i value h) (hb.built i value h)

theorem Later.clean (h : Later s u) {key : String} {write : Nat} (hwrite : write ≤ s.writes) (hs : Clean s key write) :
    Clean u key write where
  cached value hget := by
    rcases h.cached key value hget with hold | ⟨j, hbuilt⟩
    · exact hs.cached value hold
    · exact hs.built j value hbuilt
  built := h.built key write hwrite hs.built

/-- A turn that only takes values away, and may stop a call from storing one. -/
theorem later_of_fewer (hwrites : u.writes = s.writes) (hsettled : ∀ owner, s.settled owner ≤ u.settled owner)
    (hbuilt : ∀ j value, u.built j = some value → s.built j = some value)
    (hget : ∀ key value, u.redis.get key = some value → s.redis.get key = some value) : Later s u where
  writes := hwrites.ge
  settled := hsettled
  built _ _ _ h j value hj := h j value (hbuilt j _ hj)
  cached key value h := .inl (hget key value h)

theorem later_of_same (hwrites : u.writes = s.writes) (hsettled : u.settled = s.settled) (hbuilt : u.built = s.built)
    (hget : u.redis.get = s.redis.get) : Later s u :=
  later_of_fewer hwrites (fun _ => hsettled ▸ le_rfl) (fun _ _ h => hbuilt ▸ h) fun _ _ h => hget ▸ h

theorem built_leave (s : Store) (i j : Nat) (value : String × Nat) (h : (s.leave i).built j = some value) :
    s.built j = some value := by
  by_cases hj : j = i
  · subst hj
    have hnone : (s.leave j).built j = none := Function.update_self _ _ _
    rw [hnone] at h
    cases h
  · have hsame : (s.leave i).built j = s.built j := Function.update_of_ne hj _ _
    rw [← hsame]
    exact h

theorem later_leave (s : Store) (i : Nat) : Later s (s.leave i) :=
  later_of_fewer rfl (fun _ => le_rfl) (built_leave s i) fun _ _ h => h

theorem later_delete (s : Store) (keys : List String) : Later s { s with redis := s.redis.delete keys } := by
  refine later_of_fewer rfl (fun _ => le_rfl) (fun _ _ h => h) ?_
  intro key value h
  rw [get_delete] at h
  split at h
  · cases h
  · exact h

theorem later_wait (s : Store) (elapsed : Nat) :
    Later s { s with redis := { s.redis with now := s.redis.now + elapsed } } := by
  refine later_of_fewer rfl (fun _ => le_rfl) (fun _ _ h => h) ?_
  intro key value h
  obtain ⟨⟨v, expiry⟩, hentry, hlive⟩ := Option.bind_eq_some_iff.mp h
  by_cases hbefore : s.redis.now + elapsed < expiry
  · rw [if_pos hbefore] at hlive
    have hnow : s.redis.now < expiry := lt_of_le_of_lt (Int.le_add_of_nonneg_right (Int.natCast_nonneg _)) hbefore
    rw [Redis.get, Redis.live, hentry, Option.bind_some, if_pos hnow]
    exact hlive
  · rw [if_neg hbefore] at hlive
    cases hlive

theorem later_build (s : Store) (i : Nat) (key : String) :
    Later s { s with built := Function.update s.built i (some (key, s.writes)) } where
  writes := le_rfl
  settled _ := le_rfl
  built other write hwrite h j value hj := by
    by_cases hji : j = i
    · subst hji
      have hread := (Function.update_self _ _ _).symm.trans hj
      cases hread
      exact hwrite
    · exact h j value ((Function.update_of_ne hji _ _).symm.trans hj)
  cached _ _ h := .inl h

theorem later_store {key : String} {value : Nat} {ttl : Instant} (httl : 0 < ttl) (hbuilt : s.built i = some (key, value)) :
    Later s ({ s with redis := s.redis.set key value ttl }.leave i) where
  writes := le_rfl
  settled _ := le_rfl
  built _ _ _ h j value hj := h j value (built_leave _ i j _ hj)
  cached other v h := by
    change (s.redis.set key value ttl).get other = some v at h
    rw [get_set _ _ _ _ httl] at h
    split at h
    next heq =>
      cases h
      subst heq
      exact .inr ⟨i, hbuilt⟩
    · exact .inl h

theorem le_settle (settled : Uuid → Nat) (owner : Uuid) (write : Nat) (other : Uuid) :
    settled other ≤ Function.update settled owner (max (settled owner) write) other := by
  by_cases ho : other = owner
  · subst ho
    rw [Function.update_self]
    exact le_max_left _ _
  · rw [Function.update_of_ne ho]

theorem turn_later (hp : Local shown i s p) (h : advance i s p answer = some (u, q)) : Later s u := by
  cases answer with
  | ends =>
      cases h
      exact later_leave s i
  | goes | raises =>
      cases p with
      | asking | locking =>
          simp only [advance] at h
          split at h <;> (cases h; exact later_of_same rfl rfl rfl rfl)
      | building job =>
          cases h
          first | exact later_build s i job.key | exact later_of_same rfl rfl rfl rfl
      | storing job =>
          cases h
          first | exact later_store job.ttl_pos hp.1 | exact later_leave s i
      | releasing job since expiry value => cases value <;> (cases h; exact later_of_same rfl rfl rfl rfl)
      | polling job since left =>
          cases left with
          | zero =>
              cases h
              exact later_of_same rfl rfl rfl rfl
          | succ left =>
              simp only [advance] at h
              split at h <;> (cases h; exact later_of_same rfl rfl rfl rfl)
      | returned =>
          simp only [advance] at h
          split at h <;> (cases h; exact later_of_same rfl rfl rfl rfl)
      | writing owner =>
          cases h
          exact ⟨Nat.le_succ _, fun _ => le_rfl, fun _ _ _ h => h, fun _ _ h => .inl h⟩
      | readingTracked =>
          cases h
          exact later_of_same rfl rfl rfl rfl
      | deletingOwn | deletingTracked =>
          cases h
          exact later_delete s _
      | forgettingTracked owner write =>
          cases h
          refine later_of_fewer rfl (fun other => ?_) (fun _ _ h => h) (fun _ _ h => h)
          exact le_settle s.settled owner write other
      | waiting elapsed =>
          cases h
          exact later_wait s elapsed
      | raised | crashed | done => cases h

theorem Later.tracked (h : Later s u) {key : String} {write : Nat} {members : List String} (hwrite : write ≤ s.writes)
    (hs : NothingBuilt s key write ∧ ∀ value, s.redis.get key = some value → write ≤ value ∨ key ∈ members) :
    NothingBuilt u key write ∧ ∀ value, u.redis.get key = some value → write ≤ value ∨ key ∈ members := by
  refine ⟨h.built key write hwrite hs.1, fun value hget => ?_⟩
  rcases h.cached key value hget with hold | ⟨j, hbuilt⟩
  · exact hs.2 value hold
  · exact .inl (hs.1 j value hbuilt)

theorem Later.local (h : Later s u) {j : Nat} {r : Phase} (hbuilt : u.built j = s.built j) (hr : Local shown j s r) :
    Local shown j u r := by
  cases r with
  | locking | building | polling => exact fun owner => (hr owner).trans (h.settled owner)
  | storing => exact ⟨hbuilt.trans hr.1, hr.2⟩
  | releasing | returned => exact hr
  | deletingOwn => exact hr.trans h.writes
  | readingTracked => exact ⟨hr.1.trans h.writes, h.clean hr.1 hr.2⟩
  | deletingTracked =>
      exact ⟨hr.1.trans h.writes, h.clean hr.1 hr.2.1,
        fun key hkey hother => h.tracked hr.1 (hr.2.2 key hkey hother)⟩
  | forgettingTracked => exact ⟨hr.1.trans h.writes, fun key hkey => h.clean hr.1 (hr.2 key hkey)⟩
  | asking | raised | crashed | writing | waiting | done => trivial

theorem built_other (h : advance i s p answer = some (u, q)) {j : Nat} (hj : j ≠ i) : u.built j = s.built j := by
  have hleave : ∀ s : Store, (s.leave i).built j = s.built j := fun _ => Function.update_of_ne hj _ _
  cases answer with
  | ends =>
      cases h
      exact hleave s
  | goes | raises =>
      cases p with
      | asking | locking | returned =>
          simp only [advance] at h
          split at h <;> (cases h; rfl)
      | building =>
          cases h
          first | exact Function.update_of_ne hj _ _ | rfl
      | storing =>
          cases h
          exact hleave _
      | releasing job since expiry value => cases value <;> (cases h; rfl)
      | polling job since left =>
          cases left with
          | zero =>
              cases h
              rfl
          | succ left =>
              simp only [advance] at h
              split at h <;> (cases h; rfl)
      | writing | readingTracked | deletingOwn | deletingTracked | forgettingTracked | waiting =>
          cases h
          rfl
      | raised | crashed | done => cases h

theorem Kept.get (hs : Kept shown s) {key : String} {value : Nat} (hget : s.redis.get key = some value)
    {since : Uuid → Nat} (hsince : ∀ owner, since owner ≤ s.settled owner) (owner : Uuid) (hshown : shown key owner) :
    since owner ≤ value :=
  (hsince owner).trans ((hs.clean key owner hshown).cached value hget)

theorem clean_deleted {keys : List String} {key : String} {write : Nat} (hbuilt : NothingBuilt s key write)
    (hcached : ∀ value, s.redis.get key = some value → write ≤ value ∨ key ∈ keys) :
    Clean { s with redis := s.redis.delete keys } key write where
  cached value hget := by
    rw [get_delete] at hget
    split at hget
    · cases hget
    next hkept => exact (hcached value hget).resolve_right hkept
  built := hbuilt

theorem turn_local (hs : Kept shown s) (hp : Local shown i s p) (hcareful : Careful shown i s p answer)
    (h : advance i s p answer = some (u, q)) : Local shown i u q := by
  have hlater := turn_later hp h
  cases answer with
  | ends =>
      cases h
      trivial
  | goes | raises =>
      cases p with
      | asking job =>
          simp only [advance] at h
          split at h
          next hget =>
            cases h
            exact hs.get hget fun _ => le_rfl
          · cases h
            exact fun _ => le_rfl
      | locking =>
          simp only [advance] at h
          split at h <;> (cases h; exact hp)
      | building =>
          cases h
          first
          | exact ⟨Function.update_self _ _ _, fun owner => (hp owner).trans (hs.settled owner)⟩
          | (intro v hv; cases hv)
      | storing job since expiry value =>
          cases h
          first
          | exact fun v hv owner _ => Option.some.inj hv ▸ hp.2 owner
          | (intro v hv; cases hv)
      | releasing job since expiry value =>
          cases value with
          | none =>
              cases h
              trivial
          | some value =>
              cases h
              exact hp value rfl
      | polling job since left =>
          cases left with
          | zero =>
              cases h
              first
              | exact fun owner _ => (hp owner).trans (hs.settled owner)
              | trivial
          | succ left =>
              simp only [advance] at h
              split at h
              next hget =>
                cases h
                exact hs.get hget hp
              · cases h
                exact hp
      | returned =>
          simp only [advance] at h
          split at h <;> (cases h; trivial)
      | writing =>
          cases h
          exact le_rfl
      | deletingOwn owner write =>
          cases h
          exact ⟨hp, clean_deleted hcareful fun _ _ => .inr (List.mem_singleton_self _)⟩
      | readingTracked owner write =>
          cases h
          exact ⟨hp.1, hp.2, hcareful⟩
      | deletingTracked owner write members =>
          cases h
          refine ⟨hp.1, fun key hkey => ?_⟩
          by_cases hown : key = serverListCacheKey owner
          · subst hown
            exact hlater.clean hp.1 hp.2.1
          · exact clean_deleted (hp.2.2 key hkey hown).1 (hp.2.2 key hkey hown).2
      | forgettingTracked | waiting =>
          cases h
          trivial
      | raised | crashed | done => cases h

theorem turn_kept (hs : Kept shown s) (hp : Local shown i s p) (h : advance i s p answer = some (u, q)) : Kept shown u := by
  have hlater := turn_later hp h
  have hsame : u.settled = s.settled → Kept shown u := fun heq =>
    ⟨fun owner => heq ▸ (hs.settled owner).trans hlater.writes,
      fun key owner hkey => heq ▸ hlater.clean (hs.settled owner) (hs.clean key owner hkey)⟩
  cases answer with
  | ends =>
      cases h
      exact hsame rfl
  | goes | raises =>
      cases p with
      | forgettingTracked owner write =>
          cases h
          refine ⟨fun other => ?_, fun key other hkey => ?_⟩
          · by_cases ho : other = owner
            · subst ho
              exact (Function.update_self _ _ _).le.trans (max_le (hs.settled other) hp.1)
            · exact (Function.update_of_ne ho _ _).le.trans (hs.settled other)
          · have hold := hlater.clean (hs.settled other) (hs.clean key other hkey)
            by_cases ho : other = owner
            · subst ho
              have hnew := hlater.clean hp.1 (hp.2 key hkey)
              change Clean _ key (Function.update s.settled other (max (s.settled other) write) other)
              rw [Function.update_self]
              exact hold.max hnew
            · change Clean _ key (Function.update s.settled owner (max (s.settled owner) write) other)
              rw [Function.update_of_ne ho]
              exact hold
      | asking | locking | returned =>
          simp only [advance] at h
          split at h <;> (cases h; exact hsame rfl)
      | building | storing =>
          cases h
          exact hsame rfl
      | releasing job since expiry value => cases value <;> (cases h; exact hsame rfl)
      | polling job since left =>
          cases left with
          | zero =>
              cases h
              exact hsame rfl
          | succ left =>
              simp only [advance] at h
              split at h <;> (cases h; exact hsame rfl)
      | writing | readingTracked | deletingOwn | deletingTracked | waiting =>
          cases h
          exact hsame rfl
      | raised | crashed | done => cases h

theorem fresh_of_local (hp : Local shown i s p) : Fresh shown p := by
  cases p with
  | returned => exact hp
  | _ => trivial

/-- Where no invalidation leaves behind a builder with an older result, or a key
that shows the data and is not tracked, no call returns what an invalidated write
has made old. -/
theorem lists_fresh (shown : Shown) (now : Instant) (events : List (Event Request Answer))
    (h : AllSteps (step begin advance) (Given (Careful shown)) (started now) events) :
    AllStates (step begin advance) (fun s => ∀ p ∈ s.calls, Fresh shown p) (started now) events := by
  have hsound : AllStates (step begin advance) (Sound (Kept shown) (Local shown)) (started now) events := by
    refine allStates_of_allSteps (fun s e t hs hcareful ht => ?_) ?_ h
    · cases e with
      | call request =>
          rw [step_call ht]
          apply hs.call
          intro i
          cases request <;> trivial
      | turn i answer =>
          obtain ⟨p, q, u, hp, hq, rfl⟩ := step_turn ht
          have hlocal := hs.2 i p hp
          apply hs.turn (turn_kept hs.1 hlocal hq) (turn_local hs.1 hlocal (hcareful p hp) hq)
          exact fun j r hj _ hr => (turn_later hlocal hq).local (built_other hq hj) hr
    · exact ⟨⟨fun _ => le_rfl, fun _ _ _ => ⟨fun _ _ => Nat.zero_le _, fun _ _ _ => Nat.zero_le _⟩⟩,
        fun _ _ hp => nomatch hp⟩
  refine hsound.mono fun s hs p hp => ?_
  obtain ⟨i, hi⟩ := List.mem_iff_getElem?.mp hp
  exact fresh_of_local (hs.2 i p hi)

def ownLists (readsAll : Uuid → Bool) : Shown := fun key owner =>
  ∃ userId, key = serverListCacheKey userId ∧ (userId = owner ∨ readsAll userId)

/-- A write is complete before its list is built, and read from the cache. -/
def builtAfterWrite : List (Event Request Answer) :=
  [.call (.write 1), .turn 0 .goes, .turn 0 .goes, .turn 0 .goes, .turn 0 .goes, .turn 0 .goes,
    .call (.getOrSet (listOf 1)), .turn 1 .goes, .turn 1 .goes, .turn 1 .goes, .turn 1 .goes, .turn 1 .goes,
    .call (.getOrSet (listOf 1)), .turn 2 .goes]

theorem given_of_call {G : Nat → Store → Phase → Answer → Prop} {s : System Store Phase} {i : Nat} {p : Phase}
    {answer : Answer} (hp : s.calls[i]? = some p) (h : G i s.shared p answer) :
    Given G s (.turn i answer : Event Request Answer) := by
  intro r hr
  obtain rfl := Option.some.inj (hp.symm.trans hr)
  exact h

theorem lists_fresh_builtAfterWrite :
    AllStates (step begin advance) (fun s => ∀ p ∈ s.calls, Fresh (ownLists fun _ => false) p) (started 0)
      builtAfterWrite := by
  apply lists_fresh
  refine .cons rfl trivial (.cons rfl (given_of_call rfl trivial) (.cons rfl (given_of_call rfl ?_)
    (.cons rfl (given_of_call rfl ?_) ?_)))
  · exact fun _ _ h => nomatch h
  · intro key _ _
    refine ⟨nofun, fun value hget => ?_⟩
    change (Redis.delete _ _).get key = some value at hget
    rw [get_delete] at hget
    split at hget <;> cases hget
  · refine .cons rfl (given_of_call rfl trivial) (.cons rfl (given_of_call rfl trivial) (.cons rfl trivial ?_))
    refine .cons rfl (given_of_call rfl trivial) (.cons rfl (given_of_call rfl trivial) ?_)
    refine .cons rfl (given_of_call rfl trivial) (.cons rfl (given_of_call rfl trivial) ?_)
    refine .cons rfl (given_of_call rfl trivial) (.cons rfl trivial (.cons rfl (given_of_call rfl trivial) trivial))

/-- A write is committed and its list deleted while the list is being built. -/
def writtenWhileBuilt : List (Event Request Answer) :=
  [.call (.getOrSet (listOf 1)), .turn 0 .goes, .turn 0 .goes, .turn 0 .goes,
    .call (.write 1), .turn 1 .goes, .turn 1 .goes, .turn 1 .goes, .turn 1 .goes, .turn 1 .goes,
    .turn 0 .goes, .turn 0 .goes, .call (.getOrSet (listOf 1)), .turn 2 .goes]

theorem stale_list :
    ¬ ∀ (shown : Shown) (now : Instant) (events : List (Event Request Answer)),
      AllStates (step begin advance) (fun s => ∀ p ∈ s.calls, Fresh shown p) (started now) events := by
  intro h
  have hend : ∃ t since, run (step begin advance) (started 0) writtenWhileBuilt = some t ∧
      t.calls[2]? = some (.returned (listOf 1) since 0) ∧ since 1 = 1 := ⟨_, _, rfl, rfl, rfl⟩
  obtain ⟨t, since, hrun, hcall, hsince⟩ := hend
  have hfresh := (h (ownLists fun _ => false) 0 writtenWhileBuilt).last hrun _ (List.mem_of_getElem? hcall) 1
    ⟨1, rfl, .inl rfl⟩
  rw [hsince] at hfresh
  exact absurd hfresh (by decide)

end NukeLab.ListFreshness
