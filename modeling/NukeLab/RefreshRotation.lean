import Mathlib.Data.List.Nodup
import NukeLab.Interleaving
import NukeLab.SessionRevocation

namespace NukeLab.RefreshRotation

open Machine Interleaving Program Records State Tables Sessions SessionRevocation
open Administration hiding Event handle step login

structure Store where
  realm : Realm
  createdAt : Uuid → Instant

inductive Request
  | login (username password : String)
  | oauthLogin (userId : Uuid)
  | refresh (id : Uuid)
  | cleanUp
  | wait (duration : Nat)

/-- An issue between its count and its commit: for whom, on which token
presented, since when, and the tokens that the count found, oldest first. -/
structure Issue where
  user : Account
  presented : Option RefreshToken
  since : Instant
  counted : List RefreshToken

inductive Phase
  | login (username password : String)
  | oauthLogin (userId : Uuid)
  | authenticated (user : Account)
  | refresh (id : Uuid)
  | verified (rt : RefreshToken)
  | issuing (issue : Issue)
  | cleanUp
  | wait (duration : Nat)
  | succeeded (presented : Option Uuid) (id : Uuid)
  | refused (raise : Raise)
  | done

def begin : Request → Phase
  | .login username password => .login username password
  | .oauthLogin userId => .oauthLogin userId
  | .refresh id => .refresh id
  | .cleanUp => .cleanUp
  | .wait duration => .wait duration

namespace Issue

def presentedId (issue : Issue) : Option Uuid := issue.presented.map RefreshToken.id

def toRevoke (issue : Issue) : List RefreshToken :=
  if issue.counted.length < maxRefreshTokensPerUser then []
  else issue.counted.take (issue.counted.length - maxRefreshTokensPerUser + 1)

def revokes (issue : Issue) : List Uuid := issue.presentedId.toList ++ issue.toRevoke.map RefreshToken.id

end Issue

namespace Store

def rows (s : Store) : List RefreshToken := s.realm.refreshTokens

def elapse (s : Store) (duration : Nat) : Store := { s with realm := { s.realm with now := s.realm.now + duration } }

def withRows (s : Store) (rows : List RefreshToken) : Store := { s with realm := { s.realm with refreshTokens := rows } }

def active (s : Store) (userId : Uuid) (presented : Option Uuid) : List RefreshToken :=
  s.rows.filter fun rt => rt.userId = userId ∧ rt.revokedAt = none ∧ some rt.id ≠ presented

/-- The count that an issue starts from. The database settles the order of rows
written at the same time. -/
def count (s : Store) (user : Account) (presented : Option RefreshToken) (order : List RefreshToken) : Option Issue :=
  if order.Perm (s.active user.id (presented.map RefreshToken.id)) ∧
      order.Pairwise fun a b => s.createdAt a.id ≤ s.createdAt b.id then
    some ⟨user, presented, s.realm.now, order⟩
  else none

def staleData : Raise := .exception "StaleDataError"

def contains (s : Store) (id : Uuid) : Bool := s.rows.any fun rt => rt.id = id

def chain (s : Store) (issue : Issue) : Nat := (issue.presented.map RefreshToken.login).getD s.realm.logins

variable (settings : AuthSettings)

def issue (s : Store) (issue : Issue) : Store where
  realm :=
    { s.realm with
      nextId := s.realm.nextId + 2
      logins := if issue.presented.isSome then s.realm.logins else s.realm.logins + 1
      issued :=
        ⟨issue.user.username, numericDate issue.since, numericDate (issue.since + settings.accessLifetime),
          s.realm.nextId, s.chain issue⟩ :: s.realm.issued
      refreshTokens := revokeRows issue.since issue.revokes s.rows ++
        [⟨s.realm.nextId + 1, issue.user.id, issue.since + settings.refreshLifetime, none, s.chain issue⟩] }
  createdAt := Function.update s.createdAt (s.realm.nextId + 1) s.realm.now

end Store

def retention : Int := 30 * day

def isStale (s : Store) (rt : RefreshToken) : Bool :=
  rt.expiresAt < s.realm.now || rt.revokedAt.any fun revokedAt => revokedAt < s.realm.now - retention

def batchSize : Nat := 10000

def deleteBatch (s : Store) : List RefreshToken := (s.rows.filter (isStale s)).take batchSize

def authenticate (s : Realm) (username password : String) : Except Raise Account :=
  if ¬ s.site.passwordLogin then .error (.http 403 "Password login is disabled. Use OAuth instead.")
  else
    match s.site.accounts.getByUsername username with
    | none => .error (.http 401 "Incorrect username or password")
    | some user =>
      if user.password = some password then .ok user else .error (.http 401 "Incorrect username or password")

variable (settings : AuthSettings)

def turn (s : Store) (order : List RefreshToken) : Phase → Option (Store × Phase)
  | .login username password =>
    match authenticate s.realm username password with
    | .error raise => some (s, .refused raise)
    | .ok user => some (s, .authenticated user)
  | .oauthLogin userId => (s.realm.site.accounts.getById userId).map fun user => (s, .authenticated user)
  | .authenticated user => (s.count user none order).map fun issue => (s, .issuing issue)
  | .refresh id =>
    match verifyRefreshToken s.realm id with
    | none => some (s, .refused (.http 401 "Invalid or expired refresh token"))
    | some rt => some (s, .verified rt)
  | .verified rt =>
    -- The query for the user flushes the revocation first.
    if ¬ s.contains rt.id then some (s, .refused Store.staleData)
    else
      match (s.realm.site.accounts.getById rt.userId).filter Account.isActive with
      | none =>
        some (s.withRows (revokeRows s.realm.now [rt.id] s.rows), .refused (.http 401 "User not found or inactive"))
      | some user => (s.count user (some rt) order).map fun issue => (s, .issuing issue)
  | .issuing issue =>
    if issue.revokes.all s.contains then
      some (s.issue settings issue, .succeeded issue.presentedId (s.realm.nextId + 1))
    else some (s, .refused Store.staleData)
  | .cleanUp =>
    let ids := (deleteBatch s).map RefreshToken.id
    some (s.withRows (s.rows.filter fun rt => rt.id ∉ ids), if (deleteBatch s).length < batchSize then .done else .cleanUp)
  | .wait duration => some (s.elapse duration, .done)
  | .succeeded _ _ | .refused _ | .done => none

/-- A revocation that is flushed and not committed is seen by its own call
alone; the lock on the row, which only orders two commits, is left out. -/
def advance : Advance Store Phase (List RefreshToken) := fun _ s p order => turn settings s order p

abbrev Event := Interleaving.Event Request (List RefreshToken)

def started (site : Site) (now : Instant) : System Store Phase := ⟨⟨opened site now, fun _ => now⟩, []⟩

/-! A call that no other comes between is the handler of the session model. -/

section Alone

variable {settings} {s : Store}

theorem revokeRows_append (at' : Instant) (a b : List Uuid) (rows : List RefreshToken) :
    revokeRows at' (a ++ b) rows = revokeRows at' b (revokeRows at' a rows) := by
  rw [revokeRows, revokeRows, revokeRows, List.map_map]
  refine List.map_congr_left fun rt _ => ?_
  rw [Function.comp_apply]
  by_cases ha : rt.id ∈ a <;> by_cases hb : rt.id ∈ b <;> simp [ha, hb]

@[simp] theorem revokeRows_nil (at' : Instant) (rows : List RefreshToken) : revokeRows at' [] rows = rows := by
  simp [revokeRows]

theorem filter_revokeRows (at' : Instant) (ids : List Uuid) (userId : Uuid) (rows : List RefreshToken) :
    (revokeRows at' ids rows).filter (fun rt => rt.userId = userId ∧ rt.revokedAt = none) =
      rows.filter fun rt => rt.userId = userId ∧ rt.revokedAt = none ∧ rt.id ∉ ids := by
  induction rows with
  | nil => rfl
  | cons rt rows ih =>
      rw [revokeRows, List.map_cons, ← revokeRows, List.filter_cons, List.filter_cons, ih]
      by_cases hid : rt.id ∈ ids <;> simp [hid]

def lone (s : Store) (user : Account) (presented : Option RefreshToken) : Issue :=
  ⟨user, presented, s.realm.now, s.active user.id (presented.map RefreshToken.id)⟩

theorem enforce_eq (s : Store) (user : Account) (presented : Option RefreshToken) :
    enforceRefreshTokenLimit s.realm.now user.id
        (revokeRows s.realm.now (presented.map RefreshToken.id).toList s.rows) =
      revokeRows s.realm.now (lone s user presented).revokes s.rows := by
  have hactive : (revokeRows s.realm.now (presented.map RefreshToken.id).toList s.rows).filter
      (fun rt => rt.userId = user.id ∧ rt.revokedAt = none) = s.active user.id (presented.map RefreshToken.id) := by
    rw [filter_revokeRows, Store.active]
    refine List.filter_congr fun rt _ => ?_
    cases presented with
    | none => simp
    | some own => simp
  rw [enforceRefreshTokenLimit, hactive, Issue.revokes, revokeRows_append, Issue.toRevoke, Issue.presentedId, lone]
  dsimp only
  split
  · rw [List.map_nil, revokeRows_nil]
  · rfl

theorem issue_lone (user : Account) (presented : Option RefreshToken) :
    (s.issue settings (lone s user presented)).realm =
      createTokens settings
        { s.realm with
          refreshTokens := revokeRows s.realm.now (presented.map RefreshToken.id).toList s.rows
          logins := if presented.isSome then s.realm.logins else s.realm.logins + 1 }
        user (s.chain (lone s user presented)) := by
  have henforce := enforce_eq s user presented
  simp only [Store.issue, createTokens, henforce]
  rfl

theorem count_lone (user : Account) (presented : Option RefreshToken)
    (hsorted : (lone s user presented).counted.Pairwise fun a b => s.createdAt a.id ≤ s.createdAt b.id) :
    s.count user presented (lone s user presented).counted = some (lone s user presented) :=
  if_pos ⟨List.Perm.refl _, hsorted⟩

theorem contains_of_mem {rt : RefreshToken} (h : rt ∈ s.rows) : s.contains rt.id = true :=
  List.any_eq_true.mpr ⟨rt, h, decide_eq_true rfl⟩

theorem revokes_contained {issue : Issue} (hpresented : ∀ rt ∈ issue.presented, rt ∈ s.rows)
    (hcounted : ∀ rt ∈ issue.counted, rt ∈ s.rows) : issue.revokes.all s.contains = true := by
  rw [List.all_eq_true]
  intro id hid
  rcases List.mem_append.mp hid with hown | hevicted
  · obtain ⟨rt, hrt, rfl⟩ := Option.map_eq_some_iff.mp (Option.mem_toList.mp hown)
    exact contains_of_mem (hpresented rt hrt)
  · obtain ⟨rt, hrt, rfl⟩ := List.mem_map.mp hevicted
    refine contains_of_mem (hcounted rt ?_)
    rw [Issue.toRevoke] at hrt
    split at hrt
    · exact nomatch hrt
    · exact List.mem_of_mem_take hrt

theorem issue_alone (user : Account) (presented : Option RefreshToken) (hpresented : ∀ rt ∈ presented, rt ∈ s.rows)
    {p : Phase} (hp : turn settings s (lone s user presented).counted p = some (s, .issuing (lone s user presented))) :
    (alone (advance settings) (lone s user presented).counted 2 s p).1 = s.issue settings (lone s user presented) := by
  have hfirst : advance settings 0 s p (lone s user presented).counted = some (s, .issuing (lone s user presented)) := hp
  have hcontained : (lone s user presented).revokes.all s.contains = true :=
    revokes_contained hpresented fun rt hrt => (List.mem_filter.mp hrt).1
  have hsecond : advance settings 0 s (.issuing (lone s user presented)) (lone s user presented).counted =
      some (s.issue settings (lone s user presented), .succeeded (lone s user presented).presentedId (s.realm.nextId + 1)) :=
    if_pos hcontained
  rw [alone_of_some hfirst, alone_of_some hsecond, alone]

theorem refresh_alone {id : Uuid} {rt : RefreshToken} {user : Account} (hrt : verifyRefreshToken s.realm id = some rt)
    (huser : (s.realm.site.accounts.getById rt.userId).filter Account.isActive = some user)
    (hsorted : (lone s user (some rt)).counted.Pairwise fun a b => s.createdAt a.id ≤ s.createdAt b.id) :
    Sessions.refresh settings s.realm id =
      .ok (alone (advance settings) (lone s user (some rt)).counted 3 s (.refresh id)).1.realm := by
  have hmem := (mem_of_verifyRefreshToken hrt).1
  have hfirst : advance settings 0 s (.refresh id) (lone s user (some rt)).counted = some (s, .verified rt) := by
    rw [advance, turn, hrt]
  have hsecond : turn settings s (lone s user (some rt)).counted (.verified rt) =
      some (s, .issuing (lone s user (some rt))) := by
    rw [turn, if_neg (not_not.mpr (contains_of_mem hmem)), huser]
    exact congrArg (Option.map _) (count_lone user (some rt) hsorted)
  have hown : ∀ own ∈ some rt, own ∈ s.rows := by
    rintro own ⟨⟩
    exact hmem
  rw [alone_of_some hfirst, issue_alone user (some rt) hown hsecond, issue_lone, Sessions.refresh, hrt]
  dsimp only
  rw [huser]
  rfl

theorem authenticate_ok {realm : Realm} {username password : String} {user : Account}
    (h : authenticate realm username password = .ok user) :
    realm.site.passwordLogin ∧ realm.site.accounts.getByUsername username = some user ∧ user.password = some password := by
  unfold authenticate at h
  split at h
  · exact nomatch h
  · rename_i hopen
    split at h
    · exact nomatch h
    · rename_i found hfound
      split at h
      · rename_i hpassword
        cases h
        exact ⟨of_not_not hopen, hfound, hpassword⟩
      · exact nomatch h

theorem login_alone {username password : String} {user : Account}
    (huser : authenticate s.realm username password = .ok user)
    (hsorted : (lone s user none).counted.Pairwise fun a b => s.createdAt a.id ≤ s.createdAt b.id) :
    Sessions.login settings s.realm username password =
      .ok (alone (advance settings) (lone s user none).counted 3 s (.login username password)).1.realm := by
  have hfirst : advance settings 0 s (.login username password) (lone s user none).counted =
      some (s, .authenticated user) := by
    rw [advance, turn, huser]
  have hsecond : turn settings s (lone s user none).counted (.authenticated user) =
      some (s, .issuing (lone s user none)) :=
    congrArg (Option.map _) (count_lone user none hsorted)
  obtain ⟨hopen, hfound, hpassword⟩ := authenticate_ok huser
  rw [alone_of_some hfirst, issue_alone user none (fun _ h => nomatch h) hsecond, issue_lone, Sessions.login,
    if_neg (not_not.mpr hopen), hfound]
  dsimp only
  rw [if_pos hpassword, Option.map_none, Option.toList_none, revokeRows_nil]
  rfl

end Alone

/-! What a turn does to the rows. -/

variable {settings} {s t u : Store} {order : List RefreshToken} {p q : Phase}

theorem turn_store (h : turn settings s order p = some (u, q)) :
    u = s ∨ (∃ duration, u = s.elapse duration) ∨ (∃ ids, u = s.withRows (revokeRows s.realm.now ids s.rows)) ∨
      (∃ keep : RefreshToken → Bool, u = s.withRows (s.rows.filter keep)) ∨
        ∃ issue, p = .issuing issue ∧ u = s.issue settings issue := by
  cases p with
  | login username password =>
      rw [turn] at h
      split at h <;> cases h <;> exact Or.inl rfl
  | oauthLogin userId =>
      obtain ⟨user, -, h⟩ := Option.map_eq_some_iff.mp h
      cases h
      exact Or.inl rfl
  | authenticated user =>
      obtain ⟨issue, -, h⟩ := Option.map_eq_some_iff.mp h
      cases h
      exact Or.inl rfl
  | refresh id =>
      rw [turn] at h
      split at h <;> cases h <;> exact Or.inl rfl
  | verified rt =>
      rw [turn] at h
      split at h
      · cases h
        exact Or.inl rfl
      split at h
      · cases h
        exact Or.inr (Or.inr (Or.inl ⟨[rt.id], rfl⟩))
      · obtain ⟨issue, -, h⟩ := Option.map_eq_some_iff.mp h
        cases h
        exact Or.inl rfl
  | issuing issue =>
      rw [turn] at h
      split at h
      · cases h
        exact Or.inr (Or.inr (Or.inr (Or.inr ⟨issue, rfl, rfl⟩)))
      · cases h
        exact Or.inl rfl
  | cleanUp =>
      cases h
      exact Or.inr (Or.inr (Or.inr (Or.inl ⟨_, rfl⟩)))
  | wait duration =>
      cases h
      exact Or.inr (Or.inl ⟨duration, rfl⟩)
  | succeeded presented id => exact nomatch h
  | refused raise => exact nomatch h
  | done => exact nomatch h

/-- No row is revived or given to another login, and a new one is numbered and dated now. -/
structure Later (s u : Store) : Prop where
  now : s.realm.now ≤ u.realm.now
  nextId : s.realm.nextId ≤ u.realm.nextId
  logins : s.realm.logins ≤ u.realm.logins
  createdAt : ∀ id < s.realm.nextId, u.createdAt id = s.createdAt id
  rows : ∀ row ∈ u.rows,
    (∃ old ∈ s.rows, old.id = row.id ∧ old.login = row.login ∧ (row.revokedAt = none → old = row)) ∨
      s.realm.nextId ≤ row.id ∧ s.realm.now ≤ u.createdAt row.id

theorem mem_revokeRows_iff {at' : Instant} {ids : List Uuid} {rows : List RefreshToken} {row : RefreshToken}
    (h : row ∈ revokeRows at' ids rows) :
    ∃ old ∈ rows, old.id = row.id ∧ old.login = row.login ∧ (row.id ∈ ids → row.revokedAt ≠ none) ∧
      (row.revokedAt = none → old = row) := by
  obtain ⟨old, hold, heq⟩ := List.mem_map.mp h
  refine ⟨old, hold, ?_⟩
  split at heq
  · subst heq
    exact ⟨rfl, rfl, fun _ h => (nomatch h), fun h => (nomatch h)⟩
  · rename_i hid
    subst heq
    exact ⟨rfl, rfl, fun h => absurd h hid, fun _ => rfl⟩

theorem Later.refl (s : Store) : Later s s :=
  ⟨le_refl _, le_refl _, le_refl _, fun _ _ => rfl, fun row hrow => Or.inl ⟨row, hrow, rfl, rfl, fun _ => rfl⟩⟩

theorem Later.withRows {rows : List RefreshToken}
    (h : ∀ row ∈ rows, ∃ old ∈ s.rows, old.id = row.id ∧ old.login = row.login ∧ (row.revokedAt = none → old = row)) :
    Later s (s.withRows rows) :=
  ⟨le_refl _, le_refl _, le_refl _, fun _ _ => rfl, fun row hrow => Or.inl (h row hrow)⟩

theorem Later.issue (issue : Issue) : Later s (s.issue settings issue) where
  now := le_refl _
  nextId := Nat.le_add_right _ _
  logins := by
    rw [Store.issue]
    dsimp only
    split
    · exact le_refl _
    · exact Nat.le_succ _
  createdAt id hid := Function.update_of_ne (Nat.lt_succ_of_lt hid).ne _ _
  rows row hrow := by
    rcases List.mem_append.mp hrow with hold | hnew
    · obtain ⟨old, hold, hid, hlogin, -, hsame⟩ := mem_revokeRows_iff hold
      exact Or.inl ⟨old, hold, hid, hlogin, hsame⟩
    · obtain rfl := List.mem_singleton.mp hnew
      refine Or.inr ⟨Nat.le_succ _, ?_⟩
      have hcreated : (s.issue settings issue).createdAt (s.realm.nextId + 1) = s.realm.now := Function.update_self _ _ _
      exact hcreated.ge

theorem Later.elapse (s : Store) (duration : Nat) : Later s (s.elapse duration) :=
  ⟨Int.le_add_of_nonneg_right (Int.natCast_nonneg _), le_refl _, le_refl _, fun _ _ => rfl,
    fun row hrow => Or.inl ⟨row, hrow, rfl, rfl, fun _ => rfl⟩⟩

theorem turn_later (h : turn settings s order p = some (u, q)) : Later s u := by
  rcases turn_store h with rfl | ⟨duration, rfl⟩ | ⟨ids, rfl⟩ | ⟨keep, rfl⟩ | ⟨issue, -, rfl⟩
  · exact Later.refl _
  · exact Later.elapse s duration
  · refine Later.withRows fun row hrow => ?_
    obtain ⟨old, hold, hid, hlogin, -, hsame⟩ := mem_revokeRows_iff hrow
    exact ⟨old, hold, hid, hlogin, hsame⟩
  · exact Later.withRows fun row hrow => ⟨row, (List.mem_filter.mp hrow).1, rfl, rfl, fun _ => rfl⟩
  · exact Later.issue issue

/-- Every row has a number and a login that have been given out, and was written before now. -/
structure Numbered (s : Store) : Prop where
  ids : ∀ rt ∈ s.rows, rt.id < s.realm.nextId
  logins : ∀ rt ∈ s.rows, rt.login < s.realm.logins
  createdAt : ∀ rt ∈ s.rows, s.createdAt rt.id ≤ s.realm.now
  unique : (s.rows.map RefreshToken.id).Nodup

/-- What a call knows of the token that it presented, revoked since or not. -/
structure Presented (s : Store) (rt : RefreshToken) : Prop where
  id : rt.id < s.realm.nextId
  login : rt.login < s.realm.logins
  same : ∀ row ∈ s.rows, row.id = rt.id → row.login = rt.login

/-- What an issue knows of the user's tokens: its count is in the order in which
they were written, and what it did not count has been written since. -/
structure Counted (s : Store) (issue : Issue) : Prop where
  sorted : issue.counted.Pairwise fun a b => s.createdAt a.id ≤ s.createdAt b.id
  before : ∀ rt ∈ issue.counted, rt.id < s.realm.nextId ∧ s.createdAt rt.id ≤ issue.since
  since : issue.since ≤ s.realm.now
  rest : ∀ row ∈ s.rows, row.userId = issue.user.id → row.revokedAt = none → some row.id ≠ issue.presentedId →
    row ∈ issue.counted ∨ issue.since ≤ s.createdAt row.id

def Local (_ : Nat) (s : Store) : Phase → Prop
  | .verified rt => Presented s rt
  | .issuing issue => (∀ rt ∈ issue.presented, Presented s rt) ∧ Counted s issue
  | .succeeded (some id) _ => id < s.realm.nextId ∧ ∀ row ∈ s.rows, row.id = id → row.revokedAt ≠ none
  | _ => True

theorem Later.presented (h : Later s u) {rt : RefreshToken} (hp : Presented s rt) : Presented u rt where
  id := hp.id.trans_le h.nextId
  login := hp.login.trans_le h.logins
  same row hrow hid := by
    rcases h.rows row hrow with ⟨old, hold, hsame, hlogin, -⟩ | ⟨hnew, -⟩
    · exact hlogin.symm.trans (hp.same old hold (hsame.trans hid))
    · exact absurd hp.id (not_lt.mpr (hid ▸ hnew))

theorem Later.counted (h : Later s u) (hs : Numbered s) {issue : Issue} (hc : Counted s issue) : Counted u issue where
  sorted := by
    refine hc.sorted.imp_of_mem fun {a b} ha hb hle => ?_
    rw [h.createdAt a.id (hc.before a ha).1, h.createdAt b.id (hc.before b hb).1]
    exact hle
  before rt hrt := by
    obtain ⟨hid, hsince⟩ := hc.before rt hrt
    rw [h.createdAt rt.id hid]
    exact ⟨hid.trans_le h.nextId, hsince⟩
  since := hc.since.trans h.now
  rest row hrow huser hlive hother := by
    rcases h.rows row hrow with ⟨old, hold, -, -, hsame⟩ | ⟨-, hnew⟩
    · obtain rfl := hsame hlive
      rw [h.createdAt old.id (hs.ids old hold)]
      exact hc.rest old hold huser hlive hother
    · exact Or.inr (hc.since.trans hnew)

theorem Later.local (h : Later s u) (hs : Numbered s) {i : Nat} (hp : Local i s p) : Local i u p := by
  cases p with
  | verified rt => exact h.presented hp
  | issuing issue => exact ⟨fun rt hrt => h.presented (hp.1 rt hrt), h.counted hs hp.2⟩
  | succeeded presented id =>
      cases presented with
      | none => trivial
      | some presentedId =>
          refine ⟨hp.1.trans_le h.nextId, fun row hrow hid hlive => ?_⟩
          rcases h.rows row hrow with ⟨old, hold, hsame, -, heq⟩ | ⟨hnew, -⟩
          · obtain rfl := heq hlive
            exact hp.2 old hold hid hlive
          · exact absurd hp.1 (not_lt.mpr (hid ▸ hnew))
  | _ => trivial

theorem Numbered.later (hs : Numbered s) (h : Later s u) (hunique : (u.rows.map RefreshToken.id).Nodup)
    (hnew : ∀ row ∈ u.rows, s.realm.nextId ≤ row.id →
      row.id < u.realm.nextId ∧ row.login < u.realm.logins ∧ u.createdAt row.id ≤ u.realm.now) : Numbered u := by
  have hrow : ∀ row ∈ u.rows,
      row.id < u.realm.nextId ∧ row.login < u.realm.logins ∧ u.createdAt row.id ≤ u.realm.now := by
    intro row hrow
    rcases h.rows row hrow with ⟨old, hold, hid, hlogin, -⟩ | ⟨hid, -⟩
    · have hold' := hs.ids old hold
      refine ⟨hid ▸ hold'.trans_le h.nextId, hlogin ▸ (hs.logins old hold).trans_le h.logins, ?_⟩
      rw [← hid, h.createdAt old.id hold']
      exact (hs.createdAt old hold).trans h.now
    · exact hnew row hrow hid
  exact ⟨fun row hmem => (hrow row hmem).1, fun row hmem => (hrow row hmem).2.1, fun row hmem => (hrow row hmem).2.2,
    hunique⟩

theorem Numbered.withRows (hs : Numbered s) {rows : List RefreshToken}
    (h : ∀ row ∈ rows, ∃ old ∈ s.rows, old.id = row.id ∧ old.login = row.login)
    (hsub : (rows.map RefreshToken.id).Sublist (s.rows.map RefreshToken.id)) : Numbered (s.withRows rows) := by
  refine ⟨?_, ?_, ?_, hsub.nodup hs.unique⟩
  · intro row hrow
    obtain ⟨old, hold, hid, -⟩ := h row hrow
    exact hid ▸ hs.ids old hold
  · intro row hrow
    obtain ⟨old, hold, -, hlogin⟩ := h row hrow
    exact hlogin ▸ hs.logins old hold
  · intro row hrow
    obtain ⟨old, hold, hid, -⟩ := h row hrow
    exact hid ▸ hs.createdAt old hold

theorem map_id_revokeRows (at' : Instant) (ids : List Uuid) (rows : List RefreshToken) :
    (revokeRows at' ids rows).map RefreshToken.id = rows.map RefreshToken.id := by
  rw [revokeRows, List.map_map]
  refine List.map_congr_left fun rt _ => ?_
  rw [Function.comp_apply]
  split <;> rfl

theorem chain_lt {issue : Issue} (hp : ∀ rt ∈ issue.presented, Presented s rt) :
    s.chain issue < (s.issue settings issue).realm.logins := by
  rw [Store.chain, Store.issue]
  dsimp only
  cases hpresented : issue.presented with
  | none => exact Nat.lt_succ_self _
  | some rt => exact (hp rt hpresented).login

theorem Numbered.issue (hs : Numbered s) {issue : Issue} (hp : ∀ rt ∈ issue.presented, Presented s rt) :
    Numbered (s.issue settings issue) := by
  have hunique : ((s.issue settings issue).rows.map RefreshToken.id).Nodup := by
    rw [Store.rows, Store.issue, List.map_append, map_id_revokeRows]
    refine List.Nodup.append hs.unique (List.nodup_singleton _) (List.disjoint_singleton.mpr fun hmem => ?_)
    obtain ⟨rt, hrt, hid⟩ := List.mem_map.mp hmem
    exact absurd (hs.ids rt hrt) (not_lt.mpr (hid ▸ Nat.le_succ _))
  refine hs.later (Later.issue issue) hunique fun row hrow hid => ?_
  rcases List.mem_append.mp hrow with hold | hnew
  · obtain ⟨old, hold, hsame, -⟩ := mem_revokeRows_iff hold
    exact absurd (hs.ids old hold) (not_lt.mpr (hsame ▸ hid))
  · obtain rfl := List.mem_singleton.mp hnew
    refine ⟨Nat.lt_succ_self _, chain_lt hp, ?_⟩
    have hcreated : (s.issue settings issue).createdAt (s.realm.nextId + 1) = s.realm.now := Function.update_self _ _ _
    exact hcreated.le

theorem Numbered.elapse (hs : Numbered s) (duration : Nat) : Numbered (s.elapse duration) :=
  ⟨hs.ids, hs.logins, fun rt hrt => (hs.createdAt rt hrt).trans (Int.le_add_of_nonneg_right (Int.natCast_nonneg _)),
    hs.unique⟩

theorem turn_numbered (hs : Numbered s) {i : Nat} (hp : Local i s p) (h : turn settings s order p = some (u, q)) :
    Numbered u := by
  rcases turn_store h with rfl | ⟨duration, rfl⟩ | ⟨ids, rfl⟩ | ⟨keep, rfl⟩ | ⟨issue, rfl, rfl⟩
  · exact hs
  · exact hs.elapse duration
  · have hids := map_id_revokeRows s.realm.now ids s.rows
    refine hs.withRows (fun row hrow => ?_) (hids ▸ List.Sublist.refl _)
    obtain ⟨old, hold, hid, hlogin, -⟩ := mem_revokeRows_iff hrow
    exact ⟨old, hold, hid, hlogin⟩
  · exact hs.withRows (fun row hrow => ⟨row, (List.mem_filter.mp hrow).1, rfl, rfl⟩) (List.filter_sublist.map _)
  · exact hs.issue hp.1

theorem count_ok (hs : Numbered s) {user : Account} {presented : Option RefreshToken} {issue : Issue}
    (h : s.count user presented order = some issue) :
    issue.presented = presented ∧ issue.user = user ∧ Counted s issue := by
  obtain ⟨⟨hperm, hsorted⟩, h⟩ := Option.ite_none_right_eq_some.mp h
  cases h
  refine ⟨rfl, rfl, hsorted, fun rt hrt => ?_, le_refl _, fun row hrow huser hlive hother => Or.inl ?_⟩
  · have hmem := (List.mem_filter.mp (hperm.mem_iff.mp hrt)).1
    exact ⟨hs.ids rt hmem, hs.createdAt rt hmem⟩
  · exact hperm.mem_iff.mpr (List.mem_filter.mpr ⟨hrow, decide_eq_true ⟨huser, hlive, hother⟩⟩)

theorem turn_local (hs : Numbered s) {i : Nat} (hp : Local i s p) (h : turn settings s order p = some (u, q)) :
    Local i u q := by
  cases p with
  | login username password =>
      rw [turn] at h
      split at h <;> cases h <;> trivial
  | oauthLogin userId =>
      obtain ⟨user, -, h⟩ := Option.map_eq_some_iff.mp h
      cases h
      trivial
  | authenticated user =>
      obtain ⟨issue, hissue, h⟩ := Option.map_eq_some_iff.mp h
      cases h
      obtain ⟨hpresented, -, hcounted⟩ := count_ok hs hissue
      refine ⟨fun rt hrt => ?_, hcounted⟩
      rw [hpresented] at hrt
      exact nomatch hrt
  | refresh id =>
      rw [turn] at h
      split at h
      · cases h
        trivial
      · rename_i rt hrt
        cases h
        obtain ⟨hmem, -⟩ := mem_of_verifyRefreshToken hrt
        refine ⟨hs.ids rt hmem, hs.logins rt hmem, fun row hrow hid => ?_⟩
        rw [List.inj_on_of_nodup_map hs.unique hrow hmem hid]
  | verified rt =>
      rw [turn] at h
      split at h
      · cases h
        trivial
      split at h
      · cases h
        trivial
      · obtain ⟨issue, hissue, h⟩ := Option.map_eq_some_iff.mp h
        cases h
        obtain ⟨hpresented, -, hcounted⟩ := count_ok hs hissue
        refine ⟨fun rt' hrt => ?_, hcounted⟩
        rw [hpresented] at hrt
        exact Option.some.inj hrt ▸ hp
  | issuing issue =>
      rw [turn] at h
      split at h
      · cases h
        cases hpresented : issue.presented with
        | none =>
            rw [Issue.presentedId, hpresented]
            trivial
        | some rt =>
            rw [Issue.presentedId, hpresented]
            have hid := (hp.1 rt hpresented).id
            refine ⟨hid.trans_le (Nat.le_add_right _ _), fun row hrow hsame => ?_⟩
            rcases List.mem_append.mp hrow with hold | hnew
            · obtain ⟨-, -, -, -, hrevoked, -⟩ := mem_revokeRows_iff hold
              refine hrevoked (List.mem_append_left _ ?_)
              rw [Issue.presentedId, hpresented, hsame]
              exact List.mem_singleton.mpr rfl
            · obtain rfl := List.mem_singleton.mp hnew
              exact absurd hid (not_lt.mpr (hsame ▸ Nat.le_succ _))
      · cases h
        trivial
  | cleanUp =>
      cases h
      split <;> trivial
  | wait duration =>
      cases h
      trivial
  | succeeded presented id => exact nomatch h
  | refused raise => exact nomatch h
  | done => exact nomatch h

theorem local_begin (i : Nat) (s : Store) (request : Request) : Local i s (begin request) := by
  cases request <;> trivial

theorem sound_started (site : Site) (now : Instant) : Sound Numbered Local (started site now) :=
  ⟨⟨fun _ h => (nomatch h), fun _ h => (nomatch h), fun _ h => (nomatch h), List.nodup_nil⟩, fun _ _ h => (nomatch h)⟩

/-- In every run, every call knows what it needs of the rows it has read. -/
theorem sound_run (settings : AuthSettings) (site : Site) (now : Instant) (events : List Event) :
    AllStates (step begin (advance settings)) (Sound Numbered Local) (started site now) events :=
  allStates_sound (fun i s request _ => local_begin i s request)
    (fun _ _ _ _ _ _ hs hp h => ⟨turn_numbered hs hp h, turn_local hs hp h⟩)
    (fun _ _ _ _ _ _ _ _ _ hs _ hr h => (turn_later h).local hs hr) (sound_started site now) events

def OfChain (n : Nat) (rt : RefreshToken) : Prop := rt.login = n ∧ rt.revokedAt = none

instance (n : Nat) : DecidablePred (OfChain n) := fun _ => inferInstanceAs (Decidable (_ ∧ _))

def Chains (s : Store) : Prop := ∀ n, s.rows.countP (OfChain n) ≤ 1

def pending : Phase → Option Issue
  | .issuing issue => some issue
  | _ => none

def Unraced (s : Store) (p : Phase) : Prop :=
  ∀ issue ∈ pending p, ∀ rt ∈ issue.presented, ∃ row ∈ s.rows, row.id = rt.id ∧ row.revokedAt = none

instance (s : Store) (p : Phase) : Decidable (Unraced s p) :=
  inferInstanceAs (Decidable (∀ issue ∈ pending p, ∀ rt ∈ issue.presented, ∃ row ∈ s.rows, _))

def redeemed : Phase → Option Uuid
  | .succeeded presented _ => presented
  | _ => none

/-- No token is redeemed by two refreshes, and no chain has two live tokens. -/
def Linear (s : System Store Phase) : Prop :=
  (s.calls.filterMap redeemed).Nodup ∧
    ∀ rt ∈ s.shared.rows, s.shared.rows.countP (fun other => other.login = rt.login ∧ Live s.shared.realm other) ≤ 1

instance (s : System Store Phase) : Decidable (Linear s) :=
  inferInstanceAs (Decidable (_ ∧ ∀ rt ∈ s.shared.rows, _))

theorem countP_revokeRows_le (at' : Instant) (ids : List Uuid) (rows : List RefreshToken) (n : Nat) :
    (revokeRows at' ids rows).countP (OfChain n) ≤ rows.countP (OfChain n) := by
  rw [revokeRows, List.countP_map]
  refine List.countP_mono_left fun _ _ h => ?_
  rw [Function.comp_apply] at h
  split at h
  · exact nomatch (of_decide_eq_true h).2
  · exact h

theorem countP_revokeRows_eq_zero {at' : Instant} {ids : List Uuid} {rows : List RefreshToken} {n : Nat}
    (h : ∀ rt ∈ rows, OfChain n rt → rt.id ∈ ids) : (revokeRows at' ids rows).countP (OfChain n) = 0 := by
  rw [List.countP_eq_zero]
  intro row hrow hchain
  have hchain := of_decide_eq_true hchain
  obtain ⟨old, hold, hid, -, hrevoked, hsame⟩ := mem_revokeRows_iff hrow
  obtain rfl := hsame hchain.2
  exact hrevoked (h old hold hchain) hchain.2

theorem eq_of_countP_le_one {α : Type} {p : α → Bool} {l : List α} (h : l.countP p ≤ 1) {a b : α} (ha : a ∈ l) (hb : b ∈ l)
    (hpa : p a) (hpb : p b) : a = b := by
  rw [List.countP_eq_length_filter] at h
  have ha := List.mem_filter.mpr ⟨ha, hpa⟩
  have hb := List.mem_filter.mpr ⟨hb, hpb⟩
  obtain ⟨c, hc⟩ := List.length_eq_one_iff.mp (le_antisymm h (List.length_pos_of_mem ha))
  rw [hc, List.mem_singleton] at ha hb
  exact ha.trans hb.symm

theorem Chains.issue (hc : Chains s) (hs : Numbered s) {issue : Issue} (hp : ∀ rt ∈ issue.presented, Presented s rt)
    (hunraced : Unraced s (.issuing issue)) : Chains (s.issue settings issue) := by
  -- Nothing of the chain is left once the token presented is revoked.
  have hnone : (revokeRows issue.since issue.revokes s.rows).countP (OfChain (s.chain issue)) = 0 := by
    refine countP_revokeRows_eq_zero fun row hrow hchain => ?_
    cases hpresented : issue.presented with
    | none =>
        have hlt := hs.logins row hrow
        rw [hchain.1, Store.chain, hpresented] at hlt
        exact absurd hlt (lt_irrefl _)
    | some rt =>
        obtain ⟨own, hown, hid, hlive⟩ := hunraced issue rfl rt hpresented
        have hlogin : row.login = rt.login := by
          rw [hchain.1, Store.chain, hpresented]
          rfl
        have hownChain : OfChain rt.login own := ⟨(hp rt hpresented).same own hown hid, hlive⟩
        have hrowChain : OfChain rt.login row := ⟨hlogin, hchain.2⟩
        have hsame := eq_of_countP_le_one (hc rt.login) hrow hown (decide_eq_true hrowChain) (decide_eq_true hownChain)
        refine List.mem_append_left _ ?_
        rw [Issue.presentedId, hpresented, hsame, hid]
        exact List.mem_singleton.mpr rfl
  intro n
  rw [Store.rows, Store.issue, List.countP_append, List.countP_singleton]
  by_cases hn : n = s.chain issue
  · rw [hn, hnone]
    split <;> omega
  · rw [if_neg fun h => hn (of_decide_eq_true h).1.symm]
    exact (countP_revokeRows_le _ _ _ n).trans (hc n)

theorem Chains.turn (hc : Chains s) (hs : Numbered s) {i : Nat} (hp : Local i s p) (hunraced : Unraced s p)
    (h : turn settings s order p = some (u, q)) : Chains u := by
  rcases turn_store h with rfl | ⟨duration, rfl⟩ | ⟨ids, rfl⟩ | ⟨keep, rfl⟩ | ⟨issue, rfl, rfl⟩
  · exact hc
  · exact hc
  · exact fun n => (countP_revokeRows_le _ _ _ n).trans (hc n)
  · exact fun n => (List.Sublist.countP_le List.filter_sublist).trans (hc n)
  · exact hc.issue hs hp.1 hunraced

/-- A call that takes a turn has redeemed nothing yet, and what it redeems is the token it presented. -/
theorem redeemed_turn (h : turn settings s order p = some (u, q)) :
    redeemed p = none ∧ ∀ id ∈ redeemed q, ∃ issue, p = .issuing issue ∧ issue.presentedId = some id := by
  cases p with
  | login username password =>
      rw [turn] at h
      split at h <;> cases h <;> exact ⟨rfl, fun _ h => nomatch h⟩
  | oauthLogin userId =>
      obtain ⟨user, -, h⟩ := Option.map_eq_some_iff.mp h
      cases h
      exact ⟨rfl, fun _ h => nomatch h⟩
  | authenticated user =>
      obtain ⟨issue, -, h⟩ := Option.map_eq_some_iff.mp h
      cases h
      exact ⟨rfl, fun _ h => nomatch h⟩
  | refresh id =>
      rw [turn] at h
      split at h <;> cases h <;> exact ⟨rfl, fun _ h => nomatch h⟩
  | verified rt =>
      rw [turn] at h
      split at h
      · cases h
        exact ⟨rfl, fun _ h => nomatch h⟩
      split at h
      · cases h
        exact ⟨rfl, fun _ h => nomatch h⟩
      · obtain ⟨issue, -, h⟩ := Option.map_eq_some_iff.mp h
        cases h
        exact ⟨rfl, fun _ h => nomatch h⟩
  | issuing issue =>
      rw [turn] at h
      split at h
      · cases h
        exact ⟨rfl, fun id hid => ⟨issue, rfl, hid⟩⟩
      · cases h
        exact ⟨rfl, fun _ h => nomatch h⟩
  | cleanUp =>
      cases h
      refine ⟨rfl, fun id hid => ?_⟩
      split at hid <;> exact nomatch hid
  | wait duration =>
      cases h
      exact ⟨rfl, fun _ h => nomatch h⟩
  | succeeded presented id => exact nomatch h
  | refused raise => exact nomatch h
  | done => exact nomatch h

variable {x y : System Store Phase} {e : Event}

theorem nodup_step (hx : Sound Numbered Local x) (hnodup : (x.calls.filterMap redeemed).Nodup)
    (hunraced : Before Unraced x e) (h : step begin (advance settings) x e = some y) :
    (y.calls.filterMap redeemed).Nodup := by
  cases e with
  | call request =>
      rw [step_call h, List.filterMap_append]
      have hnone : redeemed (begin request) = none := by cases request <;> rfl
      rwa [List.filterMap_cons_none hnone, List.filterMap_nil, List.append_nil]
  | turn i order =>
      obtain ⟨p, q, u, hp, hq, rfl⟩ := step_turn h
      obtain ⟨hbefore, hafter⟩ := redeemed_turn hq
      obtain ⟨before, after, hcalls, hset⟩ := exists_split hp
      rw [hcalls, List.filterMap_append, List.filterMap_cons_none hbefore, ← List.filterMap_append] at hnodup
      rw [hset, List.filterMap_append]
      cases hredeemed : redeemed q with
      | none => rwa [List.filterMap_cons_none hredeemed, ← List.filterMap_append]
      | some id =>
          rw [List.filterMap_cons_some hredeemed, List.nodup_middle, List.nodup_cons, ← List.filterMap_append]
          refine ⟨fun hmem => ?_, hnodup⟩
          obtain ⟨issue, rfl, hpresented⟩ := hafter id hredeemed
          obtain ⟨rt, hrt, rfl⟩ := Option.map_eq_some_iff.mp hpresented
          obtain ⟨row, hrow, hid, hlive⟩ := hunraced _ hp issue rfl rt hrt
          -- Whoever has redeemed the token has left it revoked.
          obtain ⟨r, hr, hother⟩ := List.mem_filterMap.mp hmem
          have hcall : r ∈ x.calls := by
            rw [hcalls]
            exact List.mem_append.mpr ((List.mem_append.mp hr).imp_right (List.mem_cons_of_mem _))
          obtain ⟨j, hj⟩ := List.getElem?_of_mem hcall
          have hlocal := hx.2 j r hj
          cases r with
          | succeeded presented new =>
              cases hother
              exact hlocal.2 row hrow hid hlive
          | _ => exact nomatch hother

def Rotates (s : System Store Phase) : Prop :=
  Sound (fun s => Numbered s ∧ Chains s) Local s ∧ (s.calls.filterMap redeemed).Nodup

theorem rotates_step (hx : Rotates x) (hunraced : Before Unraced x e)
    (h : step begin (advance settings) x e = some y) : Rotates y := by
  refine ⟨hx.1.step hunraced h (fun i s request _ => local_begin i s request) ?_ ?_,
    nodup_step ⟨hx.1.1.1, hx.1.2⟩ hx.2 hunraced h⟩
  · exact fun _ _ _ _ _ _ hs hp hunraced h =>
      ⟨⟨turn_numbered hs.1 hp h, hs.2.turn hs.1 hp hunraced h⟩, turn_local hs.1 hp h⟩
  · exact fun _ _ _ _ _ _ _ _ _ hs _ hr h => (turn_later h).local hs.1 hr

theorem linear_of_rotates (hx : Rotates x) : Linear x := by
  refine ⟨hx.2, fun rt _ => (List.countP_mono_left fun _ _ h => ?_).trans (hx.1.1.2 rt.login)⟩
  have h := of_decide_eq_true h
  exact decide_eq_true (⟨h.1, h.2.1⟩ : OfChain rt.login _)

/-- Where every refresh that commits still finds its token unrevoked, rotation
is linear, whatever else goes on. -/
theorem rotation_linear (settings : AuthSettings) (site : Site) (now : Instant)
    (events : List Event)
    (h : AllSteps (step begin (advance settings)) (Before Unraced) (started site now) events) :
    AllStates (step begin (advance settings)) Linear (started site now) events := by
  have hstart : Rotates (started site now) := by
    obtain ⟨hs, hcalls⟩ := sound_started site now
    exact ⟨⟨⟨hs, fun _ => Nat.zero_le _⟩, hcalls⟩, List.nodup_nil⟩
  have hrun : AllStates (step begin (advance settings)) Rotates (started site now) events :=
    allStates_of_allSteps (fun _ _ _ hx hunraced h => rotates_step hx hunraced h) hstart h
  exact hrun.mono fun _ => linear_of_rotates

section House

def rotatedToken : RefreshToken := ⟨3, 1, day + defaultSettings.refreshLifetime, none, 0⟩

/-- Ada is logged in and two refreshes present her token. -/
def presentedTwice : List Event :=
  [.call (.login "ada" "lovelace"), .turn 0 [], .turn 0 [], .turn 0 [], .call (.refresh 1), .call (.refresh 1)]

theorem rotation_linear_in_turn :
    AllStates (step begin (advance defaultSettings)) Linear (started house day)
      (presentedTwice ++ [.turn 1 [], .turn 1 [], .turn 1 [], .turn 2 []]) :=
  rotation_linear defaultSettings house day _ (by decide +kernel)

/-- Both have found the token before either revokes it, and both are handed a pair. -/
theorem both_refreshes_succeed :
    ¬ ∀ (settings : AuthSettings) (site : Site) (now : Instant) (events : List Event),
      AllStates (step begin (advance settings)) Linear (started site now) events := by
  intro h
  have hrun := h defaultSettings house day (presentedTwice ++
    [.turn 1 [], .turn 2 [], .turn 1 [], .turn 1 [], .turn 2 [rotatedToken], .turn 2 []])
  revert hrun
  decide +kernel

end House

end NukeLab.RefreshRotation
