import Mathlib.Tactic.Linarith
import Mathlib.Tactic.Ring
import NukeLab.Sessions

namespace NukeLab.SessionRevocation

open Machine Program Records Roles State Tables Sessions
open Administration hiding Event handle step login

variable (settings : AuthSettings)

/-- A credential of that login would give back what a completed change took:
the account's name in the role it had. -/
def Stale (s : Realm) (user : Account) (login : Nat) : Prop :=
  ∃ r ∈ s.revocations, r.username = user.username ∧ r.role = user.role ∧ login < r.logins

instance (s : Realm) (user : Account) (login : Nat) : Decidable (Stale s user login) :=
  inferInstanceAs (Decidable (∃ r ∈ s.revocations, _))

def Fresh (s : Realm) : Event → Prop
  | .request i => ∀ token ∈ s.issued[i]?, ∀ user ∈ getAuthContext settings s token, ¬ Stale s user token.login
  | .refresh id =>
    ∀ rt ∈ verifyRefreshToken s id, ∀ user ∈ s.site.accounts.getById rt.userId, user.isActive → ¬ Stale s user rt.login
  | _ => True

instance (s : Realm) (e : Event) : Decidable (Fresh settings s e) :=
  match e with
  | .request i => inferInstanceAs (Decidable (∀ token ∈ s.issued[i]?, ∀ user ∈ getAuthContext settings s token, _))
  | .refresh id => inferInstanceAs (Decidable (∀ rt ∈ verifyRefreshToken s id, ∀ user ∈ s.site.accounts.getById rt.userId, _ → _))
  | .login _ _ | .oauthCallback _ _ _ | .logout _ _ | .changePassword _ _ _ | .updateUser _ _ _ | .disableUser _ _
  | .bulkUserAction _ _ | .deleteUser _ | .wait _ => .isTrue trivial

def Live (s : Realm) (rt : RefreshToken) : Prop := rt.revokedAt = none ∧ s.now < rt.expiresAt

instance (s : Realm) (rt : RefreshToken) : Decidable (Live s rt) := inferInstanceAs (Decidable (_ ∧ _))

def Spent (s : Realm) (token : AccessToken) : Prop :=
  token.exp + settings.leeway ≤ s.now ∨ ∃ cutoff ∈ s.cutoffs token.sub, token.iat ≤ cutoff

instance (s : Realm) (token : AccessToken) : Decidable (Spent settings s token) :=
  inferInstanceAs (Decidable (_ ∨ ∃ cutoff ∈ s.cutoffs token.sub, _))

def Clear (s : Realm) (user : Account) : Prop :=
  (∀ token ∈ s.issued, token.sub = user.username → Stale s user token.login → Spent settings s token) ∧
    ∀ rt ∈ s.refreshTokens, rt.userId = user.id → Live s rt → ¬ Stale s user rt.login

instance (s : Realm) (user : Account) : Decidable (Clear settings s user) :=
  inferInstanceAs (Decidable ((∀ token ∈ s.issued, _ → _ → _) ∧ ∀ rt ∈ s.refreshTokens, _ → _ → _))

/-- What would have to be so before a step, since refresh tokens outlive every
change and the batch endpoint and the deletion cut nothing off: a password
changes where no refresh token is live, a role becomes one that no live refresh
token dates from, and an account is enabled, or opened anew, where nothing stale
is left of it. -/
def Settled (s : Realm) : Event → Prop
  | .changePassword userId _ _ =>
    ∀ user ∈ s.site.accounts.getById userId, user.isActive → ∀ rt ∈ s.refreshTokens, rt.userId = userId → ¬ Live s rt
  | .updateUser _ userId data =>
    ∀ user ∈ s.site.accounts.getById userId, user.isActive → ∀ role ∈ data.role.bind Role.parse,
      ∀ rt ∈ s.refreshTokens, rt.userId = userId → Live s rt → role ≠ user.role ∧ ¬ Stale s { user with role } rt.login
  | .disableUser userId disabled => disabled = false → ∀ user ∈ s.site.accounts.getById userId, Clear settings s user
  | .bulkUserAction action userIds =>
    action = "enable" → ∀ id ∈ userIds, ∀ user ∈ s.site.accounts.getById id, Clear settings s user
  | .oauthCallback userId username email =>
    s.site.accounts.getById userId = none → Clear settings s (oauthUser settings userId username email)
  | _ => True

instance (s : Realm) (e : Event) : Decidable (Settled settings s e) :=
  match e with
  | .changePassword userId _ _ =>
    inferInstanceAs (Decidable (∀ user ∈ s.site.accounts.getById userId, _ → ∀ rt ∈ s.refreshTokens, _ → _))
  | .updateUser _ userId data =>
    inferInstanceAs (Decidable (∀ user ∈ s.site.accounts.getById userId, _ → ∀ role ∈ data.role.bind Role.parse,
      ∀ rt ∈ s.refreshTokens, _ → _ → _))
  | .disableUser userId _ => inferInstanceAs (Decidable (_ → ∀ user ∈ s.site.accounts.getById userId, _))
  | .bulkUserAction _ userIds =>
    inferInstanceAs (Decidable (_ → ∀ id ∈ userIds, ∀ user ∈ s.site.accounts.getById id, _))
  | .oauthCallback _ _ _ => inferInstanceAs (Decidable (_ → _))
  | .login _ _ | .request _ | .refresh _ | .logout _ _ | .deleteUser _ | .wait _ => .isTrue trivial

structure Dated (s : Realm) : Prop where
  cutoffs : ∀ sub, ∀ cutoff ∈ s.cutoffs sub, cutoff ≤ s.now
  logins : ∀ r ∈ s.revocations, r.logins ≤ s.logins
  issued : ∀ token ∈ s.issued, token.iat ≤ s.now ∧ token.exp = token.iat + settings.accessLifetime

def AllClear (s : Realm) : Prop :=
  ∀ id user, s.site.accounts.getById id = some user → user.isActive → Clear settings s user

/-- Time goes on, cutoffs move up, and refresh tokens are only lost. -/
structure Grows (s t : Realm) : Prop where
  now : s.now ≤ t.now
  cutoffs : ∀ sub, ∀ cutoff ∈ s.cutoffs sub, ∃ later ∈ t.cutoffs sub, cutoff ≤ later
  refreshTokens : ∀ rt ∈ t.refreshTokens, rt.revokedAt = none → rt ∈ s.refreshTokens
  issued : t.issued = s.issued

variable {settings} {s t : Realm}

theorem Grows.spent (h : Grows s t) {token : AccessToken} (hs : Spent settings s token) : Spent settings t token := by
  rcases hs with hexp | ⟨cutoff, hcutoff, hle⟩
  · exact Or.inl (hexp.trans h.now)
  · obtain ⟨later, hlater, hle'⟩ := h.cutoffs token.sub cutoff hcutoff
    exact Or.inr ⟨later, hlater, hle.trans hle'⟩

theorem Grows.live (h : Grows s t) {rt : RefreshToken} (hrt : rt ∈ t.refreshTokens) (hl : Live t rt) :
    rt ∈ s.refreshTokens ∧ Live s rt :=
  ⟨h.refreshTokens rt hrt hl.1, hl.1, lt_of_le_of_lt h.now hl.2⟩

theorem Grows.clear (h : Grows s t) {user user' : Account} (hc : Clear settings s user)
    (hname : user'.username = user.username) (hid : user'.id = user.id)
    (hstale : ∀ login, Stale t user' login → Stale s user login) : Clear settings t user' := by
  constructor
  · intro token htoken hsub hst
    rw [h.issued] at htoken
    exact h.spent (hc.1 token htoken (hsub.trans hname) (hstale token.login hst))
  · intro rt hrt huser hl hst
    obtain ⟨hrt, hl⟩ := h.live hrt hl
    exact hc.2 rt hrt (huser.trans hid) hl (hstale rt.login hst)

theorem numericDate_exp (now : Instant) :
    numericDate (now + settings.accessLifetime) = numericDate now + settings.accessLifetime := by
  have h : settings.accessLifetime = settings.jwtExpireMinutes * 60 * second := (mul_assoc _ _ _).symm
  rw [h, numericDate_add]

theorem verify_of_spent (hleeway : settings.leeway ≤ settings.accessLifetime) (hs : Dated settings s)
    {token : AccessToken} (ht : token ∈ s.issued) (h : Spent settings s token) :
    verifyAccessToken settings s token = false := by
  by_contra hv
  simp only [verifyAccessToken, Bool.not_eq_false, Bool.and_eq_true, decide_eq_true_eq] at hv
  obtain ⟨⟨⟨⟨hexp, -⟩, -⟩, -⟩, hcut⟩ := hv
  obtain ⟨-, hlife⟩ := hs.issued token ht
  have hnow : s.now < token.exp + settings.leeway := sub_lt_iff_lt_add.mp hexp
  rcases h with hspent | ⟨cutoff, hcutoff, hle⟩
  · exact absurd hspent (not_le.mpr hnow)
  · have hlifetime : settings.cutoffLifetime = settings.accessLifetime + settings.accessLifetime := by
      rw [AuthSettings.cutoffLifetime, AuthSettings.accessLifetime]
      ring
    have hkept : s.now < cutoff + settings.cutoffLifetime := by linarith
    have hget : getUserRevocationCutoff settings s token.sub = some cutoff := by
      rw [getUserRevocationCutoff, Option.mem_def.mp hcutoff]
      exact Option.filter_some_pos (decide_eq_true hkept)
    rw [hget, Option.all_some, decide_eq_true_iff] at hcut
    exact absurd hle (not_le.mpr hcut)

def Sound (settings : AuthSettings) (s : Realm) : Prop := Dated settings s ∧ AllClear settings s

theorem Dated.of_grows (hs : Dated settings s) (hg : Grows s t)
    (hcutoffs : ∀ sub, ∀ cutoff ∈ t.cutoffs sub, cutoff ∈ s.cutoffs sub ∨ cutoff = s.now)
    (hlogins : s.logins ≤ t.logins) (hrevs : ∀ r ∈ t.revocations, r ∈ s.revocations ∨ r.logins = s.logins) :
    Dated settings t where
  cutoffs sub cutoff hcutoff := by
    rcases hcutoffs sub cutoff hcutoff with hold | rfl
    · exact (hs.cutoffs sub cutoff hold).trans hg.now
    · exact hg.now
  logins r hr := by
    rcases hrevs r hr with hold | heq
    · exact (hs.logins r hold).trans hlogins
    · exact heq.le.trans hlogins
  issued token htoken := by
    rw [hg.issued] at htoken
    exact ⟨(hs.issued token htoken).1.trans hg.now, (hs.issued token htoken).2⟩

theorem Sound.of_grows (hs : Sound settings s) (hg : Grows s t) (hsite : t.site = s.site)
    (hcutoffs : ∀ sub, ∀ cutoff ∈ t.cutoffs sub, cutoff ∈ s.cutoffs sub ∨ cutoff = s.now)
    (hlogins : s.logins ≤ t.logins) (hrevs : t.revocations = s.revocations) : Sound settings t := by
  refine ⟨hs.1.of_grows hg hcutoffs hlogins fun r hr => Or.inl (hrevs ▸ hr), fun id user huser hactive => ?_⟩
  rw [hsite] at huser
  refine hg.clear (hs.2 id user huser hactive) rfl rfl fun login hst => ?_
  rwa [Stale, hrevs] at hst

theorem mem_revokeRows {now : Instant} {ids : List Uuid} {rows : List RefreshToken} {rt : RefreshToken}
    (h : rt ∈ revokeRows now ids rows) (hlive : rt.revokedAt = none) : rt ∈ rows := by
  obtain ⟨old, hold, heq⟩ := List.mem_map.mp h
  split at heq
  · rw [← heq] at hlive
    exact nomatch hlive
  · exact heq ▸ hold

theorem mem_enforce {now : Instant} {userId : Uuid} {rows : List RefreshToken} {rt : RefreshToken}
    (h : rt ∈ enforceRefreshTokenLimit now userId rows) (hlive : rt.revokedAt = none) : rt ∈ rows := by
  unfold enforceRefreshTokenLimit at h
  dsimp only at h
  split at h
  · exact h
  · exact mem_revokeRows h hlive

theorem Sound.createTokens (hs : Sound settings s) {id : Uuid} {user : Account}
    (huser : s.site.accounts.getById id = some user) {login : Nat} (hlogin : ¬ Stale s user login) :
    Sound settings (createTokens settings s user login) := by
  obtain ⟨hdated, hclear⟩ := hs
  have hmem := Accounts.mem_of_getById huser
  constructor
  · refine ⟨hdated.cutoffs, hdated.logins, fun token htoken => ?_⟩
    rcases List.mem_cons.mp htoken with rfl | hold
    · exact ⟨numericDate_le s.now, numericDate_exp s.now⟩
    · exact hdated.issued token hold
  · intro id' other hother hactive
    obtain ⟨htokens, hrts⟩ := hclear id' other hother hactive
    have hsame : other.username = user.username → ¬ Stale s other login := fun hname =>
      Accounts.eq_of_username (Accounts.mem_of_getById hother) hmem hname ▸ hlogin
    constructor
    · intro token htoken hsub hst
      rcases List.mem_cons.mp htoken with rfl | hold
      · exact absurd hst (hsame hsub.symm)
      · exact htokens token hold hsub hst
    · intro rt hrt hid hl
      rcases List.mem_append.mp hrt with hold | hnew
      · exact hrts rt (mem_enforce hold hl.1) hid hl
      · obtain rfl := List.mem_singleton.mp hnew
        have heq : id' = id := by
          rw [← Accounts.id_of_getById hother, ← Accounts.id_of_getById huser]
          exact hid.symm
        subst heq
        obtain rfl := Option.some.inj (hother.symm.trans huser)
        exact hlogin

theorem Dated.not_stale (hs : Dated settings s) (user : Account) : ¬ Stale s user s.logins := by
  rintro ⟨r, hr, -, -, hlt⟩
  exact absurd (hs.logins r hr) (not_le.mpr hlt)

theorem mem_revokeUserTokens {userId : Uuid} {sub : String} {cutoff : Instant}
    (h : cutoff ∈ s.revokeUserTokens userId sub) : cutoff ∈ s.cutoffs sub ∨ cutoff = s.now := by
  unfold Realm.revokeUserTokens at h
  split at h
  · exact Or.inl h
  · split at h
    · exact Or.inr (Option.some.inj h).symm
    · exact Or.inl h

theorem revokeUserTokens_le (hs : Dated settings s) (userId : Uuid) (sub : String) (cutoff : Instant)
    (h : cutoff ∈ s.cutoffs sub) : ∃ later ∈ s.revokeUserTokens userId sub, cutoff ≤ later := by
  unfold Realm.revokeUserTokens
  split
  · exact ⟨cutoff, h, le_refl _⟩
  · split
    · exact ⟨s.now, rfl, hs.cutoffs sub cutoff h⟩
    · exact ⟨cutoff, h, le_refl _⟩

theorem now_mem_revokeUserTokens {userId : Uuid} {user : Account} (h : s.site.accounts.getById userId = some user) :
    s.now ∈ s.revokeUserTokens userId user.username := by
  rw [Realm.revokeUserTokens, h]
  exact if_pos rfl

theorem mem_completed {userIds : List Uuid} {r : Revocation} :
    r ∈ s.completed userIds ↔
      (∃ id ∈ userIds, ∃ user, s.site.accounts.getById id = some user ∧ ⟨user.username, user.role, s.logins⟩ = r) ∨
        r ∈ s.revocations := by
  simp only [Realm.completed, List.mem_append, List.mem_map, List.mem_filterMap]
  constructor
  · rintro (⟨user, ⟨id, hid, huser⟩, rfl⟩ | hr)
    · exact Or.inl ⟨id, hid, user, huser, rfl⟩
    · exact Or.inr hr
  · rintro (⟨id, hid, user, huser, rfl⟩ | hr)
    · exact Or.inl ⟨user, ⟨id, hid, huser⟩, rfl⟩
    · exact Or.inr hr

theorem stale_of_completed {userIds : List Uuid} {id : Uuid} {user : Account} (hid : id ∉ userIds)
    (huser : s.site.accounts.getById id = some user) (ht : t.revocations = s.completed userIds) {login : Nat}
    (h : Stale t user login) : Stale s user login := by
  obtain ⟨r, hr, hname, hrole, hlt⟩ := h
  rw [ht, mem_completed] at hr
  rcases hr with ⟨id', hid', other, hother, rfl⟩ | hr
  · exact absurd hname (Accounts.username_ne hother huser fun h => hid (h ▸ hid'))
  · exact ⟨r, hr, hname, hrole, hlt⟩

theorem stale_completed {userId : Uuid} {user user' : Account} (huser : s.site.accounts.getById userId = some user)
    (ht : t.revocations = s.completed [userId]) {login : Nat} (h : Stale t user' login) :
    user'.role = user.role ∨ Stale s user' login := by
  obtain ⟨r, hr, hname, hrole, hlt⟩ := h
  rw [ht, mem_completed] at hr
  rcases hr with ⟨id', hid', other, hother, rfl⟩ | hr
  · rw [List.mem_singleton.mp hid'] at hother
    obtain rfl := Option.some.inj (huser.symm.trans hother)
    exact Or.inl hrole.symm
  · exact Or.inr ⟨r, hr, hname, hrole, hlt⟩

theorem Sound.of_single (hs : Sound settings s) (hg : Grows s t)
    (hcutoffs : ∀ sub, ∀ cutoff ∈ t.cutoffs sub, cutoff ∈ s.cutoffs sub ∨ cutoff = s.now)
    (hlogins : s.logins ≤ t.logins) {k : Uuid} {row : Option Account}
    (hrows : ∀ id, t.site.accounts.getById id = if id = k then row else s.site.accounts.getById id)
    (hrevs : t.revocations = s.revocations ∨ t.revocations = s.completed [k])
    (hrow : ∀ user, row = some user → user.isActive → Clear settings t user) : Sound settings t := by
  refine ⟨hs.1.of_grows hg hcutoffs hlogins fun r hr => ?_, fun id user huser hactive => ?_⟩
  · rcases hrevs with hsame | hdone
    · exact Or.inl (hsame ▸ hr)
    · rw [hdone, mem_completed] at hr
      rcases hr with ⟨_, _, _, _, rfl⟩ | hold
      · exact Or.inr rfl
      · exact Or.inl hold
  · rw [hrows] at huser
    split at huser
    · exact hrow user huser hactive
    · rename_i hid
      refine hg.clear (hs.2 id user huser hactive) rfl rfl fun login hst => ?_
      rcases hrevs with hsame | hdone
      · rwa [Stale, hsame] at hst
      · exact stale_of_completed (fun hm => hid (List.mem_singleton.mp hm)) huser hdone hst

theorem spent_of_cut (hs : Dated settings s) {userId : Uuid} {user : Account}
    (huser : s.site.accounts.getById userId = some user) (ht : t.cutoffs = s.revokeUserTokens userId)
    {token : AccessToken} (htoken : token ∈ s.issued) (hsub : token.sub = user.username) : Spent settings t token := by
  refine Or.inr ⟨s.now, ?_, (hs.issued token htoken).1⟩
  rw [ht, hsub]
  exact now_mem_revokeUserTokens huser

theorem grows_revoked (hs : Dated settings s) (site : Site) (userId : Uuid) : Grows s (s.revoked site userId) where
  now := le_refl _
  cutoffs := revokeUserTokens_le hs userId
  refreshTokens _ hrt _ := hrt
  issued := rfl

theorem Sound.revoked (hs : Sound settings s) {site : Site} {userId : Uuid} {user : Account} {row : Account}
    (huser : s.site.accounts.getById userId = some user)
    (hrows : ∀ id, site.accounts.getById id = if id = userId then some row else s.site.accounts.getById id)
    (hname : row.username = user.username)
    (hrow : row.isActive → ∀ rt ∈ s.refreshTokens, rt.userId = userId → Live s rt →
      row.role ≠ user.role ∧ ¬ Stale s row rt.login) :
    Sound settings (s.revoked site userId) := by
  have hrow' : site.accounts.getById userId = some row := by rw [hrows, if_pos rfl]
  have hid : row.id = userId := Accounts.id_of_getById hrow'
  refine hs.of_single (grows_revoked hs.1 site userId) (fun _ _ => mem_revokeUserTokens) (le_refl _) hrows
    (Or.inr rfl) ?_
  rintro row' ⟨⟩ hactive
  refine ⟨fun token htoken hsub _ => spent_of_cut hs.1 huser rfl htoken (hsub.trans hname), fun rt hrt hrid hl hst => ?_⟩
  obtain ⟨hrole, hstale⟩ := hrow hactive rt hrt (hrid.trans hid) hl
  rcases stale_completed huser rfl hst with hsame | hold
  · exact hrole hsame
  · exact hstale hold

theorem Sound.of_site (hs : Sound settings s) {site : Site}
    (hrows : ∀ id user', site.accounts.getById id = some user' → user'.isActive →
      ∃ user, s.site.accounts.getById id = some user ∧ user'.username = user.username ∧ user'.id = user.id ∧
        user'.role = user.role ∧ Clear settings s user) : Sound settings { s with site } := by
  have hg : Grows s { s with site } :=
    ⟨le_refl _, fun _ cutoff h => ⟨cutoff, h, le_refl _⟩, fun _ hrt _ => hrt, rfl⟩
  refine ⟨⟨hs.1.cutoffs, hs.1.logins, hs.1.issued⟩, fun id user' huser' hactive => ?_⟩
  obtain ⟨user, -, hname, hid, hrole, hclear⟩ := hrows id user' huser' hactive
  refine hg.clear hclear hname hid fun login hst => ?_
  obtain ⟨r, hr, hrname, hrrole, hlt⟩ := hst
  exact ⟨r, hr, hrname.trans hname, hrrole.trans hrole, hlt⟩

theorem mem_of_verifyRefreshToken {id : Uuid} {rt : RefreshToken} (h : verifyRefreshToken s id = some rt) :
    rt ∈ s.refreshTokens ∧ Live s rt := by
  have hp := List.find?_some h
  simp only [decide_eq_true_eq] at hp
  exact ⟨List.mem_of_find?_eq_some h, hp.2⟩

section Events

variable (hs : Sound settings s)

include hs

theorem login_sound {username password : String} (h : Sessions.login settings s username password = .ok t) :
    Sound settings t := by
  unfold Sessions.login at h
  split at h
  · exact nomatch h
  split at h
  · exact nomatch h
  · rename_i user huser
    split at h
    · cases h
      have hmem := (Accounts.mem_of_getByUsername huser).1
      have hcounted : Sound settings { s with logins := s.logins + 1 } :=
        hs.of_grows ⟨le_refl _, fun _ cutoff h => ⟨cutoff, h, le_refl _⟩, fun _ hrt _ => hrt, rfl⟩ rfl
          (fun _ _ => Or.inl) (Nat.le_succ _) rfl
      exact hcounted.createTokens (Accounts.getById_of_mem hmem) (hs.1.not_stale user)
    · exact nomatch h

theorem oauthCallback_sound {userId : Uuid} {username email : String}
    (hsettled : Settled settings s (.oauthCallback userId username email))
    (h : oauthCallback settings s userId username email = .ok t) : Sound settings t := by
  unfold oauthCallback at h
  split at h
  · rename_i user huser
    cases h
    have hcounted : Sound settings { s with logins := s.logins + 1 } :=
      hs.of_grows ⟨le_refl _, fun _ cutoff h => ⟨cutoff, h, le_refl _⟩, fun _ hrt _ => hrt, rfl⟩ rfl
        (fun _ _ => Or.inl) (Nat.le_succ _) rfl
    exact hcounted.createTokens huser (hs.1.not_stale user)
  · rename_i hnone
    obtain ⟨accounts, hcommit, h⟩ := ok_of_bind h
    cases h
    have hrows := getById_insert hcommit hnone
    have hg : Grows s { s with site := { s.site with accounts }, logins := s.logins + 1 } :=
      ⟨le_refl _, fun _ cutoff h => ⟨cutoff, h, le_refl _⟩, fun _ hrt _ => hrt, rfl⟩
    have hopened : Sound settings { s with site := { s.site with accounts }, logins := s.logins + 1 } := by
      refine hs.of_single hg (fun _ _ => Or.inl) (Nat.le_succ _) hrows (Or.inl rfl) ?_
      rintro user ⟨⟩ -
      exact hg.clear (hsettled hnone) rfl rfl fun _ hst => hst
    have hnew := (hrows userId).trans (if_pos rfl)
    exact hopened.createTokens hnew (hs.1.not_stale _)

theorem revokeRows_sound (ids : List Uuid) (denylist : List (Uuid × Instant)) :
    Sound settings { s with denylist, refreshTokens := revokeRows s.now ids s.refreshTokens } :=
  hs.of_grows ⟨le_refl _, fun _ cutoff h => ⟨cutoff, h, le_refl _⟩, fun _ => mem_revokeRows, rfl⟩ rfl
    (fun _ _ => Or.inl) (le_refl _) rfl

theorem refresh_sound {id : Uuid} (h : refresh settings s id = .ok t) : Sound settings t := by
  unfold refresh at h
  split at h
  · exact nomatch h
  · rename_i rt hrt
    obtain ⟨hmem, hlive⟩ := mem_of_verifyRefreshToken hrt
    dsimp only at h
    split at h
    · cases h
      exact revokeRows_sound hs [rt.id] s.denylist
    · rename_i user huser
      cases h
      obtain ⟨hfound, hactive⟩ := Option.filter_eq_some_iff.mp huser
      refine (revokeRows_sound hs [rt.id] s.denylist).createTokens hfound ?_
      exact (hs.2 rt.userId user hfound hactive).2 rt hmem (Accounts.id_of_getById hfound).symm hlive

theorem changePassword_sound {userId : Uuid} {currentPassword newPassword : String} {site : Site}
    (hsettled : Settled settings s (.changePassword userId currentPassword newPassword))
    (h : changePassword s.site userId currentPassword newPassword = .ok site) :
    Sound settings (s.revoked site userId) := by
  obtain ⟨user, huser, hrows⟩ := changePassword_ok h
  refine hs.revoked huser hrows rfl fun hactive rt hrt hid hl => ?_
  exact absurd hl (hsettled user huser hactive rt hrt hid)

theorem updateUser_sound {updatedBy : Account} {userId : Uuid} {data : UserUpdate} {site : Site}
    (hsettled : Settled settings s (.updateUser updatedBy userId data))
    (h : updateUser s.site updatedBy userId data = .ok site) :
    Sound settings (if data.role.isSome then s.revoked site userId else { s with site }) := by
  obtain ⟨user, user', huser, hrole, hname, hactive, -, hrows⟩ := updateUser_ok h
  rcases updatedRole_ok hrole with ⟨hnone, hsame⟩ | ⟨text, htext, hparse, -, -⟩
  · rw [hnone, if_neg (by decide)]
    have hg : Grows s { s with site } :=
      ⟨le_refl _, fun _ cutoff h => ⟨cutoff, h, le_refl _⟩, fun _ hrt _ => hrt, rfl⟩
    refine hs.of_single hg (fun _ _ => Or.inl) (le_refl _) hrows (Or.inl rfl) ?_
    rintro row ⟨⟩ hrow
    have hid : user'.id = userId := by
      have hfound : site.accounts.getById userId = some user' := by rw [hrows, if_pos rfl]
      exact Accounts.id_of_getById hfound
    refine hg.clear (hs.2 userId user huser (hactive ▸ hrow)) hname (hid.trans (Accounts.id_of_getById huser).symm) ?_
    rintro login ⟨r, hr, hrname, hrrole, hlt⟩
    exact ⟨r, hr, hrname.trans hname, hrrole.trans hsame, hlt⟩
  · rw [htext, Option.isSome_some, if_pos rfl]
    refine hs.revoked huser hrows hname fun hrow rt hrt hid hl => ?_
    have hsettled := hsettled user huser (hactive ▸ hrow) user'.role (by rw [htext]; exact hparse) rt hrt hid hl
    refine ⟨hsettled.1, fun hst => hsettled.2 ?_⟩
    obtain ⟨r, hr, hrname, hrrole, hlt⟩ := hst
    exact ⟨r, hr, hrname.trans hname, hrrole, hlt⟩

theorem disableUser_sound {userId : Uuid} {disabled : Bool} {site : Site}
    (hsettled : Settled settings s (.disableUser userId disabled))
    (h : disableUser s.site userId disabled = .ok site) :
    Sound settings (if disabled then s.revoked site userId else { s with site }) := by
  obtain ⟨user, huser, -, hrows⟩ := disableUser_ok h
  cases disabled with
  | true => exact hs.revoked huser hrows rfl fun hactive => nomatch hactive
  | false =>
      have hg : Grows s { s with site } :=
        ⟨le_refl _, fun _ cutoff h => ⟨cutoff, h, le_refl _⟩, fun _ hrt _ => hrt, rfl⟩
      refine hs.of_single hg (fun _ _ => Or.inl) (le_refl _) hrows (Or.inl rfl) ?_
      rintro row ⟨⟩ -
      exact hg.clear (hsettled rfl user huser) rfl rfl fun _ hst => hst

theorem deleteUser_sound {userId : Uuid} {site : Site} (h : deleteUser s.site userId = .ok site) :
    Sound settings
      { s with site, refreshTokens := s.cascade [userId], revocations := s.completed [userId] } := by
  obtain ⟨-, -, hrows⟩ := deleteUser_ok h
  refine hs.of_single ⟨le_refl _, fun _ cutoff h => ⟨cutoff, h, le_refl _⟩, fun _ hrt _ => ?_, rfl⟩
    (fun _ _ => Or.inl) (le_refl _) hrows (Or.inr rfl) (fun _ h => nomatch h)
  exact (List.mem_filter.mp hrt).1

theorem Sound.of_batch {site : Site} {userIds : List Uuid} {refreshTokens : List RefreshToken}
    (hsub : ∀ rt ∈ refreshTokens, rt ∈ s.refreshTokens)
    (hrows : ∀ id user, site.accounts.getById id = some user → user.isActive →
      id ∉ userIds ∧ s.site.accounts.getById id = some user) :
    Sound settings { s with site, refreshTokens, revocations := s.completed userIds } := by
  have hg : Grows s { s with site, refreshTokens, revocations := s.completed userIds } :=
    ⟨le_refl _, fun _ cutoff h => ⟨cutoff, h, le_refl _⟩, fun rt hrt _ => hsub rt hrt, rfl⟩
  refine ⟨hs.1.of_grows hg (fun _ _ => Or.inl) (le_refl _) fun r hr => ?_, fun id user huser hactive => ?_⟩
  · rcases mem_completed.mp hr with ⟨_, _, _, _, rfl⟩ | hold
    · exact Or.inr rfl
    · exact Or.inl hold
  · obtain ⟨hid, hfound⟩ := hrows id user huser hactive
    exact hg.clear (hs.2 id user hfound hactive) rfl rfl fun _ => stale_of_completed hid hfound rfl

theorem bulkUserAction_sound {action : String} {userIds : List Uuid}
    (hsettled : Settled settings s (.bulkUserAction action userIds))
    (h : Sessions.handle settings s (.bulkUserAction action userIds) = .ok t) : Sound settings t := by
  obtain ⟨site, hsite, h⟩ := ok_of_bind h
  obtain ⟨-, ⟨rfl, hrows⟩ | ⟨rfl | rfl, hrows⟩⟩ := bulkUserAction_ok hsite
  · cases h
    refine Sound.of_batch hs (fun rt hrt => (List.mem_filter.mp hrt).1) fun id user huser _ => ?_
    rw [hrows] at huser
    obtain ⟨hfound, hid⟩ := Option.filter_eq_some_iff.mp huser
    rw [Accounts.id_of_getById hfound, decide_eq_true_iff] at hid
    exact ⟨hid, hfound⟩
  · cases h
    refine Sound.of_batch hs (fun rt hrt => hrt) fun id user huser hactive => ?_
    rw [hrows] at huser
    obtain ⟨old, hold, rfl⟩ := Option.map_eq_some_iff.mp huser
    by_cases hid : old.id ∈ userIds
    · simp [hid] at hactive
    · simp only [hid, if_false]
      exact ⟨Accounts.id_of_getById hold ▸ hid, hold⟩
  · cases h
    refine hs.of_site fun id user' huser' hactive => ?_
    rw [hrows] at huser'
    obtain ⟨user, huser, rfl⟩ := Option.map_eq_some_iff.mp huser'
    refine ⟨user, huser, rfl, rfl, rfl, ?_⟩
    by_cases hid : user.id ∈ userIds
    · exact hsettled rfl id (Accounts.id_of_getById huser ▸ hid) user huser
    · simp only [hid, if_false] at hactive
      exact hs.2 id user huser hactive

theorem step_sound {e : Sessions.Event} (hsettled : Settled settings s e) (h : Sessions.step settings s e = some t) :
    Sound settings t := by
  have h := ok_of_toOption h
  cases e with
  | login username password => exact login_sound hs h
  | oauthCallback userId username email => exact oauthCallback_sound hs hsettled h
  | request i =>
      rw [Sessions.handle] at h
      split at h
      · exact nomatch h
      · cases h
        exact hs
  | refresh id => exact refresh_sound hs h
  | logout token id =>
      cases h
      exact revokeRows_sound hs _ _
  | changePassword userId currentPassword newPassword =>
      obtain ⟨site, hsite, h⟩ := ok_of_bind h
      cases h
      exact changePassword_sound hs hsettled hsite
  | updateUser updatedBy userId data =>
      rw [Sessions.handle] at h
      split at h
      · rename_i site hsite
        have hsound := updateUser_sound hs hsettled hsite
        split at h
        · rename_i hrole
          cases h
          rwa [if_pos hrole] at hsound
        · rename_i hrole
          cases h
          rwa [if_neg hrole] at hsound
      · split at h
        · cases h
          exact hs.of_grows ⟨le_refl _, revokeUserTokens_le hs.1 userId, fun _ hrt _ => hrt, rfl⟩ rfl
            (fun _ _ => mem_revokeUserTokens) (le_refl _) rfl
        · exact nomatch h
  | disableUser userId disabled =>
      obtain ⟨site, hsite, h⟩ := ok_of_bind h
      have hsound := disableUser_sound hs hsettled hsite
      cases disabled <;> cases h <;> exact hsound
  | bulkUserAction action userIds => exact bulkUserAction_sound hs hsettled h
  | deleteUser userId =>
      obtain ⟨site, hsite, h⟩ := ok_of_bind h
      cases h
      exact deleteUser_sound hs hsite
  | wait duration =>
      cases h
      exact hs.of_grows
        ⟨by simp, fun _ cutoff h => ⟨cutoff, h, le_refl _⟩, fun _ hrt _ => hrt, rfl⟩ rfl (fun _ _ => Or.inl) (le_refl _) rfl

theorem fresh_of_sound (hleeway : settings.leeway ≤ settings.accessLifetime) (e : Sessions.Event) :
    Fresh settings s e := by
  cases e with
  | request i =>
      intro token htoken user huser hst
      have hissued := List.mem_of_getElem? htoken
      rw [Option.mem_def, getAuthContext] at huser
      split at huser
      · rename_i hverify
        obtain ⟨hfound, hactive⟩ := Option.filter_eq_some_iff.mp huser
        obtain ⟨hmem, hname⟩ := Accounts.mem_of_getByUsername hfound
        have hspent := (hs.2 user.id user (Accounts.getById_of_mem hmem) hactive).1 token hissued hname.symm hst
        rw [verify_of_spent hleeway hs.1 hissued hspent] at hverify
        exact nomatch hverify
      · exact nomatch huser
  | refresh id =>
      intro rt hrt user huser hactive
      obtain ⟨hmem, hlive⟩ := mem_of_verifyRefreshToken hrt
      exact (hs.2 rt.userId user huser hactive).2 rt hmem (Accounts.id_of_getById huser).symm hlive
  | _ => trivial

end Events

theorem sound_opened (site : Site) (now : Instant) : Sound settings (opened site now) := by
  constructor
  · exact ⟨fun _ _ h => (nomatch h), fun _ h => (nomatch h), fun _ h => (nomatch h)⟩
  · exact fun _ _ _ _ => ⟨fun _ h => (nomatch h), fun _ h => (nomatch h)⟩

/-- In every run that is settled at each change, no credential from before a
change is accepted again with what it stood for then. -/
theorem revoked_stay_revoked (settings : AuthSettings) (hleeway : settings.leeway ≤ settings.accessLifetime)
    (site : Site) (now : Instant) (events : List Sessions.Event)
    (h : AllSteps (Sessions.step settings) (Settled settings) (opened site now) events) :
    AllSteps (Sessions.step settings) (Fresh settings) (opened site now) events := by
  have hsound : AllStates (Sessions.step settings) (Sound settings) (opened site now) events :=
    allStates_of_allSteps (fun s e t hs hsettled ht => step_sound hs hsettled ht) (sound_opened site now) h
  exact allSteps_of_allStates (fun s e t hs _ => fresh_of_sound hs hleeway e) hsound

section House

def defaultSettings : AuthSettings where
  jwtExpireMinutes := 15
  jwtRefreshExpireDays := 7
  leewaySeconds := 5
  creditsInitialBalance := 100

def ada : Account := ⟨1, "ada", "ada@example.org", some "lovelace", .user, true, 100⟩

def house : Site where
  accounts := ⟨⟨[ada], by decide⟩, by decide, by decide⟩
  rolePermissions := defaultRolePermissions
  passwordLogin := true

theorem revoked_stay_revoked_logout :
    AllSteps (Sessions.step defaultSettings) (Fresh defaultSettings) (opened house day)
      [.login "ada" "lovelace", .wait 1000000, .logout none (some 1), .changePassword 1 "lovelace" "byron",
        .wait 1000000, .login "ada" "byron", .request 0, .refresh 3] :=
  revoked_stay_revoked defaultSettings (by decide) house day _ (by decide +kernel)

/-- The session opened with the old password goes on after it is changed. -/
theorem refreshed_after_password_change :
    ¬ ∀ settings : AuthSettings, settings.leeway ≤ settings.accessLifetime → ∀ (site : Site) (now : Instant)
      (events : List Sessions.Event),
      AllSteps (Sessions.step settings) (Fresh settings) (opened site now) events := by
  intro h
  have hrun := h defaultSettings (by decide) house day
    [.login "ada" "lovelace", .changePassword 1 "lovelace" "byron", .wait 1000000, .refresh 1, .request 0]
  revert hrun
  decide +kernel

end House

end NukeLab.SessionRevocation
