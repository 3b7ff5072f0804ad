import NukeLab.SessionRevocation

namespace NukeLab.TokenCutoffs

open Machine Program Records State Tables Sessions SessionRevocation
open Administration hiding Event handle step login

variable (settings : AuthSettings)

/-- The realm, with the instant at which each access token was signed. -/
structure Signing where
  realm : Realm
  signed : List (AccessToken × Instant)

/-- A session event where Redis may refuse the cutoff: an update is not
committed then, any other change already is. -/
def handle (s : Realm) (e : Sessions.Event) : Except Raise Realm :=
  if 0 < settings.cutoffLifetime then Sessions.handle settings s e
  else
    match e with
    | .updateUser updatedBy userId data =>
      if roleAccepted s updatedBy userId data then .error invalidExpireTime else Sessions.handle settings s e
    | e => do
      let t ← Sessions.handle settings s e
      return { t with cutoffs := s.cutoffs }

inductive Event
  | session (e : Sessions.Event)
  | impersonate (userId : Uuid)
  | revokeTokens (username : String)

def respond (s : Realm) : Event → Except Raise Realm
  | .session e => handle settings s e
  | .impersonate userId => impersonate s userId
  | .revokeTokens username => adminRevokeUserTokens settings s username

def Signing.after (s : Signing) (t : Realm) : Signing where
  realm := t
  signed := (t.issued.take (t.issued.length - s.realm.issued.length)).map (fun token => (token, s.realm.now)) ++ s.signed

def step : Step Signing Event := fun s e => (respond settings s.realm e).toOption.map s.after

def started (site : Site) (now : Instant) : Signing := ⟨opened site now, []⟩

/-- No token signed at a cutoff of its subject or before is accepted. Cutoffs
only move up, so this is said of the last one alone. -/
def CutOff (s : Signing) : Prop :=
  ∀ p ∈ s.signed, ∀ cutoff ∈ s.realm.cutoffs p.1.sub, p.2 ≤ cutoff → verifyAccessToken settings s.realm p.1 = false

def Lifetime (lifetime : Int) : Prop := lifetime = settings.accessLifetime ∨ lifetime = impersonationLifetime

/-- A cutoff is kept for as long as a token of that lifetime can be accepted,
unless the leeway is so far below zero that none ever is. -/
def Covers (lifetime : Int) : Prop :=
  lifetime + settings.leeway ≤ settings.cutoffLifetime ∨ lifetime + 2 * settings.leeway ≤ 0

structure SignedAt (token : AccessToken) (t : Instant) : Prop where
  iat : token.iat = numericDate t
  exp : ∃ lifetime, Lifetime settings lifetime ∧ token.exp = token.iat + lifetime

structure Timed (s : Signing) : Prop where
  kept : ∀ sub, ∀ cutoff ∈ s.realm.cutoffs sub, 0 < settings.cutoffLifetime
  signed : ∀ p ∈ s.signed, SignedAt settings p.1 p.2

instance (s : Signing) : Decidable (CutOff settings s) :=
  inferInstanceAs (Decidable (∀ p ∈ s.signed, ∀ cutoff ∈ s.realm.cutoffs p.1.sub, _ → _))

variable {settings} {s t : Realm}

/-- What one response does to the credentials: at most one token is signed, and
a cutoff is written only where Redis takes it. -/
structure Responds (settings : AuthSettings) (s t : Realm) : Prop where
  issued : t.issued = s.issued ∨ ∃ token, t.issued = token :: s.issued ∧ SignedAt settings token s.now
  cutoffs : t.cutoffs = s.cutoffs ∨ 0 < settings.cutoffLifetime

theorem signedAt_access (s : Realm) (sub : String) (jti : Uuid) (login : Nat) :
    SignedAt settings ⟨sub, numericDate s.now, numericDate (s.now + settings.accessLifetime), jti, login⟩ s.now :=
  ⟨rfl, settings.accessLifetime, Or.inl rfl, numericDate_exp s.now⟩

theorem numericDate_impersonation (t : Instant) :
    numericDate (t + impersonationLifetime) = numericDate t + impersonationLifetime := by
  have h : impersonationLifetime = 1800 * second := rfl
  rw [h, numericDate_add]

theorem signedAt_impersonation (s : Realm) (sub : String) (jti : Uuid) (login : Nat) :
    SignedAt settings ⟨sub, numericDate s.now, numericDate (s.now + impersonationLifetime), jti, login⟩ s.now :=
  ⟨rfl, impersonationLifetime, Or.inr rfl, numericDate_impersonation s.now⟩

theorem session_issued {e : Sessions.Event} (h : Sessions.handle settings s e = .ok t) :
    t.issued = s.issued ∨ ∃ u user login, t = createTokens settings u user login ∧ u.issued = s.issued ∧
      u.now = s.now ∧ user ∈ u.site.accounts.table.rows := by
  cases e with
  | login username password =>
      rw [Sessions.handle, Sessions.login] at h
      split at h
      · cases h
      split at h
      · cases h
      · rename_i user huser
        split at h
        · cases h
          exact Or.inr ⟨_, user, s.logins, rfl, rfl, rfl, (Accounts.mem_of_getByUsername huser).1⟩
        · cases h
  | oauthCallback userId username email =>
      rw [Sessions.handle, oauthCallback] at h
      split at h
      · rename_i user huser
        cases h
        exact Or.inr ⟨_, user, s.logins, rfl, rfl, rfl, Accounts.mem_of_getById huser⟩
      · rename_i hnone
        obtain ⟨accounts, hcommit, h⟩ := ok_of_bind h
        cases h
        have hnew := (getById_insert hcommit hnone userId).trans (if_pos rfl)
        exact Or.inr ⟨_, oauthUser settings userId username email, s.logins, rfl, rfl, rfl, Accounts.mem_of_getById hnew⟩
  | request i =>
      rw [Sessions.handle] at h
      split at h
      · cases h
      · cases h
        exact Or.inl rfl
  | refresh id =>
      rw [Sessions.handle, refresh] at h
      split at h
      · cases h
      · rename_i rt hrt
        dsimp only at h
        split at h
        · cases h
          exact Or.inl rfl
        · rename_i user huser
          cases h
          have hfound := (Option.filter_eq_some_iff.mp huser).1
          exact Or.inr ⟨_, user, rt.login, rfl, rfl, rfl, Accounts.mem_of_getById hfound⟩
  | logout token id =>
      cases h
      exact Or.inl rfl
  | updateUser updatedBy userId data =>
      rw [Sessions.handle] at h
      split at h
      · split at h <;> cases h <;> exact Or.inl rfl
      · split at h
        · cases h
          exact Or.inl rfl
        · cases h
  | changePassword userId currentPassword newPassword =>
      obtain ⟨site, -, h⟩ := ok_of_bind h
      cases h
      exact Or.inl rfl
  | disableUser userId disabled =>
      obtain ⟨site, -, h⟩ := ok_of_bind h
      cases disabled <;> cases h <;> exact Or.inl rfl
  | bulkUserAction action userIds =>
      obtain ⟨site, -, h⟩ := ok_of_bind h
      split at h
      · cases h
        exact Or.inl rfl
      · split at h <;> cases h <;> exact Or.inl rfl
  | deleteUser userId =>
      obtain ⟨site, -, h⟩ := ok_of_bind h
      cases h
      exact Or.inl rfl
  | wait duration =>
      cases h
      exact Or.inl rfl

theorem session_signed {e : Sessions.Event} (h : Sessions.handle settings s e = .ok t) :
    t.issued = s.issued ∨ ∃ token, t.issued = token :: s.issued ∧ SignedAt settings token s.now := by
  rcases session_issued h with hsame | ⟨u, user, login, rfl, hissued, hnow, -⟩
  · exact Or.inl hsame
  · refine Or.inr ⟨_, congrArg _ hissued, ?_⟩
    rw [hnow]
    exact signedAt_access s user.username u.nextId login

theorem handle_ok {e : Sessions.Event} (h : handle settings s e = .ok t) :
    ∃ u, Sessions.handle settings s e = .ok u ∧ (t = u ∨ t = { u with cutoffs := s.cutoffs }) := by
  unfold handle at h
  split at h
  · exact ⟨t, h, Or.inl rfl⟩
  · split at h
    · split at h
      · exact nomatch h
      · exact ⟨t, h, Or.inl rfl⟩
    · obtain ⟨u, hu, h⟩ := ok_of_bind h
      cases h
      exact ⟨u, hu, Or.inr rfl⟩

theorem roleAccepted_of_ok {updatedBy : Account} {userId : Uuid} {data : UserUpdate} {site : Site}
    (h : updateUser s.site updatedBy userId data = .ok site) (hsome : data.role.isSome) :
    roleAccepted s updatedBy userId data = true := by
  obtain ⟨user, user', huser, hrole, -⟩ := updateUser_ok h
  rw [roleAccepted, hsome, huser, Option.any_some, hrole]
  rfl

theorem responds_handle {e : Sessions.Event} (h : handle settings s e = .ok t) : Responds settings s t := by
  unfold handle at h
  split at h
  · rename_i hkept
    exact ⟨session_signed h, Or.inr hkept⟩
  · rename_i hrefused
    split at h
    · rename_i updatedBy userId data
      split at h
      · cases h
      · rename_i hrole
        refine ⟨session_signed h, Or.inl ?_⟩
        rw [Sessions.handle] at h
        split at h
        · rename_i site hsite
          split at h
          · rename_i hsome
            exact absurd (roleAccepted_of_ok hsite hsome) hrole
          · cases h
            rfl
        · rw [if_neg hrole] at h
          cases h
    · obtain ⟨u, hu, h⟩ := ok_of_bind h
      cases h
      have hsigned := session_signed hu
      exact ⟨hsigned, Or.inl rfl⟩

theorem responds {e : Event} (h : respond settings s e = .ok t) : Responds settings s t := by
  cases e with
  | session e => exact responds_handle h
  | impersonate userId =>
      obtain ⟨username, -, h⟩ := ok_of_bind h
      cases h
      exact ⟨Or.inr ⟨_, rfl, signedAt_impersonation s username s.nextId s.logins⟩, Or.inl rfl⟩
  | revokeTokens username =>
      rw [respond, adminRevokeUserTokens] at h
      split at h
      · exact nomatch h
      · split at h
        · exact nomatch h
        · rename_i hkept
          cases h
          exact ⟨Or.inl rfl, Or.inr (not_le.mp hkept)⟩

variable {x y : Signing}

theorem step_timed (hx : Timed settings x) {e : Event} (h : step settings x e = some y) : Timed settings y := by
  obtain ⟨t, ht, rfl⟩ := Option.map_eq_some_iff.mp h
  obtain ⟨hissued, hcutoffs⟩ := responds (ok_of_toOption ht)
  constructor
  · intro sub cutoff hcutoff
    rcases hcutoffs with hsame | hkept
    · exact hx.kept sub cutoff (hsame ▸ hcutoff)
    · exact hkept
  · intro p hp
    rcases List.mem_append.mp hp with hnew | hold
    · obtain ⟨token, htoken, rfl⟩ := List.mem_map.mp hnew
      rcases hissued with hsame | ⟨signed, hsigned, hat⟩
      · rw [hsame, Nat.sub_self] at htoken
        exact nomatch htoken
      · rw [hsigned, List.length_cons, Nat.add_sub_cancel_left] at htoken
        obtain rfl := List.mem_singleton.mp htoken
        exact hat
    · exact hx.signed p hold

/-- While a cutoff covers every lifetime, what it cuts off is never accepted:
either it is still kept, or the token is past its expiry. -/
theorem cutOff_of_covers (hx : Timed settings x) (h : ∀ lifetime, Lifetime settings lifetime → Covers settings lifetime) :
    CutOff settings x := by
  rintro ⟨token, t⟩ hp cutoff hcutoff hle
  obtain ⟨hiat, lifetime, hlifetime, hexp⟩ := hx.signed _ hp
  dsimp only at hiat hexp hle
  by_contra hv
  simp only [verifyAccessToken, Bool.not_eq_false, Bool.and_eq_true, decide_eq_true_eq] at hv
  obtain ⟨⟨⟨⟨hlive, hmature⟩, -⟩, -⟩, hcut⟩ := hv
  have hbefore : token.iat ≤ cutoff := hiat ▸ (numericDate_le t).trans hle
  have hlapsed : cutoff + settings.cutoffLifetime ≤ x.realm.now := by
    by_contra hkept
    have hget : getUserRevocationCutoff settings x.realm token.sub = some cutoff := by
      rw [getUserRevocationCutoff, Option.mem_def.mp hcutoff]
      exact Option.filter_some_pos (decide_eq_true (not_le.mp hkept))
    rw [hget, Option.all_some, decide_eq_true_iff] at hcut
    exact absurd hbefore (not_le.mpr hcut)
  rcases h lifetime hlifetime with hcovered | hnever
  · linarith
  · linarith

theorem timed_started (site : Site) (now : Instant) : Timed settings (started site now) :=
  ⟨fun _ _ h => (nomatch h), fun _ h => (nomatch h)⟩

/-- A token signed at the cutoff, once the cutoff has lapsed and the token is no
longer from the future. -/
theorem verify_of_lapsed {token : AccessToken} {lifetime : Int} (hiat : token.iat = second)
    (hexp : token.exp = second + lifetime) (hdenied : s.denylist = []) (hcutoff : s.cutoffs token.sub = some second)
    (hnow : s.now = second + max settings.cutoffLifetime (-settings.leeway)) (h : ¬ Covers settings lifetime) :
    verifyAccessToken settings s token = true := by
  obtain ⟨hlapse, hever⟩ := not_or.mp h
  have hnow : s.now = second + settings.cutoffLifetime ∧ -settings.leeway ≤ settings.cutoffLifetime ∨
      s.now = second - settings.leeway ∧ settings.cutoffLifetime ≤ -settings.leeway := by
    rcases le_total settings.cutoffLifetime (-settings.leeway) with hle | hle
    · rw [max_eq_right hle] at hnow
      exact Or.inr ⟨hnow, hle⟩
    · rw [max_eq_left hle] at hnow
      exact Or.inl ⟨hnow, hle⟩
  have hlive : s.now - settings.leeway < token.exp := by rcases hnow with hnow | hnow <;> linarith
  have hmature : token.iat ≤ s.now + settings.leeway := by rcases hnow with hnow | hnow <;> linarith
  have hnonzero : token.iat ≠ 0 := by
    rw [hiat]
    decide
  have hallowed : isJtiDenied s token.jti = false := by
    rw [isJtiDenied, hdenied, List.any_nil]
  have hdropped : getUserRevocationCutoff settings s token.sub = none := by
    rw [getUserRevocationCutoff, hcutoff]
    have hlapsed : second + settings.cutoffLifetime ≤ s.now := by rcases hnow with hnow | hnow <;> linarith
    exact Option.filter_some_neg (decide_eq_false (not_lt.mpr hlapsed))
  simp only [verifyAccessToken, hlive, hmature, hnonzero, hallowed, hdropped, decide_true, Bool.and_self,
    Bool.not_false, Option.all_none, ne_eq, not_false_eq_true]

section House

variable (settings)

def lapse : Nat := (max settings.cutoffLifetime (-settings.leeway)).toNat

theorem second_add_lapse (h : 0 < settings.cutoffLifetime) :
    second + (lapse settings : Int) = second + max settings.cutoffLifetime (-settings.leeway) := by
  rw [lapse, Int.toNat_of_nonneg (h.le.trans (le_max_left _ _))]

variable {settings} (hkept : 0 < settings.cutoffLifetime)

include hkept

theorem handle_of_kept (s : Realm) (e : Sessions.Event) : handle settings s e = Sessions.handle settings s e := by
  unfold handle
  exact if_pos hkept

theorem login_step :
    step settings (started house second) (.session (.login "ada" "lovelace")) =
      some ((started house second).after (createTokens settings { opened house second with logins := 1 } ada 0)) := by
  rw [step, respond, handle_of_kept hkept]
  rfl

theorem revokeTokens_step {s : Signing} (hsite : s.realm.site = house) :
    step settings s (.revokeTokens "ada") = some (s.after { s.realm with cutoffs := s.realm.revokeUserTokens 1 }) := by
  have hfound : s.realm.site.accounts.getByUsername "ada" = some ada := by
    rw [hsite]
    rfl
  rw [step, respond, adminRevokeUserTokens, hfound]
  dsimp only
  rw [if_neg (not_le.mpr hkept)]
  rfl

theorem accepted_of_signed {s : Signing} {lifetime : Int} (h : ¬ Covers settings lifetime) {e : Event}
    (hstep : step settings (started house second) e = some s) (hsite : s.realm.site = house)
    (hnow : s.realm.now = second) (hdenied : s.realm.denylist = [])
    {token : AccessToken} (hsigned : (token, second) ∈ s.signed) (hsub : token.sub = "ada") (hiat : token.iat = second)
    (hexp : token.exp = second + lifetime) :
    ¬ AllStates (step settings) (CutOff settings) (started house second)
      [e, .revokeTokens "ada", .session (.wait (lapse settings))] := by
  intro hrun
  have hrevoked := (hrun.2 s hstep).2 _ (revokeTokens_step hkept hsite)
  have hwaited := (hrevoked.2 _ (by rw [step, respond, handle_of_kept hkept]; rfl)).head
  have hcutoff : s.realm.revokeUserTokens 1 token.sub = some second := by
    rw [Realm.revokeUserTokens, hsite, hnow, hsub]
    rfl
  have hrefused := hwaited (token, second) (List.mem_append_right _ (List.mem_append_right _ hsigned)) second hcutoff
    (le_refl _)
  have hwait : s.realm.now + (lapse settings : Int) = second + max settings.cutoffLifetime (-settings.leeway) := by
    rw [hnow, second_add_lapse settings hkept]
  exact Bool.false_ne_true (hrefused.symm.trans (verify_of_lapsed hiat hexp hdenied hcutoff hwait h))

theorem fails_of_not_covers {lifetime : Int} (hlifetime : Lifetime settings lifetime) (h : ¬ Covers settings lifetime) :
    ∃ events, ¬ AllStates (step settings) (CutOff settings) (started house second) events := by
  rcases hlifetime with rfl | rfl
  · exact ⟨_, accepted_of_signed hkept h (login_step hkept) rfl rfl rfl (List.mem_singleton.mpr rfl) rfl rfl
      (numericDate_exp second)⟩
  · have hstep : step settings (started house second) (.impersonate 1) =
        some ((started house second).after
          { opened house second with
            nextId := 1
            issued := [⟨"ada", second, numericDate (second + impersonationLifetime), 0, 0⟩]
            logins := 1 }) := rfl
    exact ⟨_, accepted_of_signed hkept h hstep rfl rfl rfl (List.mem_singleton.mpr rfl) rfl rfl
      (numericDate_impersonation second)⟩

end House

/-- Exactly where a cutoff is kept for as long as any token is good, or Redis
never keeps one, what is cut off stays cut off. -/
theorem cutoff_never_lapses_iff (settings : AuthSettings) :
    (∀ (site : Site) (now : Instant) (events : List Event),
      AllStates (step settings) (CutOff settings) (started site now) events) ↔
      settings.cutoffLifetime ≤ 0 ∨ ∀ lifetime, Lifetime settings lifetime → Covers settings lifetime := by
  constructor
  · intro h
    by_contra hnot
    obtain ⟨hkept, hcovers⟩ := not_or.mp hnot
    refine hcovers fun lifetime hlifetime => ?_
    by_contra hlapse
    obtain ⟨events, hfails⟩ := fails_of_not_covers (not_le.mp hkept) hlifetime hlapse
    exact hfails (h house second events)
  · intro h site now events
    have htimed : AllStates (step settings) (Timed settings) (started site now) events :=
      allStates_of_steps (fun _ _ _ hx hstep => step_timed hx hstep) (timed_started site now)
    refine htimed.mono fun x hx => ?_
    rcases h with hnever | hcovers
    · exact fun p _ cutoff hcutoff _ => absurd hnever (not_le.mpr (hx.kept p.1.sub cutoff hcutoff))
    · exact cutOff_of_covers hx hcovers

/-- With the default settings, an impersonation outlives the cutoff by the leeway. -/
theorem impersonation_outlives_cutoff :
    ¬ ∀ (settings : AuthSettings) (site : Site) (now : Instant) (events : List Event),
      AllStates (step settings) (CutOff settings) (started site now) events := by
  intro h
  have hrun := h defaultSettings house second [.impersonate 1, .revokeTokens "ada", .session (.wait 1800000000)]
  revert hrun
  decide +kernel

end NukeLab.TokenCutoffs
