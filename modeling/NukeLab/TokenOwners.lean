import NukeLab.TokenCutoffs

namespace NukeLab.TokenOwners

open Machine Program Records State Tables Sessions SessionRevocation
open Administration hiding Event handle step login

variable (settings : AuthSettings)

/-- The realm, with the account that each access token was signed for. -/
structure Holding where
  realm : Realm
  owners : List (AccessToken × Uuid)

inductive Event
  | credential (e : TokenCutoffs.Event)
  | createUser (newId : Uuid) (data : UserCreate)

def respond (s : Realm) : Event → Except Raise Realm
  | .credential e => TokenCutoffs.respond settings s e
  | .createUser newId data => do
    let site ← createUser s.site newId data
    return { s with site }

/-- What has been signed since belongs to the account of its subject. -/
def Holding.after (s : Holding) (t : Realm) : Holding where
  realm := t
  owners :=
    (t.issued.take (t.issued.length - s.realm.issued.length)).filterMap (fun token =>
      (t.site.accounts.getByUsername token.sub).map fun user => (token, user.id)) ++ s.owners

def step : Step Holding Event := fun s e => (respond settings s.realm e).toOption.map s.after

def started (site : Site) (now : Instant) : Holding := ⟨opened site now, []⟩

/-- A token accepted stands for the account that it was signed for. -/
def SpeaksForOwner (s : Holding) : Prop :=
  ∀ p ∈ s.owners, ∀ user ∈ getAuthContext settings s.realm p.1, user.id = p.2

instance (s : Holding) : Decidable (SpeaksForOwner settings s) :=
  inferInstanceAs (Decidable (∀ p ∈ s.owners, ∀ user ∈ getAuthContext settings s.realm p.1, _))

/-- Nothing is left of the time in which the token is good, or it is cut off or
denied for all that is left. -/
def Unusable (s : Realm) (token : AccessToken) : Prop :=
  token.exp + settings.leeway ≤ max s.now (token.iat - settings.leeway) ∨
    (∃ cutoff ∈ s.cutoffs token.sub, token.iat ≤ cutoff ∧ token.exp + settings.leeway ≤ cutoff + settings.cutoffLifetime) ∨
      ∃ entry ∈ s.denylist, entry.1 = token.jti ∧ token.exp + settings.leeway ≤ entry.2

instance (s : Realm) (token : AccessToken) : Decidable (Unusable settings s token) :=
  inferInstanceAs (Decidable (_ ∨ (∃ cutoff ∈ s.cutoffs token.sub, _) ∨ ∃ entry ∈ s.denylist, _))

/-- The username that an event gives to an account that is not there yet. -/
def opens (s : Realm) : Event → Option String
  | .credential (.session (.oauthCallback userId username _)) =>
    if s.site.accounts.getById userId = none then some username else none
  | .createUser _ data => some data.username
  | .credential _ => none

def Vacated (s : Holding) (e : Event) : Prop :=
  ∀ name ∈ opens s.realm e, ∀ p ∈ s.owners, p.1.sub = name → Unusable settings s.realm p.1

instance (s : Holding) (e : Event) : Decidable (Vacated settings s e) :=
  inferInstanceAs (Decidable (∀ name ∈ opens s.realm e, ∀ p ∈ s.owners, _ → _))

/-- Every token that can still be used has no other account behind its name
than the one that it was signed for. -/
structure Sound (s : Holding) : Prop where
  cutoffs : ∀ sub, ∀ cutoff ∈ s.realm.cutoffs sub, cutoff ≤ s.realm.now
  owners : ∀ p ∈ s.owners, Unusable settings s.realm p.1 ∨
    ∀ id user, s.realm.site.accounts.getById id = some user → user.username = p.1.sub → id = p.2

/-- What a response does to clocks and names: time goes on, a cutoff is written
now or not at all, denials stay, and no account is renamed. -/
structure Moves (s t : Realm) (opened : Option String) : Prop where
  now : s.now ≤ t.now
  cutoffs : ∀ sub, t.cutoffs sub = s.cutoffs sub ∨ t.cutoffs sub = some s.now
  denylist : s.denylist ⊆ t.denylist
  accounts : ∀ id user, t.site.accounts.getById id = some user →
    some user.username = opened ∨ ∃ old, s.site.accounts.getById id = some old ∧ old.username = user.username

variable {settings} {s t : Realm} {name : Option String}

theorem verify_of_unusable {token : AccessToken} (h : Unusable settings s token) :
    verifyAccessToken settings s token = false := by
  by_contra hv
  simp only [verifyAccessToken, Bool.not_eq_false, Bool.and_eq_true, decide_eq_true_eq] at hv
  obtain ⟨⟨⟨⟨hlive, hmature⟩, -⟩, hallowed⟩, hcut⟩ := hv
  have hnow : s.now < token.exp + settings.leeway := sub_lt_iff_lt_add.mp hlive
  rcases h with hpast | ⟨cutoff, hcutoff, hbefore, hkept⟩ | ⟨entry, hentry, hjti, hkept⟩
  · rw [max_eq_left (sub_le_iff_le_add.mpr hmature)] at hpast
    exact absurd hnow (not_lt.mpr hpast)
  · have hget : getUserRevocationCutoff settings s token.sub = some cutoff := by
      rw [getUserRevocationCutoff, Option.mem_def.mp hcutoff]
      exact Option.filter_some_pos (decide_eq_true (lt_of_lt_of_le hnow hkept))
    rw [hget, Option.all_some, decide_eq_true_iff] at hcut
    exact absurd hbefore (not_le.mpr hcut)
  · have hdenied : isJtiDenied s token.jti = true :=
      List.any_eq_true.mpr ⟨entry, hentry, decide_eq_true ⟨hjti, lt_of_lt_of_le hnow hkept⟩⟩
    rw [hdenied] at hallowed
    cases hallowed

theorem Moves.unusable (h : Moves s t name) (hs : ∀ sub, ∀ cutoff ∈ s.cutoffs sub, cutoff ≤ s.now)
    {token : AccessToken} (hu : Unusable settings s token) : Unusable settings t token := by
  rcases hu with hpast | ⟨cutoff, hcutoff, hbefore, hkept⟩ | ⟨entry, hentry, hjti, hkept⟩
  · exact Or.inl (hpast.trans (max_le_max_right _ h.now))
  · refine Or.inr (Or.inl ?_)
    rcases h.cutoffs token.sub with hsame | hnew
    · exact ⟨cutoff, hsame ▸ hcutoff, hbefore, hkept⟩
    · have hle := hs token.sub cutoff hcutoff
      exact ⟨s.now, hnew, hbefore.trans hle, hkept.trans (Int.add_le_add_right hle _)⟩
  · exact Or.inr (Or.inr ⟨entry, h.denylist hentry, hjti, hkept⟩)

theorem Moves.of_same (hnow : s.now ≤ t.now) (hcutoffs : t.cutoffs = s.cutoffs) (hdenylist : s.denylist ⊆ t.denylist)
    (hsite : t.site = s.site) : Moves s t name where
  now := hnow
  cutoffs sub := Or.inl (congrFun hcutoffs sub)
  denylist := hdenylist
  accounts _ user huser := Or.inr ⟨user, hsite ▸ huser, rfl⟩

theorem Moves.of_row (hnow : t.now = s.now) (hcutoffs : ∀ sub, t.cutoffs sub = s.cutoffs sub ∨ t.cutoffs sub = some s.now)
    (hdenylist : t.denylist = s.denylist) {k : Uuid} {row : Option Account}
    (hrows : ∀ id, t.site.accounts.getById id = if id = k then row else s.site.accounts.getById id)
    (hrow : ∀ user, row = some user →
      some user.username = name ∨ ∃ old, s.site.accounts.getById k = some old ∧ old.username = user.username) :
    Moves s t name where
  now := hnow.ge
  cutoffs := hcutoffs
  denylist := hdenylist ▸ List.Subset.refl _
  accounts id user huser := by
    rw [hrows] at huser
    split at huser
    · rename_i hid
      exact hid ▸ hrow user huser
    · exact Or.inr ⟨user, huser, rfl⟩

theorem revokeUserTokens_eq (s : Realm) (userId : Uuid) (sub : String) :
    s.revokeUserTokens userId sub = s.cutoffs sub ∨ s.revokeUserTokens userId sub = some s.now := by
  unfold Realm.revokeUserTokens
  split
  · exact Or.inl rfl
  · split
    · exact Or.inr rfl
    · exact Or.inl rfl

theorem session_moves {e : Sessions.Event} (h : Sessions.handle settings s e = .ok t) :
    Moves s t (opens s (.credential (.session e))) := by
  cases e with
  | login username password =>
      rw [Sessions.handle, Sessions.login] at h
      split at h
      · cases h
      split at h
      · cases h
      · split at h
        · cases h
          exact Moves.of_same (le_refl _) rfl (List.Subset.refl _) rfl
        · cases h
  | oauthCallback userId username email =>
      rw [Sessions.handle, oauthCallback] at h
      split at h
      · cases h
        exact Moves.of_same (le_refl _) rfl (List.Subset.refl _) rfl
      · rename_i hnone
        obtain ⟨accounts, hcommit, h⟩ := ok_of_bind h
        cases h
        refine Moves.of_row rfl (fun _ => Or.inl rfl) rfl (getById_insert hcommit hnone) ?_
        rintro user ⟨⟩
        exact Or.inl (if_pos hnone).symm
  | request i =>
      rw [Sessions.handle] at h
      split at h
      · cases h
      · cases h
        exact Moves.of_same (le_refl _) rfl (List.Subset.refl _) rfl
  | refresh id =>
      rw [Sessions.handle, refresh] at h
      split at h
      · cases h
      · dsimp only at h
        split at h <;> cases h <;> exact Moves.of_same (le_refl _) rfl (List.Subset.refl _) rfl
  | logout token id =>
      cases h
      refine Moves.of_same (le_refl _) rfl ?_ rfl
      rw [logout]
      dsimp only
      split
      · exact List.Subset.refl _
      · split
        · exact List.Subset.refl _
        · exact List.subset_cons_self _ _
  | changePassword userId currentPassword newPassword =>
      obtain ⟨site, hsite, h⟩ := ok_of_bind h
      cases h
      obtain ⟨user, huser, hrows⟩ := changePassword_ok hsite
      refine Moves.of_row rfl (revokeUserTokens_eq s userId) rfl hrows ?_
      rintro row ⟨⟩
      exact Or.inr ⟨user, huser, rfl⟩
  | updateUser updatedBy userId data =>
      rw [Sessions.handle] at h
      split at h
      · rename_i site hsite
        obtain ⟨user, user', huser, -, hname, -, -, hrows⟩ := updateUser_ok hsite
        have hrow : ∀ row, some user' = some row → some row.username = none ∨
            ∃ old, s.site.accounts.getById userId = some old ∧ old.username = row.username := by
          rintro row ⟨⟩
          exact Or.inr ⟨user, huser, hname.symm⟩
        split at h
        · cases h
          exact Moves.of_row rfl (revokeUserTokens_eq s userId) rfl hrows hrow
        · cases h
          exact Moves.of_row rfl (fun _ => Or.inl rfl) rfl hrows hrow
      · split at h
        · cases h
          exact ⟨le_refl _, revokeUserTokens_eq s userId, List.Subset.refl _, fun id user huser => Or.inr ⟨user, huser, rfl⟩⟩
        · cases h
  | disableUser userId disabled =>
      obtain ⟨site, hsite, h⟩ := ok_of_bind h
      obtain ⟨user, huser, -, hrows⟩ := disableUser_ok hsite
      have hrow : ∀ row, some { user with isActive := !disabled } = some row → some row.username = none ∨
          ∃ old, s.site.accounts.getById userId = some old ∧ old.username = row.username := by
        rintro row ⟨⟩
        exact Or.inr ⟨user, huser, rfl⟩
      cases disabled with
      | true =>
          cases h
          exact Moves.of_row rfl (revokeUserTokens_eq s userId) rfl hrows hrow
      | false =>
          cases h
          exact Moves.of_row rfl (fun _ => Or.inl rfl) rfl hrows hrow
  | bulkUserAction action userIds =>
      obtain ⟨site, hsite, h⟩ := ok_of_bind h
      have hsame : t.now = s.now ∧ t.cutoffs = s.cutoffs ∧ t.denylist = s.denylist ∧ t.site = site := by
        split at h
        · cases h
          exact ⟨rfl, rfl, rfl, rfl⟩
        · split at h <;> cases h <;> exact ⟨rfl, rfl, rfl, rfl⟩
      obtain ⟨hnow, hcutoffs, hdenylist, rfl⟩ := hsame
      refine ⟨hnow.ge, fun sub => Or.inl (congrFun hcutoffs sub), hdenylist ▸ List.Subset.refl _, fun id user huser => ?_⟩
      obtain ⟨-, ⟨-, hrows⟩ | ⟨-, hrows⟩⟩ := bulkUserAction_ok hsite
      · rw [hrows] at huser
        exact Or.inr ⟨user, (Option.filter_eq_some_iff.mp huser).1, rfl⟩
      · rw [hrows] at huser
        obtain ⟨old, hold, rfl⟩ := Option.map_eq_some_iff.mp huser
        exact Or.inr ⟨old, hold, rfl⟩
  | deleteUser userId =>
      obtain ⟨site, hsite, h⟩ := ok_of_bind h
      cases h
      obtain ⟨-, -, hrows⟩ := deleteUser_ok hsite
      exact Moves.of_row rfl (fun _ => Or.inl rfl) rfl hrows (fun _ h => by cases h)
  | wait duration =>
      cases h
      exact Moves.of_same (by simp) rfl (List.Subset.refl _) rfl

theorem handle_moves {e : Sessions.Event} (h : TokenCutoffs.handle settings s e = .ok t) :
    Moves s t (opens s (.credential (.session e))) := by
  obtain ⟨u, hu, rfl | rfl⟩ := TokenCutoffs.handle_ok h
  · exact session_moves hu
  · have hmoves := session_moves hu
    exact ⟨hmoves.now, fun _ => Or.inl rfl, hmoves.denylist, hmoves.accounts⟩

theorem respond_moves {e : Event} (h : respond settings s e = .ok t) : Moves s t (opens s e) := by
  cases e with
  | credential e =>
      cases e with
      | session e => exact handle_moves h
      | impersonate userId =>
          obtain ⟨username, -, h⟩ := ok_of_bind h
          cases h
          exact Moves.of_same (le_refl _) rfl (List.Subset.refl _) rfl
      | revokeTokens username =>
          rw [respond, TokenCutoffs.respond, adminRevokeUserTokens] at h
          split at h
          · cases h
          · rename_i user huser
            split at h
            · cases h
            · cases h
              exact ⟨le_refl _, revokeUserTokens_eq s user.id, List.Subset.refl _,
                fun id user huser => Or.inr ⟨user, huser, rfl⟩⟩
  | createUser newId data =>
      obtain ⟨site, hsite, h⟩ := ok_of_bind h
      cases h
      obtain ⟨role, user, -, -, hname, -, -, hrows⟩ := createUser_ok hsite
      refine Moves.of_row rfl (fun _ => Or.inl rfl) rfl hrows ?_
      rintro row ⟨⟩
      exact Or.inl (congrArg some hname)

variable {x y : Holding}

theorem step_sound (hx : Sound settings x) {e : Event} (hvacated : Vacated settings x e)
    (h : step settings x e = some y) : Sound settings y := by
  obtain ⟨t, ht, rfl⟩ := Option.map_eq_some_iff.mp h
  have hmoves := respond_moves (ok_of_toOption ht)
  constructor
  · intro sub cutoff hcutoff
    rcases hmoves.cutoffs sub with hsame | hnew
    · exact (hx.cutoffs sub cutoff (hsame ▸ hcutoff)).trans hmoves.now
    · obtain rfl := Option.some.inj (hnew.symm.trans hcutoff)
      exact hmoves.now
  · intro p hp
    rcases List.mem_append.mp hp with hnew | hold
    · -- The account behind the name of a token just signed is its owner.
      obtain ⟨token, -, hp⟩ := List.mem_filterMap.mp hnew
      obtain ⟨owner, howner, rfl⟩ := Option.map_eq_some_iff.mp hp
      obtain ⟨hmem, hsub⟩ := Accounts.mem_of_getByUsername howner
      refine Or.inr fun id user huser hname => ?_
      have hsame := Accounts.eq_of_username (Accounts.mem_of_getById huser) hmem (hname.trans hsub.symm)
      rw [← Accounts.id_of_getById huser, hsame]
    · rcases hx.owners p hold with hunusable | howner
      · exact Or.inl (hmoves.unusable hx.cutoffs hunusable)
      · by_cases hopened : some p.1.sub = opens x.realm e
        · exact Or.inl (hmoves.unusable hx.cutoffs (hvacated p.1.sub hopened.symm p hold rfl))
        · refine Or.inr fun id user huser hname => ?_
          rcases hmoves.accounts id user huser with hnew | ⟨old, hold, hsame⟩
          · exact absurd (hname ▸ hnew) hopened
          · exact howner id old hold (hsame.trans hname)

theorem speaks_of_sound (hx : Sound settings x) : SpeaksForOwner settings x := by
  intro p hp user huser
  rw [Option.mem_def, getAuthContext] at huser
  split at huser
  · rename_i hverify
    obtain ⟨hmem, hname⟩ := Accounts.mem_of_getByUsername (Option.filter_eq_some_iff.mp huser).1
    rcases hx.owners p hp with hunusable | howner
    · rw [verify_of_unusable hunusable] at hverify
      cases hverify
    · exact howner user.id user (Accounts.getById_of_mem hmem) hname
  · cases huser

theorem sound_started (site : Site) (now : Instant) : Sound settings (started site now) :=
  ⟨fun _ _ h => (nomatch h), fun _ h => (nomatch h)⟩

theorem getByUsername_of_mem {accounts : Accounts} {user : Account} (h : user ∈ accounts.table.rows) :
    accounts.getByUsername user.username = some user := by
  have hsome : (accounts.getByUsername user.username).isSome :=
    List.find?_isSome.mpr ⟨user, h, decide_eq_true rfl⟩
  obtain ⟨found, hfound⟩ := Option.isSome_iff_exists.mp hsome
  obtain ⟨hmem, hname⟩ := Accounts.mem_of_getByUsername hfound
  rw [hfound, Accounts.eq_of_username hmem h hname]

theorem respond_issued {e : Event} (h : respond settings s e = .ok t) :
    t.issued = s.issued ∨ ∃ token user, t.issued = token :: s.issued ∧ user ∈ t.site.accounts.table.rows ∧
      token.sub = user.username := by
  cases e with
  | credential e =>
      cases e with
      | session e =>
          obtain ⟨u, hu, ht⟩ := TokenCutoffs.handle_ok h
          have hissued : t.issued = u.issued := by rcases ht with rfl | rfl <;> rfl
          have hsite : t.site = u.site := by rcases ht with rfl | rfl <;> rfl
          rcases TokenCutoffs.session_issued hu with hsame | ⟨v, user, login, rfl, hold, -, hmem⟩
          · exact Or.inl (hissued.trans hsame)
          · refine Or.inr ⟨_, user, hissued.trans (congrArg _ hold), ?_, rfl⟩
            rw [hsite]
            exact hmem
      | impersonate userId =>
          obtain ⟨username, husername, h⟩ := ok_of_bind h
          cases h
          obtain ⟨user, huser, rfl⟩ := impersonateUser_ok husername
          exact Or.inr ⟨_, user, rfl, Accounts.mem_of_getById huser, rfl⟩
      | revokeTokens username =>
          rw [respond, TokenCutoffs.respond, adminRevokeUserTokens] at h
          split at h
          · cases h
          · split at h
            · cases h
            · cases h
              exact Or.inl rfl
  | createUser newId data =>
      obtain ⟨site, -, h⟩ := ok_of_bind h
      cases h
      exact Or.inl rfl

/-- No token signed is without its owner. -/
theorem owners_issued (settings : AuthSettings) (site : Site) (now : Instant) (events : List Event) :
    AllStates (step settings) (fun s => s.owners.map Prod.fst = s.realm.issued) (started site now) events := by
  refine allStates_of_steps (fun x e y hx h => ?_) rfl
  obtain ⟨t, ht, rfl⟩ := Option.map_eq_some_iff.mp h
  rcases respond_issued (ok_of_toOption ht) with hsame | ⟨token, user, hissued, hmem, hsub⟩
  · simpa [Holding.after, hsame] using hx
  · have hfound := getByUsername_of_mem hmem
    rw [← hsub] at hfound
    simp [Holding.after, hissued, hfound, hx]

/-- Where no name is given away while a token for it can still be used, every
token accepted speaks for the account that it was signed for. -/
theorem tokens_speak_for_owner (settings : AuthSettings) (site : Site) (now : Instant) (events : List Event)
    (h : AllSteps (step settings) (Vacated settings) (started site now) events) :
    AllStates (step settings) (SpeaksForOwner settings) (started site now) events := by
  have hsound : AllStates (step settings) (Sound settings) (started site now) events :=
    allStates_of_allSteps (fun _ _ _ hx hvacated hstep => step_sound hx hvacated hstep) (sound_started site now) h
  exact hsound.mono fun _ => speaks_of_sound

section House

def otherAda : UserCreate where
  username := "ada"
  email := "other@example.org"
  password := "byron"
  role := "user"
  credits := 100

theorem tokens_speak_for_owner_later :
    AllStates (step defaultSettings) (SpeaksForOwner defaultSettings) (started house day)
      [.credential (.session (.login "ada" "lovelace")), .credential (.session (.deleteUser 1)),
        .credential (.session (.wait 905000000)), .createUser 2 otherAda, .credential (.session (.login "ada" "byron"))] :=
  tokens_speak_for_owner defaultSettings house day _ (by decide +kernel)

/-- A deletion cuts nothing off, and the name is free at once. -/
theorem token_of_deleted_account :
    ¬ ∀ (settings : AuthSettings) (site : Site) (now : Instant) (events : List Event),
      AllStates (step settings) (SpeaksForOwner settings) (started site now) events := by
  intro h
  have hrun := h defaultSettings house day
    [.credential (.session (.login "ada" "lovelace")), .credential (.session (.deleteUser 1)), .createUser 2 otherAda]
  revert hrun
  decide +kernel

end House

end NukeLab.TokenOwners
