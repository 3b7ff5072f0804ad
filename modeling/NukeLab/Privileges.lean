import NukeLab.Administration

namespace NukeLab.Privileges

open Machine Program Records Roles State Tables Administration

structure Standing where
  level : Int
  permissions : List Permission

def standing (site : Site) (role : Role) : Standing :=
  ⟨role.hierarchy, getExpandedRolePermissions site.rolePermissions role⟩

def Standing.Covers (own : Standing) (table : PermissionTable) (role : Role) : Prop :=
  role.hierarchy ≤ own.level ∧ getExpandedRolePermissions table role ⊆ own.permissions

instance (own : Standing) (table : PermissionTable) (role : Role) : Decidable (own.Covers table role) :=
  inferInstanceAs (Decidable (_ ∧ _))

/-- One account before and after: none created, none deleted or disabled, and no
role given or taken, above the level. -/
def RowRestrained (level : Int) : Option Account → Option Account → Prop
  | none, none => True
  | none, some b => b.role.hierarchy ≤ level
  | some a, none => a.role.hierarchy ≤ level
  | some a, some b =>
    (a.role ≠ b.role → a.role.hierarchy ≤ level ∧ b.role.hierarchy ≤ level) ∧
      (a.isActive → ¬ b.isActive → a.role.hierarchy ≤ level)

/-- Every account a person can act as is covered by what that person started with. -/
def Contained (own : Standing) (actor : String) (desk : Desk) : Prop :=
  ∀ id user, desk.site.accounts.getById id = some user → desk.speaksFor actor user.username →
    own.Covers desk.site.rolePermissions user.role

def Restrained (own : Standing) (actor : String) (s t : Desk) : Prop :=
  (∀ id, RowRestrained own.level (s.site.accounts.getById id) (t.site.accounts.getById id)) ∧ Contained own actor t

def Unescalated (own : Standing) (actor : String) (s : Desk) (e : Event) : Prop :=
  ∀ t, step actor s e = some t → Restrained own actor s t

/-- What the endpoints do not ask. Only a change of role is compared with the
caller's level by the site itself. -/
def Modest (own : Standing) (actor : String) (s : Desk) : Event → Prop
  | .request _ _ (.createUser _ data) =>
    ∀ role ∈ Role.parse data.role, role.hierarchy ≤ own.level ∧
      (s.speaksFor actor data.username → own.Covers s.site.rolePermissions role)
  | .request _ _ (.updateUser userId data) =>
    ∀ user ∈ s.site.accounts.getById userId.id, ∀ role ∈ data.role.bind Role.parse, user.username = actor →
      getExpandedRolePermissions s.site.rolePermissions role ⊆ own.permissions
  | .request _ _ (.deleteUser userId) =>
    ∀ user ∈ s.site.accounts.getById userId.id, user.role.hierarchy ≤ own.level
  | .request _ _ (.disableUser userId disabled) =>
    disabled = true → ∀ user ∈ s.site.accounts.getById userId.id, user.isActive → user.role.hierarchy ≤ own.level
  | .request _ _ (.bulkUserAction action userIds) =>
    ∀ id ∈ userIds, ∀ user ∈ s.site.accounts.getById id,
      action = "delete" ∨ action = "disable" ∧ user.isActive → user.role.hierarchy ≤ own.level
  | .request _ _ (.updateRolePermissions role permissions) =>
    ∀ user ∈ s.site.accounts.table.rows, s.speaksFor actor user.username → Role.parse role = some user.role →
      expandPermissions (permissions.filterMap Permission.parse) ⊆ own.permissions
  | .request _ _ (.impersonateUser userId) =>
    ∀ user ∈ s.site.accounts.getById userId.id, own.Covers s.site.rolePermissions user.role
  | .login username =>
    ∀ user ∈ s.site.accounts.table.rows, user.username = username → own.Covers s.site.rolePermissions user.role
  | .expire _ => True

instance (own : Standing) (actor : String) (s : Desk) (e : Event) : Decidable (Modest own actor s e) :=
  match e with
  | .request _ _ (.createUser _ data) => inferInstanceAs (Decidable (∀ role ∈ Role.parse data.role, _ ∧ (_ → _)))
  | .request _ _ (.updateUser userId data) =>
    inferInstanceAs (Decidable (∀ user ∈ s.site.accounts.getById userId.id, ∀ role ∈ data.role.bind Role.parse, _ → _))
  | .request _ _ (.deleteUser userId) =>
    inferInstanceAs (Decidable (∀ user ∈ s.site.accounts.getById userId.id, _))
  | .request _ _ (.disableUser userId _) =>
    inferInstanceAs (Decidable (_ → ∀ user ∈ s.site.accounts.getById userId.id, _ → _))
  | .request _ _ (.bulkUserAction _ userIds) =>
    inferInstanceAs (Decidable (∀ id ∈ userIds, ∀ user ∈ s.site.accounts.getById id, _ → _))
  | .request _ _ (.updateRolePermissions _ _) =>
    inferInstanceAs (Decidable (∀ user ∈ s.site.accounts.table.rows, _ → _ → _))
  | .request _ _ (.impersonateUser userId) =>
    inferInstanceAs (Decidable (∀ user ∈ s.site.accounts.getById userId.id, _))
  | .login _ => inferInstanceAs (Decidable (∀ user ∈ s.site.accounts.table.rows, _ → _))
  | .expire _ => .isTrue trivial

variable {own : Standing} {actor : String} {s t : Desk}

theorem rowRestrained_refl (level : Int) (row : Option Account) : RowRestrained level row row := by
  cases row with
  | none => trivial
  | some a => exact ⟨fun h => absurd rfl h, fun h h' => absurd h h'⟩

theorem rowRestrained_filter {level : Int} {p : Account → Bool} {a : Account} :
    RowRestrained level (some a) ((some a).filter p) ↔ (¬ p a → a.role.hierarchy ≤ level) := by
  by_cases hp : p a
  · rw [Option.filter_some_pos hp]
    exact iff_of_true (rowRestrained_refl level _) fun h => absurd hp h
  · rw [Option.filter_some_neg (Bool.eq_false_iff.mpr hp)]
    exact (imp_iff_right hp).symm

theorem rowRestrained_active {level : Int} {a : Account} {active : Bool} :
    RowRestrained level (some a) (some { a with isActive := active }) ↔
      (a.isActive → ¬ active → a.role.hierarchy ≤ level) :=
  and_iff_right fun h => absurd rfl h

theorem Contained.of_mem (h : Contained own actor s) {user : Account} (hu : user ∈ s.site.accounts.table.rows)
    (hs : s.speaksFor actor user.username) : own.Covers s.site.rolePermissions user.role :=
  h user.id user (Accounts.getById_of_mem hu) hs

/-! What each change comes to. -/

theorem restrained_of_single (hs : Contained own actor s) {k : Uuid} {row : Option Account}
    (hrows : ∀ id, t.site.accounts.getById id = if id = k then row else s.site.accounts.getById id)
    (htable : t.site.rolePermissions = s.site.rolePermissions)
    (hspeaks : ∀ username, t.speaksFor actor username → s.speaksFor actor username) :
    Restrained own actor s t ↔ RowRestrained own.level (s.site.accounts.getById k) row ∧
      ∀ user, row = some user → t.speaksFor actor user.username → own.Covers s.site.rolePermissions user.role := by
  unfold Restrained Contained
  rw [htable]
  constructor
  · rintro ⟨hrestrained, hcontained⟩
    have hk := hrestrained k
    rw [hrows, if_pos rfl] at hk
    exact ⟨hk, fun user hrow => hcontained k user (by rw [hrows, if_pos rfl, hrow])⟩
  · rintro ⟨hrow, hcontained⟩
    refine ⟨fun id => ?_, fun id user hid hspoken => ?_⟩
    · rw [hrows]
      by_cases hid : id = k
      · subst hid
        rwa [if_pos rfl]
      · rw [if_neg hid]
        exact rowRestrained_refl own.level _
    · rw [hrows] at hid
      split at hid
      · exact hcontained user hid hspoken
      · exact hs id user hid (hspeaks user.username hspoken)

theorem contained_of_rows (hs : Contained own actor s)
    (hrows : ∀ id b, t.site.accounts.getById id = some b →
      ∃ a, s.site.accounts.getById id = some a ∧ b.username = a.username ∧ b.role = a.role)
    (htable : t.site.rolePermissions = s.site.rolePermissions)
    (hspeaks : ∀ username, t.speaksFor actor username → s.speaksFor actor username) : Contained own actor t := by
  intro id b hb hspoken
  obtain ⟨a, ha, hname, hrole⟩ := hrows id b hb
  rw [htable, hrole]
  exact hs id a ha (hname ▸ hspeaks b.username hspoken)

theorem mem_unrevoked {username : String} {revoked : Option String} :
    username ∈ s.unrevoked revoked ↔ username ∈ s.tokens ∧ some username ≠ revoked := by
  rw [Desk.unrevoked, List.mem_filter, decide_eq_true_iff]

theorem speaksFor_of_unrevoked {site : Site} {username : String} {revoked : Option String}
    (h : Desk.speaksFor ⟨site, s.unrevoked revoked, s.passwords⟩ actor username) : s.speaksFor actor username :=
  h.imp_right fun hm => (mem_unrevoked.mp hm).1

section Requests

variable {user : Account} {method : AuthMethod} (hs : Contained own actor s)

include hs

theorem createUser_iff {username : String} {newId : Uuid} {data : UserCreate}
    (h : handle s user method (.createUser newId data) = .ok t) :
    Restrained own actor s t ↔ Modest own actor s (.request username method (.createUser newId data)) := by
  obtain ⟨-, -, h⟩ := ok_of_bind h
  obtain ⟨-, -, h⟩ := ok_of_bind h
  obtain ⟨site, hsite, h⟩ := ok_of_bind h
  cases h
  obtain ⟨role, new, hrole, rfl, hname, hnone, htable, hrows⟩ := createUser_ok hsite
  refine Iff.trans (restrained_of_single hs hrows htable fun _ h => h) ?_
  rw [hnone, Modest, hrole]
  simp only [RowRestrained, Option.some.injEq, Option.mem_def, forall_eq', hname, Desk.speaksFor]

theorem updateUser_iff {username : String} {userId : PathId} {data : UserUpdate}
    (hu : user ∈ s.site.accounts.table.rows) (hspoken : s.speaksFor actor user.username)
    (h : handle s user method (.updateUser userId data) = .ok t) :
    Restrained own actor s t ↔ Modest own actor s (.request username method (.updateUser userId data)) := by
  obtain ⟨-, -, h⟩ := ok_of_bind h
  obtain ⟨site, hsite, h⟩ := ok_of_bind h
  cases h
  obtain ⟨found, after, hfound, hrole, hname, hactive, htable, hrows⟩ := updateUser_ok hsite
  have hcaller : user.role.hierarchy ≤ own.level := (hs.of_mem hu hspoken).1
  refine Iff.trans (restrained_of_single hs hrows htable fun _ => speaksFor_of_unrevoked) ?_
  rw [hfound]
  simp only [RowRestrained, Modest, hfound, Option.some.injEq, Option.mem_def, forall_eq', hname, hactive]
  rcases updatedRole_ok hrole with ⟨hnone, hsame⟩ | ⟨text, htext, hparse, hle, hle'⟩
  · rw [hnone, hsame]
    refine iff_of_true ⟨⟨fun h => absurd rfl h, fun h h' => absurd h h'⟩, fun hsp => ?_⟩ fun _ h => nomatch h
    exact hs _ _ hfound (speaksFor_of_unrevoked hsp)
  · rw [htext, Option.bind_some, hparse]
    simp only [Option.some.injEq, forall_eq']
    constructor
    · rintro ⟨-, hcovers⟩ hactor
      exact (hcovers (Or.inl hactor)).2
    · intro hperms
      refine ⟨⟨fun _ => ⟨hle.trans hcaller, hle'.trans hcaller⟩, fun h h' => absurd h h'⟩, fun hsp => ?_⟩
      refine ⟨hle'.trans hcaller, hperms (hsp.resolve_right fun hm => ?_)⟩
      refine (mem_unrevoked.mp hm).2 ?_
      rw [Option.isSome_some, if_pos rfl, usernameOf, hfound, Option.map_some]

theorem deleteUser_iff {username : String} {userId : PathId}
    (h : handle s user method (.deleteUser userId) = .ok t) :
    Restrained own actor s t ↔ Modest own actor s (.request username method (.deleteUser userId)) := by
  obtain ⟨-, -, h⟩ := ok_of_bind h
  obtain ⟨-, -, h⟩ := ok_of_bind h
  obtain ⟨-, -, h⟩ := ok_of_bind h
  obtain ⟨site, hsite, h⟩ := ok_of_bind h
  cases h
  obtain ⟨hsome, htable, hrows⟩ := deleteUser_ok hsite
  obtain ⟨found, hfound⟩ := Option.isSome_iff_exists.mp hsome
  refine Iff.trans (restrained_of_single hs hrows htable fun _ h => h) ?_
  rw [hfound, Modest, hfound]
  simp only [RowRestrained, Option.mem_def, Option.some.injEq, forall_eq', reduceCtorEq, false_implies, implies_true,
    and_true]

theorem disableUser_iff {username : String} {userId : PathId} {disabled : Bool}
    (h : handle s user method (.disableUser userId disabled) = .ok t) :
    Restrained own actor s t ↔ Modest own actor s (.request username method (.disableUser userId disabled)) := by
  obtain ⟨-, -, h⟩ := ok_of_bind h
  obtain ⟨-, -, h⟩ := ok_of_bind h
  obtain ⟨-, -, h⟩ := ok_of_bind h
  obtain ⟨site, hsite, h⟩ := ok_of_bind h
  cases h
  obtain ⟨found, hfound, htable, hrows⟩ := disableUser_ok hsite
  refine Iff.trans (restrained_of_single hs hrows htable fun _ => speaksFor_of_unrevoked) ?_
  rw [hfound, Modest, hfound, rowRestrained_active]
  simp only [Option.mem_def, Option.some.injEq, forall_eq', Bool.not_eq_true', Bool.not_eq_false]
  constructor
  · rintro ⟨hlevel, -⟩ hdisabled hactive
    exact hlevel hactive hdisabled
  · intro hlevel
    refine ⟨fun hactive hdisabled => hlevel hdisabled hactive, fun hsp => ?_⟩
    exact hs _ _ hfound (speaksFor_of_unrevoked hsp)

theorem bulkUserAction_iff {username action : String} {userIds : List Uuid}
    (h : handle s user method (.bulkUserAction action userIds) = .ok t) :
    Restrained own actor s t ↔ Modest own actor s (.request username method (.bulkUserAction action userIds)) := by
  obtain ⟨-, -, h⟩ := ok_of_bind h
  obtain ⟨-, -, h⟩ := ok_of_bind h
  obtain ⟨site, hsite, h⟩ := ok_of_bind h
  cases h
  obtain ⟨htable, ⟨haction, hrows⟩ | ⟨haction, hrows⟩⟩ := bulkUserAction_ok hsite
  · have hcontained : Contained own actor ⟨site, s.tokens, s.passwords⟩ := by
      refine contained_of_rows hs (fun id b hb => ?_) htable fun _ h => h
      rw [hrows] at hb
      exact ⟨b, (Option.filter_eq_some_iff.mp hb).1, rfl, rfl⟩
    have hrow : ∀ id found, s.site.accounts.getById id = some found →
        (RowRestrained own.level (s.site.accounts.getById id) (site.accounts.getById id) ↔
          (id ∈ userIds → found.role.hierarchy ≤ own.level)) := by
      intro id found hfound
      rw [hrows, hfound, rowRestrained_filter, Table.key_of_find hfound, decide_eq_true_iff, not_not]
    rw [Restrained, and_iff_left hcontained]
    constructor
    · intro hrestrained id hid found hfound _
      exact (hrow id found hfound).mp (hrestrained id) hid
    · intro hlevel id
      cases hfound : s.site.accounts.getById id with
      | none =>
          rw [hrows, hfound]
          trivial
      | some found =>
          rw [← hfound]
          exact (hrow id found hfound).mpr fun hid => hlevel id hid found hfound (Or.inl haction)
  · have hcontained : Contained own actor ⟨site, s.tokens, s.passwords⟩ := by
      refine contained_of_rows hs (fun id b hb => ?_) htable fun _ h => h
      rw [hrows] at hb
      obtain ⟨a, ha, rfl⟩ := Option.map_eq_some_iff.mp hb
      exact ⟨a, ha, rfl, rfl⟩
    have hrow : ∀ id found, s.site.accounts.getById id = some found →
        (RowRestrained own.level (s.site.accounts.getById id) (site.accounts.getById id) ↔
          (id ∈ userIds → action = "disable" ∧ found.isActive → found.role.hierarchy ≤ own.level)) := by
      intro id found hfound
      rw [hrows, hfound, Option.map_some, rowRestrained_active, Table.key_of_find hfound]
      by_cases hid : id ∈ userIds
      · simp only [hid, if_true, decide_eq_true_eq, not_not, true_implies, and_imp]
        exact ⟨fun h haction hactive => h hactive haction, fun h hactive haction => h haction hactive⟩
      · rw [if_neg hid]
        exact iff_of_true (fun hactive hnot => absurd hactive hnot) fun h => absurd h hid
    have hdelete : action ≠ "delete" := by
      rcases haction with rfl | rfl <;> decide
    rw [Restrained, and_iff_left hcontained]
    constructor
    · intro hrestrained id hid found hfound haction
      exact (hrow id found hfound).mp (hrestrained id) hid (haction.resolve_left hdelete)
    · intro hlevel id
      cases hfound : s.site.accounts.getById id with
      | none =>
          rw [hrows, hfound]
          trivial
      | some found =>
          rw [← hfound]
          exact (hrow id found hfound).mpr fun hid haction => hlevel id hid found hfound (Or.inr haction)

theorem updateRolePermissions_iff {username role : String} {permissions : List String}
    (h : handle s user method (.updateRolePermissions role permissions) = .ok t) :
    Restrained own actor s t ↔
      Modest own actor s (.request username method (.updateRolePermissions role permissions)) := by
  obtain ⟨-, -, h⟩ := ok_of_bind h
  obtain ⟨-, -, h⟩ := ok_of_bind h
  obtain ⟨site, hsite, h⟩ := ok_of_bind h
  cases h
  obtain ⟨r, hr, haccounts, htable⟩ := updateRolePermissions_ok hsite
  simp only [Restrained, Contained, Modest, haccounts, htable, hr, Option.some.injEq]
  constructor
  · rintro ⟨-, hcontained⟩ found hfound hspoken rfl
    have hcovers := (hcontained found.id found (Accounts.getById_of_mem hfound) hspoken).2
    rwa [getExpandedRolePermissions, Function.update_self] at hcovers
  · intro hperms
    refine ⟨fun id => rowRestrained_refl own.level _, fun id found hfound hspoken => ?_⟩
    have hcovers := hs id found hfound hspoken
    refine ⟨hcovers.1, ?_⟩
    by_cases hrole : found.role = r
    · rw [getExpandedRolePermissions, hrole, Function.update_self]
      exact hperms found (Accounts.mem_of_getById hfound) hspoken hrole.symm
    · rw [getExpandedRolePermissions, Function.update_of_ne hrole]
      exact hcovers.2

theorem token_iff (subject : String) :
    Restrained own actor s { s with tokens := subject :: s.tokens } ↔
      ∀ found ∈ s.site.accounts.table.rows, found.username = subject →
        own.Covers s.site.rolePermissions found.role := by
  constructor
  · rintro ⟨-, hcontained⟩ found hfound rfl
    exact hcontained.of_mem hfound (Or.inr List.mem_cons_self)
  · intro hcovers
    refine ⟨fun id => rowRestrained_refl own.level _, fun id found hfound hspoken => ?_⟩
    rcases hspoken with hactor | htoken
    · exact hs id found hfound (Or.inl hactor)
    · rcases List.mem_cons.mp htoken with hname | hheld
      · exact hcovers found (Accounts.mem_of_getById hfound) hname
      · exact hs id found hfound (Or.inr hheld)

theorem impersonateUser_iff {username : String} {userId : PathId}
    (h : handle s user method (.impersonateUser userId) = .ok t) :
    Restrained own actor s t ↔ Modest own actor s (.request username method (.impersonateUser userId)) := by
  obtain ⟨-, -, h⟩ := ok_of_bind h
  obtain ⟨-, -, h⟩ := ok_of_bind h
  obtain ⟨subject, hsubject, h⟩ := ok_of_bind h
  cases h
  obtain ⟨found, hfound, rfl⟩ := impersonateUser_ok hsubject
  have hmem := Accounts.mem_of_getById hfound
  refine Iff.trans (token_iff hs found.username) ?_
  simp only [Modest, hfound, Option.mem_def, Option.some.injEq, forall_eq']
  constructor
  · exact fun hcovers => hcovers found hmem rfl
  · intro hcovers other hother hname
    rwa [Accounts.eq_of_username hother hmem hname]

end Requests

/-- Whatever is accepted is restrained exactly when it is modest. -/
theorem step_restrained_iff {e : Event} (hs : Contained own actor s) (h : step actor s e = some t) :
    Restrained own actor s t ↔ Modest own actor s e := by
  cases e with
  | request username method operation =>
      rw [step] at h
      split at h
      · rename_i hspoken
        obtain ⟨user, huser, hhandle⟩ := ok_of_bind (ok_of_toOption h)
        obtain ⟨hmem, rfl⟩ := getCurrentUser_ok huser
        cases operation with
        | createUser newId data => exact createUser_iff hs hhandle
        | updateUser userId data => exact updateUser_iff hs hmem hspoken hhandle
        | deleteUser userId => exact deleteUser_iff hs hhandle
        | disableUser userId disabled => exact disableUser_iff hs hhandle
        | bulkUserAction action userIds => exact bulkUserAction_iff hs hhandle
        | updateRolePermissions role permissions => exact updateRolePermissions_iff hs hhandle
        | impersonateUser userId => exact impersonateUser_iff hs hhandle
      · exact nomatch h
  | login username =>
      obtain ⟨subject, hsubject, rfl⟩ := Option.map_eq_some_iff.mp h
      rw [login_ok (ok_of_toOption hsubject)]
      exact token_iff hs username
  | expire username =>
      cases h
      refine iff_of_true ⟨fun id => rowRestrained_refl own.level _, ?_⟩ trivial
      exact contained_of_rows hs (fun id b hb => ⟨b, hb, rfl, rfl⟩) rfl fun name hname =>
        hname.imp_right fun hm => (List.mem_filter.mp hm).1

def signedIn (site : Site) : Desk := ⟨site, [], []⟩

theorem contained_signedIn {site : Site} {account : Account} (haccount : account ∈ site.accounts.table.rows) :
    Contained (standing site account.role) account.username (signedIn site) := by
  intro id user huser hspoken
  have hname : user.username = account.username := hspoken.resolve_right List.not_mem_nil
  rw [Accounts.eq_of_username (Accounts.mem_of_getById huser) haccount hname]
  exact ⟨le_refl _, List.Subset.refl _⟩

/-- Whatever accounts and permissions there are, what an account does through
user administration stays within its own level and permissions exactly when all
it has accepted is modest. -/
theorem administration_unescalated_iff (site : Site) (account : Account)
    (haccount : account ∈ site.accounts.table.rows) (events : List Event) :
    AllSteps (step account.username) (Unescalated (standing site account.role) account.username) (signedIn site) events ↔
      AllSteps (step account.username) (Modest (standing site account.role) account.username) (signedIn site) events := by
  refine allSteps_iff (fun s e t hs hC ht => ?_) (fun s e t hs ht => ?_) events (contained_signedIn haccount)
  · exact (hC t ht).2
  · constructor
    · exact fun hC => (step_restrained_iff hs ht).mp (hC t ht)
    · intro hmodest u hu
      obtain rfl := Option.some.inj (ht.symm.trans hu)
      exact (step_restrained_iff hs ht).mpr hmodest

section Office

def ada : Account := ⟨1, "ada", "ada@example.org", some "lovelace", .superAdmin, true, 100⟩

def mo : Account := ⟨2, "mo", "mo@example.org", some "curie", .moderator, true, 100⟩

def office : Site where
  accounts := ⟨⟨[ada, mo], by decide⟩, by decide, by decide⟩
  rolePermissions := defaultRolePermissions
  passwordLogin := true

theorem administration_unescalated_iff_guest :
    AllSteps (step mo.username) (Unescalated (standing office mo.role) mo.username) (signedIn office)
      [.request "mo" .jwt (.createUser 3 ⟨"kim", "kim@example.org", "secret", "guest", 0⟩), .login "kim",
        .request "mo" .jwt (.disableUser ⟨3, true⟩ true)] :=
  (administration_unescalated_iff office mo (by decide) _).mpr (by decide +kernel)

/-- A moderator opens a super admin's account, and has its password. -/
theorem moderator_creates_super_admin :
    ¬ ∀ (site : Site) (account : Account), account ∈ site.accounts.table.rows → account.role ≠ .superAdmin →
      ∀ events, AllSteps (step account.username) (Unescalated (standing site account.role) account.username)
        (signedIn site) events := by
  intro h
  have hrun := h office mo (by decide) (by decide)
    [.request "mo" .jwt (.createUser 3 ⟨"eve", "eve@example.org", "secret", "super_admin", 0⟩)]
  have hrow : (step "mo" (signedIn office)
      (.request "mo" .jwt (.createUser 3 ⟨"eve", "eve@example.org", "secret", "super_admin", 0⟩))).map
        (fun t => t.site.accounts.getById 3) = some (some ⟨3, "eve", "eve@example.org", some "secret", .superAdmin, true, 0⟩) := by
    decide +kernel
  obtain ⟨t, ht, hrow⟩ := Option.map_eq_some_iff.mp hrow
  have hcreated := ((hrun t ht).1 t ht).1 3
  rw [hrow] at hcreated
  have hlevel : Role.superAdmin.hierarchy ≤ Role.moderator.hierarchy := hcreated
  exact absurd hlevel (by decide)

end Office

end NukeLab.Privileges
