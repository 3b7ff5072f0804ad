import NukeLab.Machine
import NukeLab.Roles
import NukeLab.State

namespace NukeLab.Administration

open Machine Program Records Roles State Tables

structure Account where
  id : Uuid
  username : String
  email : String
  /-- The password that its hash verifies; an account opened by OAuth has none. -/
  password : Option String
  role : Role
  isActive : Bool
  nukeBalance : Int
  deriving DecidableEq

structure Accounts where
  table : Table Account.id
  usernames : (table.rows.map Account.username).Nodup
  emails : (table.rows.map Account.email).Nodup

namespace Accounts

def getById (accounts : Accounts) (id : Uuid) : Option Account := accounts.table.find id

def getByUsername (accounts : Accounts) (username : String) : Option Account :=
  accounts.table.rows.find? fun user => user.username = username

def getByEmail (accounts : Accounts) (email : String) : Option Account :=
  accounts.table.rows.find? fun user => user.email = email

/-- A commit is refused where it would break a unique constraint. -/
def commit (table : Table Account.id) : Except Raise Accounts :=
  if h : (table.rows.map Account.username).Nodup ∧ (table.rows.map Account.email).Nodup then
    .ok ⟨table, h.1, h.2⟩
  else .error (.exception "IntegrityError")

theorem commit_ok {table : Table Account.id} {accounts : Accounts} (h : commit table = .ok accounts) :
    accounts.table = table := by
  rw [commit] at h
  split at h
  · cases h
    rfl
  · exact nomatch h

theorem mem_of_getById {accounts : Accounts} {id : Uuid} {user : Account} (h : accounts.getById id = some user) :
    user ∈ accounts.table.rows :=
  Table.mem_of_find h

theorem getById_of_mem {accounts : Accounts} {user : Account} (h : user ∈ accounts.table.rows) :
    accounts.getById user.id = some user :=
  Table.find_of_mem h

theorem id_of_getById {accounts : Accounts} {id : Uuid} {user : Account} (h : accounts.getById id = some user) :
    user.id = id :=
  Table.key_of_find h

theorem eq_of_username {accounts : Accounts} {a b : Account} (ha : a ∈ accounts.table.rows)
    (hb : b ∈ accounts.table.rows) (h : a.username = b.username) : a = b :=
  List.inj_on_of_nodup_map accounts.usernames ha hb h

theorem username_ne {accounts : Accounts} {i j : Uuid} {a b : Account} (ha : accounts.getById i = some a)
    (hb : accounts.getById j = some b) (h : i ≠ j) : a.username ≠ b.username := by
  intro hname
  have hab := eq_of_username (mem_of_getById ha) (mem_of_getById hb) hname
  exact h ((id_of_getById ha).symm.trans (hab ▸ id_of_getById hb))

theorem mem_of_getByUsername {accounts : Accounts} {username : String} {user : Account}
    (h : accounts.getByUsername username = some user) : user ∈ accounts.table.rows ∧ user.username = username :=
  ⟨List.mem_of_find?_eq_some h, by simpa only [decide_eq_true_eq] using List.find?_some h⟩

end Accounts

structure Site where
  accounts : Accounts
  rolePermissions : PermissionTable
  /-- Unset where the only way in is by OAuth. -/
  passwordLogin : Bool

def hasPermission (site : Site) (user : Account) (permission : Permission) : Bool :=
  user.isActive && permission ∈ getExpandedRolePermissions site.rolePermissions user.role

inductive AuthMethod
  | jwt
  | apiToken
  deriving DecidableEq

/-- The account a credential of that name stands for, while it is active. -/
def getCurrentUser (site : Site) (username : String) : Except Raise Account :=
  match site.accounts.getByUsername username with
  | none => .error (.http 401 "Could not validate credentials")
  | some user => if user.isActive then .ok user else .error (.http 401 "Could not validate credentials")

def requireJwtAuth (method : AuthMethod) : Except Raise Unit :=
  if method = .jwt then .ok () else .error (.http 403 "JWT authentication required for this operation")

def requirePermissions (site : Site) (user : Account) (permission : Permission) : Except Raise Unit :=
  if hasPermission site user permission then .ok ()
  else .error (.http 403 ("Insufficient permissions. Required: " ++ permission.text))

/-- `PermissionChecker.require` -/
def require (site : Site) (user : Account) (permission : Permission) : Except Raise Unit :=
  if hasPermission site user permission then .ok ()
  else .error (.http 403 ("Permission required: " ++ permission.text))

/-- An identifier in a path: the uuid it parses to, and whether it is spelt the
way `str` spells it, which is all that is compared with the caller's own. -/
structure PathId where
  id : Uuid
  canonical : Bool

def PathId.isOwn (userId : PathId) (user : Account) : Bool := userId.canonical && user.id = userId.id

structure UserCreate where
  username : String
  email : String
  password : String
  role : String
  credits : Int

/-- `newId` is the uuid drawn for the row; one already taken is refused by the primary key. -/
def createUser (site : Site) (newId : Uuid) (data : UserCreate) : Except Raise Site :=
  match Role.parse data.role with
  | none =>
    .error (.http 400 ("Invalid role. Must be one of: " ++ ", ".intercalate (Role.validRoles.map Role.text)))
  | some role =>
    if (site.accounts.getByUsername data.username).isSome then .error (.http 409 "Username already exists")
    else if (site.accounts.getByEmail data.email).isSome then .error (.http 409 "Email already exists")
    else if (site.accounts.getById newId).isSome then .error (.exception "IntegrityError")
    else do
      let user : Account :=
        { id := newId, username := data.username, email := data.email, password := some data.password, role,
          isActive := true, nukeBalance := data.credits }
      let accounts ← Accounts.commit (site.accounts.table.insert user)
      return { site with accounts }

structure UserUpdate where
  role : Option String
  email : Option String
  nukeBalance : Option Int

def updatedRole (site : Site) (updatedBy user : Account) : Option String → Except Raise Role
  | none => .ok user.role
  | some role =>
    if ¬ hasPermission site updatedBy .usersUpdate then .error (.http 403 "Insufficient permissions to update role")
    else if updatedBy.role.hierarchy < user.role.hierarchy then
      .error (.http 403 "Cannot modify users with higher privileges")
    else if updatedBy.role.hierarchy < getRoleLevel role then
      .error (.http 403 "Cannot assign roles higher than your own")
    else
      match Role.parse role with
      | none => .error (.http 400 "Invalid role")
      | some r => .ok r

def updatedBalance (site : Site) (updatedBy user : Account) : Option Int → Except Raise Int
  | none => .ok user.nukeBalance
  | some balance =>
    if user.nukeBalance = balance then .ok balance
    else if hasPermission site updatedBy .creditsGrant || hasPermission site updatedBy .creditsDeduct then .ok balance
    else .error (.http 403 "Insufficient permissions to update credits")

def updateUser (site : Site) (updatedBy : Account) (userId : Uuid) (data : UserUpdate) : Except Raise Site :=
  match site.accounts.getById userId with
  | none => .error (.http 404 "User not found")
  | some user => do
    let role ← updatedRole site updatedBy user data.role
    let nukeBalance ← updatedBalance site updatedBy user data.nukeBalance
    let email := data.email.getD user.email
    let accounts ← Accounts.commit
      (site.accounts.table.modify userId (fun user => { user with role, nukeBalance, email }) fun _ => rfl)
    return { site with accounts }

def deleteUser (site : Site) (userId : Uuid) : Except Raise Site :=
  match site.accounts.getById userId with
  | none => .error (.http 404 "User not found")
  | some _ => do
    let accounts ← Accounts.commit (site.accounts.table.erase userId)
    return { site with accounts }

def disableUser (site : Site) (userId : Uuid) (disabled : Bool) : Except Raise Site :=
  match site.accounts.getById userId with
  | none => .error (.http 404 "User not found")
  | some _ => do
    let accounts ← Accounts.commit
      (site.accounts.table.modify userId (fun user => { user with isActive := !disabled }) fun _ => rfl)
    return { site with accounts }

def changePassword (site : Site) (userId : Uuid) (currentPassword newPassword : String) : Except Raise Site :=
  match site.accounts.getById userId with
  | none => .error (.http 404 "User not found")
  | some user =>
    if user.password ≠ some currentPassword then .error (.http 400 "Current password is incorrect")
    else do
      let accounts ← Accounts.commit
        (site.accounts.table.modify userId (fun user => { user with password := some newPassword }) fun _ => rfl)
      return { site with accounts }

/-- Every account of the batch that exists, through no service and no further check. -/
def bulkUserAction (site : Site) (action : String) (userIds : List Uuid) : Except Raise Site :=
  if action = "delete" then do
    let accounts ← Accounts.commit (site.accounts.table.filter fun user => user.id ∉ userIds)
    return { site with accounts }
  else if action = "disable" ∨ action = "enable" then do
    let accounts ← Accounts.commit
      (site.accounts.table.update
        (fun user => { user with isActive := if user.id ∈ userIds then action ≠ "disable" else user.isActive })
        fun _ => rfl)
    return { site with accounts }
  else .error (.http 400 ("Unknown action: " ++ action))

def updateRolePermissions (site : Site) (role : String) (permissions : List String) : Except Raise Site :=
  if role = "super_admin" then .error (.http 403 "Cannot modify super_admin permissions")
  else
    match Role.parse role with
    | none => .error (.http 400 ("Invalid role: " ++ role))
    | some r =>
      let invalid := permissions.filter fun p => (Permission.parse p).isNone
      if invalid ≠ [] then
        .error (.http 400 ("Invalid permissions: [" ++ ", ".intercalate (invalid.map fun p => "'" ++ p ++ "'") ++ "]"))
      else
        .ok { site with
          rolePermissions := Function.update site.rolePermissions r (permissions.filterMap Permission.parse) }

def impersonateUser (site : Site) (userId : Uuid) : Except Raise String :=
  match site.accounts.getById userId with
  | none => .error (.http 404 "User not found")
  | some user => .ok user.username

/-- The subject of the token handed out. Whether the account is active is not asked. -/
def login (site : Site) (username : String) (knowsPassword : Bool) : Except Raise String :=
  if ¬ site.passwordLogin then .error (.http 403 "Password login is disabled. Use OAuth instead.")
  else
    match site.accounts.getByUsername username with
    | none => .error (.http 401 "Incorrect username or password")
    | some user => if knowsPassword then .ok user.username else .error (.http 401 "Incorrect username or password")

/-! Each operation, seen by what it does to the account under an identifier. -/

theorem getById_modify {accounts accounts' : Accounts} {userId : Uuid} {user : Account} {f : Account → Account}
    {hf : ∀ a, (f a).id = a.id} (h : Accounts.commit (accounts.table.modify userId f hf) = .ok accounts')
    (huser : accounts.getById userId = some user) (id : Uuid) :
    accounts'.getById id = if id = userId then some (f user) else accounts.getById id := by
  rw [Accounts.getById, Accounts.commit_ok h]
  by_cases hid : id = userId
  · subst hid
    rw [if_pos rfl]
    exact Table.find_modify_self _ _ huser
  · rw [if_neg hid]
    exact Table.find_modify_of_ne _ _ hid

theorem getById_insert {accounts accounts' : Accounts} {user : Account}
    (h : Accounts.commit (accounts.table.insert user) = .ok accounts') (hnew : accounts.getById user.id = none)
    (id : Uuid) : accounts'.getById id = if id = user.id then some user else accounts.getById id := by
  rw [Accounts.getById, Accounts.commit_ok h]
  by_cases hid : id = user.id
  · subst hid
    rw [if_pos rfl]
    exact Table.find_insert_self hnew
  · rw [if_neg hid]
    exact Table.find_insert_of_ne hid

theorem createUser_ok {site site' : Site} {newId : Uuid} {data : UserCreate}
    (h : createUser site newId data = .ok site') :
    ∃ role user, Role.parse data.role = some role ∧ user.role = role ∧ user.username = data.username ∧
      site.accounts.getById newId = none ∧ site'.rolePermissions = site.rolePermissions ∧
      ∀ id, site'.accounts.getById id = if id = newId then some user else site.accounts.getById id := by
  unfold createUser at h
  split at h
  · exact nomatch h
  · rename_i role hrole
    split at h
    · exact nomatch h
    split at h
    · exact nomatch h
    split at h
    · exact nomatch h
    rename_i hnew
    obtain ⟨accounts, hcommit, h⟩ := ok_of_bind h
    cases h
    have hnone : site.accounts.getById newId = none := by
      simpa only [Option.not_isSome_iff_eq_none] using hnew
    exact ⟨role, ⟨newId, data.username, data.email, some data.password, role, true, data.credits⟩, hrole, rfl, rfl,
      hnone, rfl, getById_insert hcommit hnone⟩

theorem updatedRole_ok {site : Site} {updatedBy user : Account} {data : Option String} {role : Role}
    (h : updatedRole site updatedBy user data = .ok role) :
    (data = none ∧ role = user.role) ∨
      ∃ text, data = some text ∧ Role.parse text = some role ∧
        user.role.hierarchy ≤ updatedBy.role.hierarchy ∧ role.hierarchy ≤ updatedBy.role.hierarchy := by
  unfold updatedRole at h
  split at h
  · cases h
    exact Or.inl ⟨rfl, rfl⟩
  · rename_i text
    split at h
    · exact nomatch h
    split at h
    · exact nomatch h
    rename_i huser
    split at h
    · exact nomatch h
    rename_i hrole
    split at h
    · exact nomatch h
    rename_i r hr
    cases h
    rw [getRoleLevel_of_parse hr] at hrole
    exact Or.inr ⟨text, rfl, hr, not_lt.mp huser, not_lt.mp hrole⟩

theorem updateUser_ok {site site' : Site} {updatedBy : Account} {userId : Uuid} {data : UserUpdate}
    (h : updateUser site updatedBy userId data = .ok site') :
    ∃ user user' : Account, site.accounts.getById userId = some user ∧
      updatedRole site updatedBy user data.role = .ok user'.role ∧
      user'.username = user.username ∧ user'.isActive = user.isActive ∧
      site'.rolePermissions = site.rolePermissions ∧
      ∀ id, site'.accounts.getById id = if id = userId then some user' else site.accounts.getById id := by
  unfold updateUser at h
  split at h
  · exact nomatch h
  · rename_i user huser
    obtain ⟨role, hrole, h⟩ := ok_of_bind h
    obtain ⟨balance, -, h⟩ := ok_of_bind h
    obtain ⟨accounts, hcommit, h⟩ := ok_of_bind h
    cases h
    exact ⟨user, { user with role, nukeBalance := balance, email := data.email.getD user.email }, huser, hrole,
      rfl, rfl, rfl, getById_modify hcommit huser⟩

theorem deleteUser_ok {site site' : Site} {userId : Uuid} (h : deleteUser site userId = .ok site') :
    (site.accounts.getById userId).isSome ∧ site'.rolePermissions = site.rolePermissions ∧
      ∀ id, site'.accounts.getById id = if id = userId then none else site.accounts.getById id := by
  unfold deleteUser at h
  split at h
  · exact nomatch h
  · rename_i user huser
    obtain ⟨accounts, hcommit, h⟩ := ok_of_bind h
    cases h
    refine ⟨by rw [huser]; rfl, rfl, fun id => ?_⟩
    rw [Accounts.getById, Accounts.commit_ok hcommit]
    by_cases hid : id = userId
    · subst hid
      rw [if_pos rfl]
      exact Table.find_erase_self _ _
    · rw [if_neg hid]
      exact Table.find_erase_of_ne hid

theorem disableUser_ok {site site' : Site} {userId : Uuid} {disabled : Bool}
    (h : disableUser site userId disabled = .ok site') :
    ∃ user, site.accounts.getById userId = some user ∧ site'.rolePermissions = site.rolePermissions ∧
      ∀ id, site'.accounts.getById id =
        if id = userId then some { user with isActive := !disabled } else site.accounts.getById id := by
  unfold disableUser at h
  split at h
  · exact nomatch h
  · rename_i user huser
    obtain ⟨accounts, hcommit, h⟩ := ok_of_bind h
    cases h
    exact ⟨user, huser, rfl, getById_modify hcommit huser⟩

theorem changePassword_ok {site site' : Site} {userId : Uuid} {currentPassword newPassword : String}
    (h : changePassword site userId currentPassword newPassword = .ok site') :
    ∃ user, site.accounts.getById userId = some user ∧ ∀ id, site'.accounts.getById id =
      if id = userId then some { user with password := some newPassword } else site.accounts.getById id := by
  unfold changePassword at h
  split at h
  · cases h
  · rename_i user huser
    split at h
    · cases h
    obtain ⟨accounts, hcommit, h⟩ := ok_of_bind h
    cases h
    exact ⟨user, huser, getById_modify hcommit huser⟩

theorem bulkUserAction_ok {site site' : Site} {action : String} {userIds : List Uuid}
    (h : bulkUserAction site action userIds = .ok site') :
    site'.rolePermissions = site.rolePermissions ∧
      (action = "delete" ∧ (∀ id, site'.accounts.getById id =
          (site.accounts.getById id).filter fun user => user.id ∉ userIds) ∨
        (action = "disable" ∨ action = "enable") ∧ ∀ id, site'.accounts.getById id = (site.accounts.getById id).map fun user =>
          { user with isActive := if user.id ∈ userIds then action ≠ "disable" else user.isActive }) := by
  unfold bulkUserAction at h
  split at h
  · rename_i hdelete
    obtain ⟨accounts, hcommit, h⟩ := ok_of_bind h
    cases h
    refine ⟨rfl, Or.inl ⟨hdelete, fun id => ?_⟩⟩
    rw [Accounts.getById, Accounts.commit_ok hcommit]
    exact Table.find_filter id _
  · split at h
    · rename_i haction
      obtain ⟨accounts, hcommit, h⟩ := ok_of_bind h
      cases h
      refine ⟨rfl, Or.inr ⟨haction, fun id => ?_⟩⟩
      rw [Accounts.getById, Accounts.commit_ok hcommit]
      exact Table.find_update id _ _
    · exact nomatch h

theorem updateRolePermissions_ok {site site' : Site} {role : String} {permissions : List String}
    (h : updateRolePermissions site role permissions = .ok site') :
    ∃ r, Role.parse role = some r ∧ site'.accounts = site.accounts ∧
      site'.rolePermissions = Function.update site.rolePermissions r (permissions.filterMap Permission.parse) := by
  unfold updateRolePermissions at h
  split at h
  · exact nomatch h
  split at h
  · exact nomatch h
  · rename_i r hr
    dsimp only at h
    split at h
    · exact nomatch h
    · cases h
      exact ⟨r, hr, rfl, rfl⟩

theorem impersonateUser_ok {site : Site} {userId : Uuid} {subject : String}
    (h : impersonateUser site userId = .ok subject) :
    ∃ user, site.accounts.getById userId = some user ∧ subject = user.username := by
  unfold impersonateUser at h
  split at h
  · exact nomatch h
  · rename_i user huser
    cases h
    exact ⟨user, huser, rfl⟩

theorem login_ok {site : Site} {username subject : String} {knowsPassword : Bool}
    (h : login site username knowsPassword = .ok subject) : subject = username := by
  unfold login at h
  split at h
  · exact nomatch h
  split at h
  · exact nomatch h
  · rename_i user huser
    split at h
    · cases h
      exact (Accounts.mem_of_getByUsername huser).2
    · exact nomatch h

theorem getCurrentUser_ok {site : Site} {username : String} {user : Account}
    (h : getCurrentUser site username = .ok user) : user ∈ site.accounts.table.rows ∧ user.username = username := by
  unfold getCurrentUser at h
  split at h
  · exact nomatch h
  · rename_i found hfound
    split at h
    · cases h
      exact Accounts.mem_of_getByUsername hfound
    · exact nomatch h

inductive Operation
  | createUser (newId : Uuid) (data : UserCreate)
  | updateUser (userId : PathId) (data : UserUpdate)
  | deleteUser (userId : PathId)
  | disableUser (userId : PathId) (disabled : Bool)
  | bulkUserAction (action : String) (userIds : List Uuid)
  | updateRolePermissions (role : String) (permissions : List String)
  | impersonateUser (userId : PathId)

/-- The site, the accounts whose tokens one person holds, and those whose
passwords that person set. -/
structure Desk where
  site : Site
  tokens : List String
  passwords : List String

def checkUpdate (site : Site) (user : Account) (userId : PathId) (data : UserUpdate) : Except Raise Unit :=
  if ¬ userId.isOwn user then require site user .usersUpdate
  else if data.role.isSome ∨ data.nukeBalance.isSome then .error (.http 403 "Cannot update role or credit balance")
  else .ok ()

def checkNotOwn (user : Account) (userId : PathId) (detail : String) : Except Raise Unit :=
  if userId.isOwn user then .error (.http 400 detail) else .ok ()

def Desk.unrevoked (desk : Desk) (username : Option String) : List String :=
  desk.tokens.filter fun name => some name ≠ username

def usernameOf (site : Site) (userId : PathId) : Option String :=
  (site.accounts.getById userId.id).map Account.username

/-- The endpoints, with what each asks of the caller before it acts. -/
def handle (desk : Desk) (currentUser : Account) (method : AuthMethod) : Operation → Except Raise Desk
  | .createUser newId data => do
    requireJwtAuth method
    requirePermissions desk.site currentUser .usersCreate
    let site ← createUser desk.site newId data
    return { desk with site, passwords := data.username :: desk.passwords }
  | .updateUser userId data => do
    checkUpdate desk.site currentUser userId data
    let site ← updateUser desk.site currentUser userId.id data
    return { desk with site, tokens := desk.unrevoked (if data.role.isSome then usernameOf desk.site userId else none) }
  | .deleteUser userId => do
    requireJwtAuth method
    requirePermissions desk.site currentUser .usersDelete
    checkNotOwn currentUser userId "Cannot delete your own account"
    let site ← deleteUser desk.site userId.id
    return { desk with site }
  | .disableUser userId disabled => do
    requireJwtAuth method
    requirePermissions desk.site currentUser .usersUpdate
    checkNotOwn currentUser userId "Cannot disable your own account"
    let site ← disableUser desk.site userId.id disabled
    return { desk with site, tokens := desk.unrevoked (if disabled then usernameOf desk.site userId else none) }
  | .bulkUserAction action userIds => do
    requirePermissions desk.site currentUser .adminAccess
    requireJwtAuth method
    let site ← bulkUserAction desk.site action userIds
    return { desk with site }
  | .updateRolePermissions role permissions => do
    requirePermissions desk.site currentUser .adminAccess
    requireJwtAuth method
    let site ← updateRolePermissions desk.site role permissions
    return { desk with site }
  | .impersonateUser userId => do
    requireJwtAuth method
    requirePermissions desk.site currentUser .usersImpersonate
    let subject ← impersonateUser desk.site userId.id
    return { desk with tokens := subject :: desk.tokens }

/-- A request under the name of an account, a login to one whose password is
known, or the expiry of a token. -/
inductive Event
  | request (username : String) (method : AuthMethod) (operation : Operation)
  | login (username : String)
  | expire (username : String)

/-- The names a person acts under who signs in as `actor`. -/
def Desk.speaksFor (desk : Desk) (actor username : String) : Prop := username = actor ∨ username ∈ desk.tokens

instance (desk : Desk) (actor username : String) : Decidable (desk.speaksFor actor username) :=
  inferInstanceAs (Decidable (_ ∨ _))

/-- One person's dealings with the site; a request the site refuses leaves all as it was. -/
def step (actor : String) : Step Desk Event
  | desk, .request username method operation =>
    if desk.speaksFor actor username then
      (getCurrentUser desk.site username >>= fun user => handle desk user method operation).toOption
    else none
  | desk, .login username =>
    (login desk.site username (username ∈ desk.passwords)).toOption.map fun subject =>
      { desk with tokens := subject :: desk.tokens }
  | desk, .expire username => some { desk with tokens := desk.tokens.filter fun name => name ≠ username }

end NukeLab.Administration
