import Mathlib.Data.List.Dedup
import NukeLab.BulkActions
import NukeLab.UuidTexts

namespace NukeLab.BulkUsers

open Tables Records Roles State ContainerNames UuidTexts
open Administration (requireJwtAuth requirePermissions)
open BulkActions (Caller)

inductive SecurityEntry
  | null
  | moment (t : Instant)
  | text (value : String)

abbrev Security := String → Option SecurityEntry

structure User where
  id : Uuid
  isActive : Bool
  security : Option Security

/-- The users table, whose ids are 128 bits wide, and the files of the avatar directory, if there is one. -/
structure Directory where
  users : Table User.id
  wide : ∀ user ∈ users.rows, user.id < uuidBound
  avatars : Option (List String)

inductive Action
  | disable
  | enable
  | delete
  deriving DecidableEq

namespace Action

def text : Action → String
  | disable => "disable"
  | enable => "enable"
  | delete => "delete"

def parse (text : String) : Option Action := [disable, enable, delete].find? fun action => action.text = text

end Action

structure BulkActionRequest where
  action : String
  userIds : List String

structure Answers where
  now : Instant
  /-- what `UUID` says of a text that it refuses -/
  complaint : String → String
  /-- what marking an account for deletion raises, which then stays unmarked -/
  refusesDelete : Uuid → Option String
  commitError : Option String
  keepsFile : String → Bool

structure Results where
  success : List String
  failed : List (String × String)

structure Response where
  message : String
  action : String
  results : Results

section Endpoint

variable (answers : Answers)

def parseIds : List String → Except Raise (List Uuid)
  | [] => .ok []
  | uid :: uids =>
    match parseUuid uid with
    | none => .error (.http 400 ("Invalid user ID format: " ++ answers.complaint uid))
    | some id => (parseIds uids).map (id :: ·)

/-- What the turn of an account raises; a security document is always one that can be copied. -/
def raises (action : Action) (user : User) : Option String :=
  match action with
  | .delete => answers.refusesDelete user.id
  | .disable | .enable => none

/-- The results so far, and the accounts that the commit will change. -/
structure Batch where
  success : List String
  failed : List (String × String)
  changed : List Uuid

def walk (missing : List String) (action : Action) : List User → Batch → Batch
  | [], batch => batch
  | user :: users, batch =>
    let uid := uuidText user.id
    if uid ∈ missing then walk missing action users batch
    else
      match raises answers action user with
      | none =>
        walk missing action users
          { batch with success := batch.success ++ [uid], changed := batch.changed ++ [user.id] }
      | some error => walk missing action users { batch with failed := batch.failed ++ [(uid, error)] }

def markDisabled (disabled : Bool) (security : Security) : Security :=
  if disabled then
    Function.update (Function.update security "disabled_reason" (some .null)) "disabled_at" (some (.moment answers.now))
  else Function.update (Function.update security "disabled_reason" none) "disabled_at" none

def setDisabled (disabled : Bool) (user : User) : User :=
  { user with isActive := ¬ disabled, security := some (markDisabled answers disabled (user.security.getD fun _ => none)) }

def asked (action : Action) (user : User) : Option User :=
  match action with
  | .delete => none
  | .disable => some (setDisabled answers true user)
  | .enable => some (setDisabled answers false user)

theorem id_setDisabled_of (disabled : Bool) (changed : List Uuid) (user : User) :
    (if user.id ∈ changed then setDisabled answers disabled user else user).id = user.id := by
  split <;> rfl

def commit (action : Action) (changed : List Uuid) (users : Table User.id) : Table User.id :=
  match action with
  | .delete => users.filter fun user => user.id ∉ changed
  | .disable => users.update _ (id_setDisabled_of answers true changed)
  | .enable => users.update _ (id_setDisabled_of answers false changed)

theorem id_of_mem_commit {action : Action} {changed : List Uuid} {users : Table User.id} {user : User}
    (h : user ∈ (commit answers action changed users).rows) : ∃ old ∈ users.rows, old.id = user.id := by
  cases action with
  | delete => exact ⟨user, (List.mem_filter.mp h).1, rfl⟩
  | disable =>
      obtain ⟨old, hold, rfl⟩ := List.mem_map.mp h
      exact ⟨old, hold, (id_setDisabled_of answers true changed old).symm⟩
  | enable =>
      obtain ⟨old, hold, rfl⟩ := List.mem_map.mp h
      exact ⟨old, hold, (id_setDisabled_of answers false changed old).symm⟩

/-- What is left of the files of one account; the first that cannot be removed ends it. -/
def removeFiles (uid : String) : List String → List String
  | [] => []
  | file :: files =>
    if uid.toList.isPrefixOf file.toList then if answers.keepsFile file then file :: files else removeFiles uid files
    else file :: removeFiles uid files

def removeAvatars (changed : List Uuid) (files : List String) : List String :=
  changed.foldl (fun files id => removeFiles answers (uuidText id) files) files

def Directory.changed (dir : Directory) (action : Action) (changed : List Uuid) : Directory where
  users := commit answers action changed dir.users
  wide user huser := by
    obtain ⟨old, hold, hid⟩ := id_of_mem_commit answers huser
    exact hid ▸ dir.wide old hold
  avatars := if action = .delete then dir.avatars.map (removeAvatars answers changed) else dir.avatars

def fetched (dir : Directory) (ids : List Uuid) : List User := dir.users.rows.filter fun user => user.id ∈ ids

def missing (requested : List String) (users : List User) : List String :=
  (requested.filter fun uid => uid ∉ users.map fun user => uuidText user.id).dedup

def firstBatch (missing : List String) : Batch := ⟨[], missing.map fun uid => (uid, "User not found"), []⟩

def bulkUserAction (caller : Caller) (body : BulkActionRequest) (dir : Directory) : Except Raise (Response × Directory) := do
  requirePermissions caller.site caller.user .adminAccess
  requireJwtAuth caller.method
  let ids ← parseIds answers body.userIds
  let users := fetched dir ids
  let missing := missing body.userIds users
  match Action.parse body.action with
  | none => .error (.http 400 ("Unknown action: " ++ body.action))
  | some action =>
    let batch := walk answers missing action users (firstBatch missing)
    match answers.commitError with
    | some error => .error (.exception error)
    | none =>
      return (⟨"Processed " ++ toString body.userIds.length ++ " users", body.action, ⟨batch.success, batch.failed⟩⟩,
        dir.changed answers action batch.changed)

end Endpoint

def denoted (users : Table User.id) (uid : String) : Option User := (parseUuid uid).bind users.find

/-- Every requested id is reported once, it is reported a success exactly where
its account has become what was asked, and nothing else has changed. -/
structure Accounted (answers : Answers) (action : Action) (requested : List String) (results : Results)
    (before after : Table User.id) : Prop where
  once : ∀ uid ∈ requested, (results.success ++ results.failed.map Prod.fst).count uid = 1
  succeeded : ∀ uid ∈ requested, uid ∈ results.success ↔
    ∃ user, denoted before uid = some user ∧ after.find user.id = asked answers action user
  untouched : ∀ id, (∀ uid ∈ requested, parseUuid uid ≠ some id) ∨ (∃ entry ∈ results.failed, parseUuid entry.1 = some id) →
    after.find id = before.find id

/-- Whichever account can be changed is spelt the way `str` spells its id. -/
def Canonical (answers : Answers) (action : Action) (requested : List String) (users : Table User.id) : Prop :=
  ∀ uid ∈ requested, ∀ user, denoted users uid = some user → raises answers action user = none → uid = uuidText user.id

section Accounting

variable {answers : Answers} {action : Action} {requested : List String} {ids : List Uuid} {dir : Directory}

theorem uuidText_injective {u v : Uuid} (hu : u < uuidBound) (hv : v < uuidBound) (h : uuidText u = uuidText v) : u = v := by
  have hchars : uuidChars u = uuidChars v := by rw [← uuidText_toList, h, uuidText_toList]
  exact uuidChars_injective hu hv hchars

theorem parseIds_ok (h : parseIds answers requested = .ok ids) : requested.map parseUuid = ids.map some := by
  induction requested generalizing ids with
  | nil =>
      cases h
      rfl
  | cons uid uids ih =>
      rw [parseIds] at h
      split at h
      · cases h
      · rename_i first hfirst
        cases hrest : parseIds answers uids with
        | error raise =>
            rw [hrest] at h
            cases h
        | ok rest =>
            rw [hrest] at h
            cases h
            rw [List.map_cons, List.map_cons, hfirst, ih hrest]

theorem mem_ids (h : parseIds answers requested = .ok ids) (id : Uuid) :
    id ∈ ids ↔ ∃ uid ∈ requested, parseUuid uid = some id := by
  rw [← List.mem_map (f := parseUuid), parseIds_ok h, List.mem_map]
  simp

theorem mem_fetched {user : User} : user ∈ fetched dir ids ↔ user ∈ dir.users.rows ∧ user.id ∈ ids := by
  simp [fetched]

/-- The loop never meets a missing text. -/
theorem walk_eq {missing : List String} {users : List User} (h : ∀ user ∈ users, uuidText user.id ∉ missing) (batch : Batch) :
    walk answers missing action users batch =
      ⟨batch.success ++ (users.filter fun user => (raises answers action user).isNone).map fun user => uuidText user.id,
        batch.failed ++ users.filterMap fun user => (raises answers action user).map fun error => (uuidText user.id, error),
        batch.changed ++ (users.filter fun user => (raises answers action user).isNone).map User.id⟩ := by
  induction users generalizing batch with
  | nil => simp [walk]
  | cons user users ih =>
      have hrest := ih fun user' h' => h user' (List.mem_cons_of_mem user h')
      rw [walk, if_neg (h user List.mem_cons_self)]
      cases hraises : raises answers action user with
      | none => simp [hrest, hraises]
      | some error => simp [hrest, hraises]

section Turn

variable (answers action requested ids dir) in
def batchOf : Batch :=
  let users := fetched dir ids
  walk answers (missing requested users) action users (firstBatch (missing requested users))

theorem mem_missing {users : List User} {uid : String} :
    uid ∈ missing requested users ↔ uid ∈ requested ∧ ∀ user ∈ users, uuidText user.id ≠ uid := by
  rw [missing, List.mem_dedup, List.mem_filter]
  simp

theorem batchOf_eq : batchOf answers action requested ids dir =
    ⟨((fetched dir ids).filter fun user => (raises answers action user).isNone).map fun user => uuidText user.id,
      ((missing requested (fetched dir ids)).map fun uid => (uid, "User not found")) ++
        (fetched dir ids).filterMap fun user => (raises answers action user).map fun error => (uuidText user.id, error),
      ((fetched dir ids).filter fun user => (raises answers action user).isNone).map User.id⟩ := by
  have hfound : ∀ user ∈ fetched dir ids, uuidText user.id ∉ missing requested (fetched dir ids) :=
    fun user huser hmissing => (mem_missing.mp hmissing).2 user huser rfl
  rw [batchOf, walk_eq hfound, firstBatch]
  simp

theorem mem_success {uid : String} : uid ∈ (batchOf answers action requested ids dir).success ↔
    ∃ user ∈ fetched dir ids, raises answers action user = none ∧ uuidText user.id = uid := by
  simp [batchOf_eq, and_assoc]

theorem mem_changed {id : Uuid} : id ∈ (batchOf answers action requested ids dir).changed ↔
    ∃ user ∈ fetched dir ids, raises answers action user = none ∧ user.id = id := by
  simp [batchOf_eq, and_assoc]

theorem mem_failed {entry : String × String} : entry ∈ (batchOf answers action requested ids dir).failed ↔
    (entry.1 ∈ missing requested (fetched dir ids) ∧ entry.2 = "User not found") ∨
      ∃ user ∈ fetched dir ids, raises answers action user = some entry.2 ∧ uuidText user.id = entry.1 := by
  obtain ⟨uid, error⟩ := entry
  simp [batchOf_eq]
  grind

theorem find_commit {changed : List Uuid} {users : Table User.id} (id : Uuid) :
    (commit answers action changed users).find id =
      (users.find id).bind fun user => if id ∈ changed then asked answers action user else some user := by
  cases huser : users.find id with
  | none =>
      cases action with
      | delete => rw [commit, Table.find_filter, huser]; rfl
      | disable => rw [commit, Table.find_update, huser]; rfl
      | enable => rw [commit, Table.find_update, huser]; rfl
  | some user =>
      obtain rfl : user.id = id := Table.key_of_find huser
      by_cases hchanged : user.id ∈ changed
      · cases action with
        | delete => simp [commit, Table.find_filter, huser, hchanged, asked]
        | disable => simp [commit, Table.find_update, huser, hchanged, asked]
        | enable => simp [commit, Table.find_update, huser, hchanged, asked]
      · cases action with
        | delete => simp [commit, Table.find_filter, huser, hchanged]
        | disable => simp [commit, Table.find_update, huser, hchanged]
        | enable => simp [commit, Table.find_update, huser, hchanged]

theorem count_texts (users : List User) (uid : String) :
    ((users.filter fun user => (raises answers action user).isNone).map fun user => uuidText user.id).count uid +
      ((users.filterMap fun user => (raises answers action user).map fun error => (uuidText user.id, error)).map Prod.fst).count
        uid = (users.map fun user => uuidText user.id).count uid := by
  induction users with
  | nil => rfl
  | cons user users ih =>
      cases hraises : raises answers action user with
      | none => simp [hraises, List.count_cons, ← ih]; omega
      | some error => simp [hraises, List.count_cons, ← ih]; omega

theorem count_eq_one {uid : String} (huid : uid ∈ requested) :
    ((batchOf answers action requested ids dir).success ++
      (batchOf answers action requested ids dir).failed.map Prod.fst).count uid = 1 := by
  have htexts : ((fetched dir ids).map fun user => uuidText user.id).Nodup := by
    have hnodup : ((fetched dir ids).map User.id).Nodup := dir.users.nodup.sublist (List.filter_sublist.map User.id)
    have hmap : ((fetched dir ids).map fun user => uuidText user.id) = ((fetched dir ids).map User.id).map uuidText := by
      rw [List.map_map]
      rfl
    rw [hmap]
    refine hnodup.map_on fun u hu v hv => ?_
    obtain ⟨a, ha, rfl⟩ := List.mem_map.mp hu
    obtain ⟨b, hb, rfl⟩ := List.mem_map.mp hv
    exact uuidText_injective (dir.wide a (mem_fetched.mp ha).1) (dir.wide b (mem_fetched.mp hb).1)
  have hmissing : (missing requested (fetched dir ids)).Nodup := List.nodup_dedup _
  have hfirst : ((missing requested (fetched dir ids)).map fun uid => (uid, "User not found")).map Prod.fst =
      missing requested (fetched dir ids) := by
    rw [List.map_map]
    exact List.map_id' _
  rw [batchOf_eq, List.map_append, hfirst, List.count_append, List.count_append, Nat.add_left_comm, count_texts]
  by_cases hfound : uid ∈ (fetched dir ids).map fun user => uuidText user.id
  · obtain ⟨user, huser, htext⟩ := List.mem_map.mp hfound
    have hnot : uid ∉ missing requested (fetched dir ids) := fun h => (mem_missing.mp h).2 user huser htext
    rw [List.count_eq_zero_of_not_mem hnot, List.count_eq_one_of_mem htexts hfound]
  · have hmem : uid ∈ missing requested (fetched dir ids) :=
      mem_missing.mpr ⟨huid, fun user huser htext => hfound (htext ▸ List.mem_map_of_mem huser)⟩
    rw [List.count_eq_one_of_mem hmissing hmem, List.count_eq_zero_of_not_mem hfound]

theorem find_changed (id : Uuid) (answers : Answers) (requested : List String) :
    (commit answers action (batchOf answers action requested ids dir).changed dir.users).find id =
      (dir.users.find id).bind fun user =>
        if id ∈ ids ∧ raises answers action user = none then asked answers action user else some user := by
  rw [find_commit]
  cases huser : dir.users.find id with
  | none => rfl
  | some user =>
      obtain rfl : user.id = id := Table.key_of_find huser
      have hmem : user.id ∈ (batchOf answers action requested ids dir).changed ↔
          user.id ∈ ids ∧ raises answers action user = none := by
        rw [mem_changed]
        constructor
        · rintro ⟨other, hother, hraises, hid⟩
          have heq := Table.eq_of_mem_of_key (mem_fetched.mp hother).1 (Table.mem_of_find huser) hid
          exact ⟨heq ▸ (mem_fetched.mp hother).2, heq ▸ hraises⟩
        · rintro ⟨hid, hraises⟩
          exact ⟨user, mem_fetched.mpr ⟨Table.mem_of_find huser, hid⟩, hraises, rfl⟩
      simp only [Option.bind_some, hmem]

theorem parse_text {user : User} (huser : user ∈ fetched dir ids) : parseUuid (uuidText user.id) = some user.id :=
  parseUuid_uuidText (dir.wide user (mem_fetched.mp huser).1)

theorem asked_ne_of_raises {user : User} {error : String} (h : raises answers action user = some error) :
    asked answers action user ≠ some user := by
  cases action with
  | delete => exact nofun
  | disable => cases h
  | enable => cases h

variable (hids : parseIds answers requested = .ok ids)
include hids

theorem denoted_iff {uid : String} (huid : uid ∈ requested) {user : User} :
    denoted dir.users uid = some user ↔ user ∈ fetched dir ids ∧ parseUuid uid = some user.id := by
  rw [denoted, mem_fetched, Option.bind_eq_some_iff]
  constructor
  · rintro ⟨id, hparse, hfind⟩
    obtain rfl : user.id = id := Table.key_of_find hfind
    exact ⟨⟨Table.mem_of_find hfind, (mem_ids hids _).mpr ⟨uid, huid, hparse⟩⟩, hparse⟩
  · rintro ⟨⟨huser, -⟩, hparse⟩
    exact ⟨user.id, hparse, Table.find_of_mem huser⟩

theorem success_iff (hcanonical : Canonical answers action requested dir.users) {uid : String} (huid : uid ∈ requested) :
    uid ∈ (batchOf answers action requested ids dir).success ↔ ∃ user, denoted dir.users uid = some user ∧
      (commit answers action (batchOf answers action requested ids dir).changed dir.users).find user.id =
        asked answers action user := by
  rw [mem_success]
  constructor
  · rintro ⟨user, huser, hraises, rfl⟩
    refine ⟨user, (denoted_iff hids huid).mpr ⟨huser, parse_text huser⟩, ?_⟩
    rw [find_changed, Table.find_of_mem (mem_fetched.mp huser).1, Option.bind_some,
      if_pos ⟨(mem_fetched.mp huser).2, hraises⟩]
  · rintro ⟨user, hdenoted, hfind⟩
    obtain ⟨huser, hparse⟩ := (denoted_iff hids huid).mp hdenoted
    cases hraises : raises answers action user with
    | none => exact ⟨user, huser, hraises, (hcanonical uid huid user hdenoted hraises).symm⟩
    | some error =>
        rw [find_changed, Table.find_of_mem (mem_fetched.mp huser).1, Option.bind_some,
          if_neg fun h => by cases hraises.symm.trans h.2] at hfind
        exact absurd hfind.symm (asked_ne_of_raises hraises)

theorem untouched (hcanonical : Canonical answers action requested dir.users) {id : Uuid}
    (hid : (∀ uid ∈ requested, parseUuid uid ≠ some id) ∨
      ∃ entry ∈ (batchOf answers action requested ids dir).failed, parseUuid entry.1 = some id) :
    (commit answers action (batchOf answers action requested ids dir).changed dir.users).find id = dir.users.find id := by
  rw [find_changed]
  cases hfind : dir.users.find id with
  | none => rfl
  | some user =>
      obtain rfl : user.id = id := Table.key_of_find hfind
      refine if_neg fun hchanged => ?_
      rcases hid with hnot | ⟨entry, hentry, hparse⟩
      · obtain ⟨uid, huid, hparse⟩ := (mem_ids hids _).mp hchanged.1
        exact hnot uid huid hparse
      have huser : user ∈ fetched dir ids := mem_fetched.mpr ⟨Table.mem_of_find hfind, hchanged.1⟩
      rcases mem_failed.mp hentry with ⟨hmissing, -⟩ | ⟨other, hother, hraises, htext⟩
      · obtain ⟨huid, hother⟩ := mem_missing.mp hmissing
        have hdenoted := (denoted_iff hids huid).mpr ⟨huser, hparse⟩
        exact hother user huser (hcanonical _ huid user hdenoted hchanged.2).symm
      · rw [← htext, parse_text hother, Option.some.injEq] at hparse
        have heq := Table.eq_of_mem_of_key (mem_fetched.mp hother).1 (mem_fetched.mp huser).1 hparse
        rw [heq, hchanged.2] at hraises
        cases hraises

theorem accounted_iff : Accounted answers action requested
      ⟨(batchOf answers action requested ids dir).success, (batchOf answers action requested ids dir).failed⟩ dir.users
      (commit answers action (batchOf answers action requested ids dir).changed dir.users) ↔
    Canonical answers action requested dir.users := by
  constructor
  · intro h uid huid user hdenoted hraises
    obtain ⟨huser, hparse⟩ := (denoted_iff hids huid).mp hdenoted
    have hfind : (commit answers action (batchOf answers action requested ids dir).changed dir.users).find user.id =
        asked answers action user := by
      rw [find_changed, Table.find_of_mem (mem_fetched.mp huser).1, Option.bind_some,
        if_pos ⟨(mem_fetched.mp huser).2, hraises⟩]
    obtain ⟨other, hother, -, rfl⟩ := mem_success.mp ((h.succeeded uid huid).mpr ⟨user, hdenoted, hfind⟩)
    rw [parse_text hother, Option.some.injEq] at hparse
    rw [hparse]
  · intro hcanonical
    exact ⟨fun uid huid => count_eq_one huid, fun uid huid => success_iff hids hcanonical huid,
      fun id hid => untouched hids hcanonical hid⟩

end Turn

theorem bulkUserAction_ok {caller : Caller} {body : BulkActionRequest} {response : Response} {after : Directory}
    (h : bulkUserAction answers caller body dir = .ok (response, after)) :
    ∃ action ids, Action.parse body.action = some action ∧ parseIds answers body.userIds = .ok ids ∧
      response.results = ⟨(batchOf answers action body.userIds ids dir).success,
        (batchOf answers action body.userIds ids dir).failed⟩ ∧
      after.users = commit answers action (batchOf answers action body.userIds ids dir).changed dir.users := by
  obtain ⟨-, -, h⟩ := Program.ok_of_bind h
  obtain ⟨-, -, h⟩ := Program.ok_of_bind h
  obtain ⟨ids, hids, h⟩ := Program.ok_of_bind h
  dsimp only at h
  split at h
  · cases h
  · rename_i action haction
    split at h
    · cases h
    · cases h
      exact ⟨action, ids, haction, hids, rfl, rfl⟩

end Accounting

/-- The accounting holds of a call that returns exactly where every account that
it can change was asked for by its own text. -/
theorem accounting_iff (answers : Answers) (caller : Caller) (body : BulkActionRequest) (dir after : Directory)
    (response : Response) (h : bulkUserAction answers caller body dir = .ok (response, after)) :
    ∃ action, Action.parse body.action = some action ∧
      (Accounted answers action body.userIds response.results dir.users after.users ↔
        Canonical answers action body.userIds dir.users) := by
  obtain ⟨action, ids, haction, hids, hresults, hafter⟩ := bulkUserAction_ok h
  refine ⟨action, haction, ?_⟩
  rw [hresults, hafter]
  exact accounted_iff hids

section Capitals

def ada : Administration.Account := ⟨1, "ada", "ada@example.org", some "lovelace", .admin, true, 100⟩

theorem ada_id : ([ada].map Administration.Account.id).Nodup := List.nodup_singleton _

theorem ada_username : ([ada].map Administration.Account.username).Nodup := List.nodup_singleton _

theorem ada_email : ([ada].map Administration.Account.email).Nodup := List.nodup_singleton _

def admin : Caller where
  site :=
    { accounts := ⟨⟨[ada], ada_id⟩, ada_username, ada_email⟩
      rolePermissions := defaultRolePermissions
      passwordLogin := true }
  user := ada
  method := .jwt

def willing : Answers := ⟨0, fun uid => uid, fun _ => none, none, fun _ => false⟩

def oneUser : Directory where
  users := ⟨[⟨10, true, none⟩], by decide⟩
  wide := by simp [uuidBound]
  avatars := none

def capitals : BulkActionRequest := ⟨"disable", ["00000000-0000-0000-0000-00000000000A"]⟩

/-- The account is disabled, and its id reported unknown. -/
theorem capitals_misreported : ∃ response after, bulkUserAction willing admin capitals oneUser = .ok (response, after) ∧
    ¬ Accounted willing .disable capitals.userIds response.results oneUser.users after.users := by
  refine ⟨_, _, rfl, fun h => ?_⟩
  have hfailed := h.untouched 10 (.inr ⟨("00000000-0000-0000-0000-00000000000A", "User not found"), by decide, by decide⟩)
  have hactive := congrArg (Option.map User.isActive) hfailed
  revert hactive
  decide

def lowerCase : BulkActionRequest := ⟨"disable", ["00000000-0000-0000-0000-00000000000a"]⟩

theorem lowerCase_accounted : ∃ (response : Response) (after : Directory), ∃ action,
    Action.parse lowerCase.action = some action ∧
    (Accounted willing action lowerCase.userIds response.results oneUser.users after.users ↔
      Canonical willing action lowerCase.userIds oneUser.users) :=
  ⟨_, _, accounting_iff willing admin lowerCase oneUser _ _ rfl⟩

end Capitals

end NukeLab.BulkUsers
