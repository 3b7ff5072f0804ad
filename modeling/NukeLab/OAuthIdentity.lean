import NukeLab.Queries
import NukeLab.Records

namespace NukeLab.OAuthIdentity

open Queries Records Tables

/-- A user-info document: what it has under a claim, which may be null. -/
abbrev Claims := String → Option (Option String)

structure OAuthSettings where
  usernameClaim : String
  emailClaim : String
  nameClaim : String

structure Account where
  id : Uuid
  username : String
  email : String
  firstName : Option String
  lastName : Option String
  oauthProvider : Option String
  oauthId : Option String
  /-- The profile's entries. -/
  profile : Claims

/-- The users table under its unique constraints; an `oauth_id` is under none. -/
structure Accounts where
  table : Table Account.id
  usernames : (table.rows.map Account.username).Nodup
  emails : (table.rows.map Account.email).Nodup

def commit (table : Table Account.id) : Except String Accounts :=
  if h : (table.rows.map Account.username).Nodup ∧ (table.rows.map Account.email).Nodup then .ok ⟨table, h.1, h.2⟩
  else .error "IntegrityError"

def get (doc : Claims) (claim : String) : Option String := (doc claim).join

def getOr (doc : Claims) (claim default : String) : Option String := (doc claim).getD (some default)

/-- What is neither null nor empty. -/
def truthy (value : Option String) : Option String := value.filter fun text => text ≠ ""

structure UserData where
  username : String
  email : Option String
  firstName : Option String
  lastName : Option String
  oauthId : Option String
  extraProfile : Claims

/-- A null email has nothing to split. -/
def usernameOf (settings : OAuthSettings) (doc : Claims) : Except String String :=
  match truthy (get doc settings.usernameClaim) with
  | some username => .ok username
  | none =>
    match truthy (get doc "sub") with
    | some sub => .ok sub
    | none =>
      match getOr doc "email" "" with
      | some email => .ok (String.ofList (email.toList.takeWhile (· ≠ '@')))
      | none => .error "'NoneType' object has no attribute 'split'"

def emailOf (settings : OAuthSettings) (doc : Claims) : Option String :=
  (truthy (get doc settings.emailClaim)).or (getOr doc "email" "")

def namesOf (settings : OAuthSettings) (doc : Claims) : Option String × Option String :=
  let firstName := getOr doc "given_name" ""
  let lastName := getOr doc "family_name" ""
  match truthy (getOr doc settings.nameClaim "") with
  | some fullName =>
    if (truthy firstName).isSome ∨ (truthy lastName).isSome then (firstName, lastName)
    else
      (some (String.ofList (fullName.toList.takeWhile (· ≠ ' '))),
        some (String.ofList ((fullName.toList.dropWhile (· ≠ ' ')).drop 1)))
  | none => (firstName, lastName)

def extraKeys : List String := ["organization", "department", "about", "occupation"]

def extractUserData (settings : OAuthSettings) (doc : Claims) : Except String UserData := do
  let username ← usernameOf settings doc
  let (firstName, lastName) := namesOf settings doc
  return ⟨username, emailOf settings doc, firstName, lastName, get doc "sub",
    fun key => if key ∈ extraKeys then doc key else none⟩

/-- By the subject, where a missing one asks for a missing `oauth_id`, and else by the email. -/
def findUser (accounts : Accounts) (data : UserData) : Except QueryError (Option Account) := do
  let user ← scalarOneOrNone (accounts.table.rows.filter fun a => a.oauthId = data.oauthId)
  if user.isSome then return user
  scalarOneOrNone (accounts.table.rows.filter fun a => some a.email = data.email)

def Account.link (user : Account) (data : UserData) : Account :=
  { user with
    oauthProvider := some "oauth"
    oauthId := data.oauthId
    firstName := (truthy data.firstName).or user.firstName
    lastName := (truthy data.lastName).or user.lastName
    email := (truthy data.email).getD user.email
    profile := fun key => (data.extraProfile key).or (user.profile key) }

theorem Account.id_link (data : UserData) (user : Account) : (user.link data).id = user.id := rfl

inductive Outcome
  | signedIn (userId : Uuid)
  /-- The profile is brought up to date, and no session begins. -/
  | synced (userId : Uuid)
  | refused (error : String)

def createUser (accounts : Accounts) (newId : Uuid) (data : UserData) : Except String Accounts :=
  match data.email with
  | none => .error "IntegrityError"
  | some email =>
    if (accounts.table.find newId).isSome then .error "IntegrityError"
    else
      commit (accounts.table.insert
        ⟨newId, data.username, email, data.firstName, data.lastName, some "oauth", data.oauthId, data.extraProfile⟩)

def reply (isSync : Bool) (userId : Uuid) (accounts : Accounts) : Except String Accounts → Outcome × Accounts
  | .ok committed => (if isSync then .synced userId else .signedIn userId, committed)
  | .error error => (.refused error, accounts)

/-- From the user-info document on, where `none` also stands for an empty one. Whatever is
raised is caught, and the caller sent back to the login. -/
def oauthCallback (settings : OAuthSettings) (isSync : Bool) (userinfo : Option Claims) (newId : Uuid)
    (accounts : Accounts) : Outcome × Accounts :=
  match userinfo with
  | none => (.refused "Failed to get user information", accounts)
  | some doc =>
    match extractUserData settings doc with
    | .error error => (.refused error, accounts)
    | .ok data =>
      match findUser accounts data with
      | .error .multipleResultsFound => (.refused "Multiple rows were found when one or none was required", accounts)
      | .ok (some user) =>
        reply isSync user.id accounts
          (commit (accounts.table.modify user.id (fun a => a.link data) (Account.id_link data)))
      | .ok none => reply isSync newId accounts (createUser accounts newId data)

def subjectOf (doc : Claims) : Option String := truthy (get doc "sub")

def Account.linked (account : Account) : Bool := (truthy account.oauthId).isSome

def Qualifies (settings : OAuthSettings) (accounts : Accounts) (doc : Claims) (account : Account) : Prop :=
  (∃ subject, subjectOf doc = some subject ∧ account.oauthId = some subject) ∨
    (∀ subject, subjectOf doc = some subject → ∀ other ∈ accounts.table.rows, other.oauthId ≠ some subject) ∧
      truthy (emailOf settings doc) = some account.email ∧ account.linked = false

def Kept (committed : Accounts) (account : Account) : Prop :=
  ∃ after ∈ committed.table.rows, after.id = account.id ∧ after.oauthId = account.oauthId ∧ after.email = account.email

/-- No account is signed in as, linked or readdressed that the document does not speak for. -/
def Sound (settings : OAuthSettings) (isSync : Bool) (userinfo : Option Claims) (newId : Uuid) (accounts : Accounts) : Prop :=
  ∀ account ∈ accounts.table.rows, (∃ doc ∈ userinfo, Qualifies settings accounts doc account) ∨
    Kept (oauthCallback settings isSync userinfo newId accounts).2 account ∧
      (oauthCallback settings isSync userinfo newId accounts).1 ≠ .signedIn account.id

/-- The accounts with the very `oauth_id` that the document has for a subject. -/
def holders (accounts : Accounts) (doc : Claims) : List Account :=
  accounts.table.rows.filter fun a => a.oauthId = get doc "sub"

/-- Where no account has the document's subject, one that has its email is not linked; and
where the document names none, a single account without one has its email or cannot get it. -/
def Safe (settings : OAuthSettings) (isSync : Bool) (accounts : Accounts) (doc : Claims) : Prop :=
  (usernameOf settings doc).isOk = false ∨
    (holders accounts doc = [] → ∀ account ∈ accounts.table.rows, emailOf settings doc = some account.email →
      account.email ≠ "" ∧ account.linked = false) ∧
    ((holders accounts doc).length = 1 → subjectOf doc = none →
      (∃ account ∈ accounts.table.rows, truthy (emailOf settings doc) = some account.email) ∨
        isSync = true ∧ truthy (emailOf settings doc) = none)

section Accounts

variable {settings : OAuthSettings} {isSync : Bool} {doc : Claims} {newId : Uuid} {accounts : Accounts} {data : UserData}
  {user : Account}

theorem eq_of_id {a b : Account} (ha : a ∈ accounts.table.rows) (hb : b ∈ accounts.table.rows) (h : a.id = b.id) : a = b :=
  Table.eq_of_mem_of_key ha hb h

theorem eq_of_email {a b : Account} (ha : a ∈ accounts.table.rows) (hb : b ∈ accounts.table.rows) (h : a.email = b.email) :
    a = b :=
  List.inj_on_of_nodup_map accounts.emails ha hb h

theorem truthy_eq_some {value : Option String} {text : String} : truthy value = some text ↔ value = some text ∧ text ≠ "" := by
  simp [truthy, Option.filter_eq_some_iff]

theorem Kept.self (h : user ∈ accounts.table.rows) : Kept accounts user := ⟨user, h, rfl, rfl, rfl⟩

abbrev linked (accounts : Accounts) (user : Account) (data : UserData) : Table Account.id :=
  accounts.table.modify user.id (fun a => a.link data) (Account.id_link data)

theorem mem_linked_self (hu : user ∈ accounts.table.rows) : user.link data ∈ (linked accounts user data).rows :=
  List.mem_map.mpr ⟨user, hu, if_pos rfl⟩

theorem mem_linked_of_ne {a : Account} (ha : a ∈ accounts.table.rows) (hne : a.id ≠ user.id) :
    a ∈ (linked accounts user data).rows :=
  List.mem_map.mpr ⟨a, ha, if_neg hne⟩

theorem eq_link_of_mem {after : Account} (hu : user ∈ accounts.table.rows) (h : after ∈ (linked accounts user data).rows)
    (hid : after.id = user.id) : after = user.link data := by
  obtain ⟨a, ha, rfl⟩ := List.mem_map.mp h
  split at hid
  next hsame => rw [if_pos hsame, eq_of_id ha hu hsame]
  next hne => exact absurd hid hne

theorem email_link (data : UserData) (user : Account) : (user.link data).email = (truthy data.email).getD user.email := rfl

theorem commit_linked (hu : user ∈ accounts.table.rows)
    (hfree : ∀ other ∈ accounts.table.rows, truthy data.email = some other.email → other = user) :
    ∃ committed, commit (linked accounts user data) = .ok committed ∧ committed.table = linked accounts user data := by
  have husernames : ((linked accounts user data).rows.map Account.username).Nodup := by
    have hsame : (linked accounts user data).rows.map Account.username = accounts.table.rows.map Account.username := by
      rw [linked, Table.modify, List.map_map]
      refine List.map_congr_left fun a _ => ?_
      rw [Function.comp_apply]
      split <;> rfl
    exact hsame ▸ accounts.usernames
  have hemails : ((linked accounts user data).rows.map Account.email).Nodup := by
    rw [linked, Table.modify, List.map_map]
    refine List.Nodup.map_on (fun a ha b hb hsame => ?_) accounts.table.nodup.of_map
    rw [Function.comp_apply, Function.comp_apply] at hsame
    have htaken {c : Account} (hc : c ∈ accounts.table.rows) (h : (truthy data.email).getD user.email = c.email) :
        c = user := by
      cases hemail : truthy data.email with
      | none =>
          rw [hemail, Option.getD_none] at h
          exact eq_of_email hc hu h.symm
      | some email =>
          rw [hemail, Option.getD_some] at h
          exact hfree c hc (h ▸ hemail)
    split at hsame
    next hida =>
      obtain rfl := eq_of_id ha hu hida
      split at hsame
      next hidb => exact (eq_of_id hb hu hidb).symm
      next => exact (htaken hb hsame).symm
    next hida =>
      split at hsame
      next hidb =>
        obtain rfl := eq_of_id hb hu hidb
        exact htaken ha hsame.symm
      next => exact eq_of_email ha hb hsame
  exact ⟨⟨linked accounts user data, husernames, hemails⟩, dif_pos ⟨husernames, hemails⟩, rfl⟩

theorem commit_linked_taken {other : Account} (hu : user ∈ accounts.table.rows) (hother : other ∈ accounts.table.rows)
    (hne : other ≠ user) (htaken : truthy data.email = some other.email) :
    commit (linked accounts user data) = .error "IntegrityError" := by
  refine dif_neg fun h => hne ?_
  have hid : other.id ≠ user.id := fun hid => hne (eq_of_id hother hu hid)
  have hsame := List.inj_on_of_nodup_map h.2 (mem_linked_of_ne hother hid) (mem_linked_self hu)
    (by rw [email_link, htaken, Option.getD_some])
  exact absurd (congrArg Account.id hsame) hid

theorem sound_of_refused {userinfo : Option Claims} {error : String}
    (h : oauthCallback settings isSync userinfo newId accounts = (.refused error, accounts)) :
    Sound settings isSync userinfo newId accounts := by
  intro account haccount
  rw [h]
  exact .inr ⟨Kept.self haccount, Outcome.noConfusion⟩

theorem sound_linked_iff {committed : Accounts} (hu : user ∈ accounts.table.rows)
    (htable : committed.table = linked accounts user data)
    (h : oauthCallback settings isSync (some doc) newId accounts = (if isSync then .synced user.id else .signedIn user.id, committed)) :
    Sound settings isSync (some doc) newId accounts ↔
      Qualifies settings accounts doc user ∨
        isSync = true ∧ (user.link data).oauthId = user.oauthId ∧ (user.link data).email = user.email := by
  unfold Sound
  rw [h]
  constructor
  · intro hsound
    refine (hsound user hu).imp (fun ⟨_, hdoc, hq⟩ => Option.some.inj hdoc ▸ hq) fun ⟨hkept, hout⟩ => ?_
    obtain ⟨after, hafter, hid, hoauth, hemail⟩ := hkept
    rw [htable] at hafter
    obtain rfl := eq_link_of_mem hu hafter hid
    cases isSync with
    | true => exact ⟨rfl, hoauth, hemail⟩
    | false => exact absurd rfl hout
  · intro hcase account haccount
    by_cases hid : account.id = user.id
    · obtain rfl := eq_of_id haccount hu hid
      refine hcase.imp (fun hq => ⟨doc, rfl, hq⟩) fun ⟨hsync, hoauth, hemail⟩ => ?_
      subst hsync
      exact ⟨⟨account.link data, htable ▸ mem_linked_self hu, rfl, hoauth, hemail⟩, Outcome.noConfusion⟩
    · refine .inr ⟨⟨account, htable ▸ mem_linked_of_ne haccount hid, rfl, rfl, rfl⟩, ?_⟩
      cases isSync with
      | true => exact Outcome.noConfusion
      | false => exact fun hout => hid (Outcome.signedIn.inj hout).symm

theorem extractUserData_of_error {error : String} (h : usernameOf settings doc = .error error) :
    extractUserData settings doc = .error error := by
  rw [extractUserData, h]
  rfl

theorem extractUserData_of_ok {username : String} (h : usernameOf settings doc = .ok username) :
    ∃ data, extractUserData settings doc = .ok data ∧ data.email = emailOf settings doc ∧ data.oauthId = get doc "sub" := by
  rw [extractUserData, h]
  exact ⟨_, rfl, rfl, rfl⟩

theorem filter_email (accounts : Accounts) (email : Option String) :
    (accounts.table.rows.filter fun a => some a.email = email) = [] ∨
      ∃ user ∈ accounts.table.rows, some user.email = email ∧
        (accounts.table.rows.filter fun a => some a.email = email) = [user] := by
  have hnodup : (accounts.table.rows.filter fun a => some a.email = email).Nodup := accounts.table.nodup.of_map.filter _
  rcases hrows : accounts.table.rows.filter fun a => some a.email = email with _ | ⟨a, _ | ⟨b, rest⟩⟩
  · exact .inl hrows
  · have hmem := List.mem_filter.mp (hrows ▸ List.mem_singleton_self a)
    exact .inr ⟨a, hmem.1, of_decide_eq_true hmem.2, hrows⟩
  · have ha := List.mem_filter.mp (hrows ▸ List.mem_cons_self)
    have hb := List.mem_filter.mp (hrows ▸ List.mem_cons_of_mem a List.mem_cons_self)
    have hsame : a = b := eq_of_email ha.1 hb.1
      (Option.some.inj ((of_decide_eq_true ha.2).trans (of_decide_eq_true hb.2).symm))
    rw [hrows, hsame] at hnodup
    exact absurd List.mem_cons_self (List.nodup_cons.mp hnodup).1

theorem holders_of_carried {subject : String} (hsubject : subjectOf doc = some subject) {account : Account}
    (haccount : account ∈ accounts.table.rows) (hcarries : account.oauthId = some subject) :
    account ∈ holders accounts doc := by
  rw [subjectOf, truthy_eq_some] at hsubject
  exact List.mem_filter.mpr ⟨haccount, decide_eq_true (hcarries.trans hsubject.1.symm)⟩

theorem sound_of_holder {username : String} (hname : usernameOf settings doc = .ok username)
    (hholder : holders accounts doc = [user]) :
    Sound settings isSync (some doc) newId accounts ↔
      (subjectOf doc = none →
        (∃ account ∈ accounts.table.rows, truthy (emailOf settings doc) = some account.email) ∨
          isSync = true ∧ truthy (emailOf settings doc) = none) := by
  obtain ⟨data, hextract, hemail, hoauth⟩ := extractUserData_of_ok hname
  obtain ⟨hu, hsame⟩ := List.mem_filter.mp (hholder ▸ List.mem_singleton_self user)
  rw [decide_eq_true_eq] at hsame
  have hfind : findUser accounts data = .ok (some user) := by
    have hfilter : (accounts.table.rows.filter fun a => a.oauthId = data.oauthId) = [user] := hoauth ▸ hholder
    rw [findUser, hfilter]
    rfl
  have hcallback : oauthCallback settings isSync (some doc) newId accounts =
      reply isSync user.id accounts (commit (linked accounts user data)) := by
    simp only [oauthCallback, hextract, hfind]
  have hlink : (user.link data).oauthId = user.oauthId := hoauth.trans hsame.symm
  by_cases htaken : ∃ other ∈ accounts.table.rows, truthy data.email = some other.email ∧ other ≠ user
  · obtain ⟨other, hother, htaken, hne⟩ := htaken
    rw [commit_linked_taken hu hother hne htaken] at hcallback
    exact iff_of_true (sound_of_refused hcallback) fun _ => .inl ⟨other, hother, hemail ▸ htaken⟩
  · obtain ⟨committed, hcommit, htable⟩ := commit_linked hu fun other hother htruthy =>
      not_not.mp fun hne => htaken ⟨other, hother, htruthy, hne⟩
    rw [hcommit] at hcallback
    rw [sound_linked_iff hu htable hcallback]
    cases hsubject : subjectOf doc with
    | some subject =>
        refine iff_of_true (.inl (.inl ⟨subject, hsubject, ?_⟩)) fun h => by cases h
        rw [subjectOf, truthy_eq_some] at hsubject
        exact hsame.trans hsubject.1
    | none =>
        have hunlinked : user.linked = false := by rw [Account.linked, hsame, ← subjectOf, hsubject]; rfl
        have hqualifies : Qualifies settings accounts doc user ↔ truthy (emailOf settings doc) = some user.email := by
          unfold Qualifies
          simp [hsubject, hunlinked]
        rw [hqualifies, email_link, hemail]
        simp only [hlink, true_and, forall_true_left]
        constructor
        · rintro (hmine | ⟨hsync, hkept⟩)
          · exact .inl ⟨user, hu, hmine⟩
          · cases htruthy : truthy (emailOf settings doc) with
            | none => exact .inr ⟨hsync, rfl⟩
            | some email => exact .inl ⟨user, hu, by rw [htruthy, Option.getD_some] at hkept; rw [hkept]⟩
        · rintro (⟨other, hother, hmine⟩ | ⟨hsync, hnone⟩)
          · left
            have hsame : other = user := not_not.mp fun hne => htaken ⟨other, hother, hemail ▸ hmine, hne⟩
            exact hsame ▸ hmine
          · exact .inr ⟨hsync, by rw [hnone]; rfl⟩

theorem sound_of_email {username : String} (hname : usernameOf settings doc = .ok username)
    (hnone : holders accounts doc = []) (hu : user ∈ accounts.table.rows) (hmine : emailOf settings doc = some user.email) :
    Sound settings isSync (some doc) newId accounts ↔ user.email ≠ "" ∧ user.linked = false := by
  obtain ⟨data, hextract, hemail, hoauth⟩ := extractUserData_of_ok hname
  have hfind : findUser accounts data = .ok (some user) := by
    have hfilter : (accounts.table.rows.filter fun a => a.oauthId = data.oauthId) = [] := hoauth ▸ hnone
    have hemails : (accounts.table.rows.filter fun a => some a.email = data.email) = [user] := by
      rcases filter_email accounts data.email with hempty | ⟨other, hother, hsame, hemails⟩
      · have hmem : user ∈ accounts.table.rows.filter fun a => some a.email = data.email :=
          List.mem_filter.mpr ⟨hu, decide_eq_true (hmine.symm.trans hemail.symm)⟩
        rw [hempty] at hmem
        exact absurd hmem List.not_mem_nil
      · rw [hemail, hmine] at hsame
        rw [hemails, eq_of_email hother hu (Option.some.inj hsame)]
    rw [findUser, hfilter, hemails]
    rfl
  have hcallback : oauthCallback settings isSync (some doc) newId accounts =
      reply isSync user.id accounts (commit (linked accounts user data)) := by
    simp only [oauthCallback, hextract, hfind]
  have hfree : ∀ other ∈ accounts.table.rows, truthy data.email = some other.email → other = user := by
    intro other hother htruthy
    rw [hemail, truthy_eq_some, hmine] at htruthy
    exact eq_of_email hother hu (Option.some.inj htruthy.1).symm
  obtain ⟨committed, hcommit, htable⟩ := commit_linked hu hfree
  rw [hcommit] at hcallback
  have hother : user.oauthId ≠ get doc "sub" := by
    intro hsame
    have hmem : user ∈ holders accounts doc := List.mem_filter.mpr ⟨hu, decide_eq_true hsame⟩
    rw [hnone] at hmem
    exact List.not_mem_nil hmem
  have hfree : ∀ subject, subjectOf doc = some subject → ∀ other ∈ accounts.table.rows, other.oauthId ≠ some subject := by
    intro subject hsubject other hother hcarries
    have hmem := holders_of_carried hsubject hother hcarries
    rw [hnone] at hmem
    exact List.not_mem_nil hmem
  have hqualifies : Qualifies settings accounts doc user ↔ user.email ≠ "" ∧ user.linked = false := by
    unfold Qualifies
    rw [hmine, truthy_eq_some]
    constructor
    · rintro (⟨subject, hsubject, hcarries⟩ | ⟨_, hemail, hunlinked⟩)
      · exact absurd hcarries (hfree subject hsubject user hu)
      · exact ⟨hemail.2, hunlinked⟩
    · exact fun h => .inr ⟨hfree, ⟨rfl, h.1⟩, h.2⟩
  rw [sound_linked_iff hu htable hcallback, hqualifies, or_iff_left]
  rintro ⟨_, hlink, _⟩
  exact hother (hlink.symm.trans hoauth)

theorem sound_of_new {username : String} (hname : usernameOf settings doc = .ok username)
    (hnone : holders accounts doc = []) (hnew : ∀ account ∈ accounts.table.rows, emailOf settings doc ≠ some account.email) :
    Sound settings isSync (some doc) newId accounts := by
  obtain ⟨data, hextract, hemail, hoauth⟩ := extractUserData_of_ok hname
  have hfind : findUser accounts data = .ok none := by
    have hfilter : (accounts.table.rows.filter fun a => a.oauthId = data.oauthId) = [] := hoauth ▸ hnone
    have hemails : (accounts.table.rows.filter fun a => some a.email = data.email) = [] := by
      rw [List.filter_eq_nil_iff]
      intro a ha hsame
      exact hnew a ha (hemail.symm.trans (of_decide_eq_true hsame).symm)
    rw [findUser, hfilter, hemails]
    rfl
  have hcallback : oauthCallback settings isSync (some doc) newId accounts =
      reply isSync newId accounts (createUser accounts newId data) := by
    simp only [oauthCallback, hextract, hfind]
  cases hcreate : createUser accounts newId data with
  | error error =>
      rw [hcreate] at hcallback
      exact sound_of_refused hcallback
  | ok committed =>
      rw [hcreate] at hcallback
      unfold createUser at hcreate
      split at hcreate
      next => cases hcreate
      next email _ =>
        split at hcreate
        next => cases hcreate
        next hid =>
          unfold commit at hcreate
          split at hcreate
          next =>
            cases hcreate
            intro account haccount
            rw [hcallback]
            refine .inr ⟨⟨account, Table.mem_insert_of_mem haccount, rfl, rfl, rfl⟩, ?_⟩
            cases isSync with
            | true => exact Outcome.noConfusion
            | false =>
                intro hout
                rw [Outcome.signedIn.inj hout, Table.find_of_mem haccount] at hid
                exact hid rfl
          next => cases hcreate

end Accounts

/-- The callback signs in, links and readdresses only accounts that the document
speaks for, exactly where what it finds by a missing subject or by an email is one. -/
theorem sound_iff (settings : OAuthSettings) (isSync : Bool) (userinfo : Option Claims) (newId : Uuid) (accounts : Accounts) :
    Sound settings isSync userinfo newId accounts ↔ ∀ doc ∈ userinfo, Safe settings isSync accounts doc := by
  cases userinfo with
  | none => exact iff_of_true (sound_of_refused rfl) fun _ h => by cases h
  | some doc =>
      simp only [Option.mem_def, Option.some.injEq, forall_eq']
      unfold Safe
      cases hname : usernameOf settings doc with
      | error error =>
          have hrefused : oauthCallback settings isSync (some doc) newId accounts = (.refused error, accounts) := by
            simp only [oauthCallback, extractUserData_of_error hname]
          exact iff_of_true (sound_of_refused hrefused) (.inl rfl)
      | ok username =>
          simp only [Except.isOk, Except.toBool, Bool.true_eq_false, false_or]
          rcases hholders : holders accounts doc with _ | ⟨user, _ | ⟨other, rest⟩⟩
          · simp only [List.length_nil, zero_ne_one, false_implies, and_true, forall_true_left]
            by_cases hfound : ∃ user ∈ accounts.table.rows, emailOf settings doc = some user.email
            · obtain ⟨user, hu, hmine⟩ := hfound
              rw [sound_of_email hname hholders hu hmine]
              constructor
              · intro h account haccount hsame
                rwa [eq_of_email haccount hu (Option.some.inj (hsame.symm.trans hmine))]
              · exact fun h => h user hu hmine
            · refine iff_of_true (sound_of_new hname hholders fun account ha h => hfound ⟨account, ha, h⟩) ?_
              exact fun account ha h => absurd ⟨account, ha, h⟩ hfound
          · rw [sound_of_holder hname hholders]
            simp
          · -- a subject that several accounts share is an error
            refine iff_of_true ?_ (by simp)
            obtain ⟨data, hextract, _, hoauth⟩ := extractUserData_of_ok hname
            have hfind : findUser accounts data = .error .multipleResultsFound := by
              have hfilter : (accounts.table.rows.filter fun x => x.oauthId = data.oauthId) = user :: other :: rest :=
                hoauth ▸ hholders
              rw [findUser, hfilter]
              rfl
            have hrefused : oauthCallback settings isSync (some doc) newId accounts =
                (.refused "Multiple rows were found when one or none was required", accounts) := by
              simp only [oauthCallback, hextract, hfind]
            exact sound_of_refused hrefused

section Local

def ada : Account := ⟨1, "ada", "ada@example.org", none, none, none, none, fun _ => none⟩

def house : Accounts := ⟨⟨[ada], by decide⟩, by decide, by decide⟩

def anonymous : Claims := fun claim => if claim = "email" then some (some "eve@example.org") else none

theorem signed_in_as_ada :
    ¬ ∀ (settings : OAuthSettings) (isSync : Bool) (userinfo : Option Claims) (newId : Uuid) (accounts : Accounts),
      Sound settings isSync userinfo newId accounts := by
  intro h
  rcases h ⟨"preferred_username", "email", "name"⟩ false (some anonymous) 2 house ada List.mem_cons_self with hq | hkept
  · obtain ⟨doc, hdoc, hq⟩ := hq
    obtain rfl := Option.some.inj hdoc
    rcases hq with ⟨subject, hsubject, hcarries⟩ | ⟨_, hemail, _⟩
    · cases hcarries
    · exact absurd hemail (by decide)
  · exact hkept.2 rfl

end Local

end NukeLab.OAuthIdentity
