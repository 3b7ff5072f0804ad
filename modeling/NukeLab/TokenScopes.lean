import NukeLab.EntryPoints
import NukeLab.Machine
import NukeLab.Routes

namespace NukeLab.TokenScopes

open Program Machine Records Roles State Tables Sessions Routes
open Administration (Account Site AuthMethod hasPermission requireJwtAuth)
open EntryPoints hiding Request getAuthContext
open SessionRevocation (house defaultSettings)

/-- In the order in which they are named where one is refused. -/
def validTokenScopes : List Scope :=
  [⟨"analytics", "read"⟩, ⟨"credits", "read"⟩, ⟨"dashboard", "read"⟩, ⟨"environments", "read"⟩,
    ⟨"metrics", "read"⟩, ⟨"notifications", "read"⟩, ⟨"notifications", "write"⟩, ⟨"plans", "read"⟩,
    ⟨"preferences", "read"⟩, ⟨"preferences", "write"⟩, ⟨"quotas", "read"⟩, ⟨"schedules", "read"⟩,
    ⟨"schedules", "write"⟩, ⟨"servers", "delete"⟩, ⟨"servers", "manage"⟩, ⟨"servers", "read"⟩,
    ⟨"servers", "start"⟩, ⟨"servers", "stop"⟩, ⟨"user", "read"⟩, ⟨"user", "update"⟩, ⟨"volumes", "manage"⟩,
    ⟨"volumes", "read"⟩, ⟨"workspaces", "manage"⟩, ⟨"workspaces", "read"⟩]

def validateScope (scopes : List Scope) : Except String (List Scope) :=
  match scopes.find? fun scope => scope ∉ validTokenScopes with
  | some scope =>
    .error ("Invalid scope: " ++ scope.text ++ ". Valid scopes: " ++ ", ".intercalate (validTokenScopes.map Scope.text))
  | none => .ok scopes

structure TokenRow where
  id : Uuid
  token : ApiToken
  scopes : List Scope
  usageCount : Nat
  lastUsedAt : Option Instant

structure AuthContext where
  user : Account
  authMethod : AuthMethod
  tokenScopes : List Scope

/-- The accounts and sessions, the token table, and the resources that the
endpoints are about. -/
structure Store (σ : Type) where
  realm : Realm
  tokens : Table TokenRow.id
  data : σ

def Store.db {σ : Type} (s : Store σ) : Database := ⟨s.realm, s.tokens.rows.map TokenRow.token⟩

structure Request (π : Type) where
  route : Route
  listed : route ∈ routes
  token : String
  payload : π

def Covers (scopes : List Scope) (scope : Scope) : Prop := scope ∈ scopes ∨ ⟨scope.resource, "*"⟩ ∈ scopes

instance (scopes : List Scope) (scope : Scope) : Decidable (Covers scopes scope) :=
  inferInstanceAs (Decidable (_ ∨ _))

def requireScopes (required : List Scope) (context : AuthContext) : Except Raise Unit :=
  if context.authMethod = .jwt then .ok ()
  else
    match required.find? fun scope => ¬ Covers context.tokenScopes scope with
    | some scope => .error (.http 403 ("Insufficient scope. Required: " ++ scope.text))
    | none => .ok ()

/-- Any of the permissions will do. -/
def requirePermissions (site : Site) (user : Account) (permissions : List Permission) : Except Raise Unit :=
  if permissions.any (hasPermission site user) then .ok ()
  else .error (.http 403 ("Insufficient permissions. Required: " ++ ", ".intercalate (permissions.map Permission.text)))

def check (site : Site) (context : AuthContext) : Dependency → Except Raise Unit
  | .currentUser => .ok ()
  | .permissions any => requirePermissions site context.user any
  | .jwtAuth => requireJwtAuth context.authMethod
  | .scopes required => requireScopes required context

section Serving

variable {σ π ρ : Type} (settings : AuthSettings) (lib : Libraries)

def findToken (s : Store σ) (token : String) : Option TokenRow :=
  s.tokens.rows.find? fun row =>
    row.token.isActive ∧ row.token.revokedAt = none ∧ row.token.tokenPrefix = some (tokenPrefix token) ∧
      lib.verifyPassword token row.token.tokenHash

def touch (id : Uuid) (s : Store σ) : Store σ :=
  { s with
    tokens := s.tokens.modify id
      (fun row => { row with usageCount := row.usageCount + 1, lastUsedAt := some s.realm.now }) fun _ => rfl }

def getAuthContext (token : String) : EStateM Raise (Store σ) AuthContext := do
  let s ← get
  match jwtUser settings lib s.db token with
  | some user => return ⟨user, .jwt, []⟩
  | none =>
    match findToken lib s token with
    | none => throw credentialsException
    | some row =>
      if isExpired s.db row.token then throw credentialsException
      else
        set (touch row.id s)
        match activeOwner s.db row.token with
        | none => throw credentialsException
        | some user => return ⟨user, .apiToken, row.scopes⟩

/-- What the handlers do: they are given the user, and not how the user signed in. -/
abbrev Handlers (σ π ρ : Type) := Route → Account → π → Realm → σ → ρ × Realm × σ

variable (handlers : Handlers σ π ρ)

/-- One request: whom it is from, what its route depends on, then its handler. -/
def serve (r : Request π) : EStateM Raise (Store σ) ρ := do
  let context ← getAuthContext settings lib r.token
  let s ← get
  match r.route.dependencies.forM (check s.realm.site context) with
  | .error raise => throw raise
  | .ok () =>
    let (answer, realm, data) := handlers r.route context.user r.payload s.realm s.data
    set { s with realm := realm, data := data }
    return answer

/-- The row and the account that a credential stands for as an API token. -/
def authenticated (s : Store σ) (token : String) : Option (TokenRow × Account) :=
  if (jwtUser settings lib s.db token).isSome then none
  else
    (findToken lib s token).bind fun row =>
      if isExpired s.db row.token then none else (activeOwner s.db row.token).map fun user => (row, user)

/-- What the caller and the resources see of a request: all but the usage of tokens. -/
def outcome (s : Store σ) (r : Request π) : Except Raise ρ × Realm × σ :=
  match (serve settings lib handlers r).run s with
  | .ok answer t => (.ok answer, t.realm, t.data)
  | .error raise t => (.error raise, t.realm, t.data)

/-- The request is answered by its handler, or changes something. -/
def Effective (s : Store σ) (r : Request π) : Prop :=
  (∃ answer, (outcome settings lib handlers s r).1 = .ok answer) ∨
    (outcome settings lib handlers s r).2.1 ≠ s.realm ∨ (outcome settings lib handlers s r).2.2 ≠ s.data

inductive Event (σ π : Type)
  | request (r : Request π)
  | other (change : Store σ → Store σ)

/-- Requests, and whatever else becomes of the accounts, the tokens and the
resources. The endpoints that manage tokens take none, and come under the latter. -/
def step : Step (Store σ) (Event σ π)
  | s, .request r => some (final (serve settings lib handlers r) s)
  | s, .other change => some (change s)

variable (required : Route → Scope)

/-- A request made with an API token has an effect only where its scopes cover
what the endpoint requires. -/
def Confined (s : Store σ) : Event σ π → Prop
  | .request r => ∀ row user, authenticated settings lib s r.token = some (row, user) →
      Effective settings lib handlers s r → Covers row.scopes (required r.route)
  | .other _ => True

/-- The scopes cover what the endpoint requires, or the endpoint takes no API
tokens, or it asks for a permission that the account does not have. -/
def Entitled (s : Store σ) : Event σ π → Prop
  | .request r => ∀ row user, authenticated settings lib s r.token = some (row, user) →
      Covers row.scopes (required r.route) ∨ .jwtAuth ∈ r.route.dependencies ∨
        ∃ ps, .permissions ps ∈ r.route.dependencies ∧ ps.any (hasPermission s.realm.site user) = false
  | .other _ => True

def rescoped (s : Store σ) (id : Uuid) (scopes : List Scope) : Store σ :=
  { s with tokens := s.tokens.modify id (fun row => { row with scopes := scopes }) fun _ => rfl }

end Serving

section Dependencies

variable {site : Site} {user : Account}

theorem forM_ok_iff {ε α : Type} {f : α → Except ε Unit} {as : List α} : as.forM f = .ok () ↔ ∀ a ∈ as, f a = .ok () := by
  induction as with
  | nil => exact iff_of_true rfl fun a ha => absurd ha List.not_mem_nil
  | cons a as ih =>
      rw [List.forM, List.forall_mem_cons, ← ih]
      cases f a with
      | error e => exact iff_of_false nofun fun h => nomatch h.1
      | ok u => exact ⟨fun h => ⟨rfl, h⟩, fun h => h.2⟩

theorem covers_of_validateScope {scopes accepted : List Scope} (h : validateScope scopes = .ok accepted) (scope : Scope) :
    Covers accepted scope ↔ scope ∈ accepted := by
  unfold validateScope at h
  split at h
  · exact absurd h nofun
  · rename_i hvalid
    cases h
    refine or_iff_left fun hwild => ?_
    have hmem : (⟨scope.resource, "*"⟩ : Scope) ∈ validTokenScopes := by
      simpa using List.find?_eq_none.mp hvalid _ hwild
    have hplain : ∀ valid ∈ validTokenScopes, valid.action ≠ "*" := by decide +kernel
    exact hplain _ hmem rfl

/-- Where an endpoint asks for a scope, a token without it is refused. -/
theorem requireScopes_iff {required : List Scope} {scopes : List Scope} :
    requireScopes required ⟨user, .apiToken, scopes⟩ = .ok () ↔ ∀ scope ∈ required, Covers scopes scope := by
  rw [requireScopes, if_neg nofun]
  split
  · rename_i scope hfind
    have hmem := List.mem_of_find?_eq_some hfind
    have hlacks := List.find?_some hfind
    exact iff_of_false nofun fun h => absurd (h scope hmem) (of_decide_eq_true hlacks)
  · rename_i hnone
    refine iff_of_true rfl fun scope hmem => ?_
    simpa using List.find?_eq_none.mp hnone scope hmem

theorem check_iff {d : Dependency} (hd : d.isScopes = false) (scopes : List Scope) :
    check site ⟨user, .apiToken, scopes⟩ d = .ok () ↔
      d ≠ .jwtAuth ∧ ∀ ps, d = .permissions ps → ps.any (hasPermission site user) = true := by
  cases d with
  | currentUser => exact iff_of_true rfl ⟨nofun, nofun⟩
  | permissions any =>
      simp only [check, requirePermissions]
      split
      · rename_i hany
        exact iff_of_true rfl ⟨nofun, fun ps hps => Dependency.permissions.inj hps ▸ hany⟩
      · rename_i hany
        exact iff_of_false nofun fun h => hany (h.2 any rfl)
  | jwtAuth => exact iff_of_false nofun fun h => h.1 rfl
  | scopes required => exact absurd hd nofun

theorem checks_congr {method : AuthMethod} {route : Route} (hroute : route ∈ routes) (scopes scopes' : List Scope) :
    route.dependencies.forM (check site ⟨user, method, scopes⟩) =
      route.dependencies.forM (check site ⟨user, method, scopes'⟩) := by
  have hsame : ∀ d ∈ route.dependencies, check site ⟨user, method, scopes⟩ d = check site ⟨user, method, scopes'⟩ d := by
    intro d hd
    have hplain := no_scopes hroute hd
    cases d with
    | scopes required => exact absurd hplain nofun
    | currentUser | permissions any | jwtAuth => rfl
  generalize route.dependencies = ds at hsame
  induction ds with
  | nil => rfl
  | cons d ds ih =>
      rw [List.forall_mem_cons] at hsame
      rw [List.forM, List.forM, hsame.1, ih hsame.2]

end Dependencies

section Requests

variable {σ π ρ : Type} {settings : AuthSettings} {lib : Libraries} {handlers : Handlers σ π ρ} {s : Store σ}
  {r : Request π}

def respond (handlers : Handlers σ π ρ) (s : Store σ) (r : Request π) (context : AuthContext) :
    Except Raise ρ × Realm × σ :=
  match r.route.dependencies.forM (check s.realm.site context) with
  | .error raise => (.error raise, s.realm, s.data)
  | .ok () =>
    let (answer, realm, data) := handlers r.route context.user r.payload s.realm s.data
    (.ok answer, realm, data)

theorem outcome_eq (settings : AuthSettings) (lib : Libraries) (handlers : Handlers σ π ρ) (s : Store σ) (r : Request π) :
    outcome settings lib handlers s r =
      match jwtUser settings lib s.db r.token with
      | some user => respond handlers s r ⟨user, .jwt, []⟩
      | none =>
        match findToken lib s r.token with
        | none => (.error credentialsException, s.realm, s.data)
        | some row =>
          if isExpired s.db row.token then (.error credentialsException, s.realm, s.data)
          else
            match activeOwner s.db row.token with
            | none => (.error credentialsException, s.realm, s.data)
            | some user => respond handlers s r ⟨user, .apiToken, row.scopes⟩ := by
  rw [outcome, serve, getAuthContext]
  simp only [EStateM.run_bind, EStateM.run_get]
  cases jwtUser settings lib s.db r.token with
  | some user =>
      simp only [EStateM.run_pure, respond]
      cases r.route.dependencies.forM (check s.realm.site ⟨user, .jwt, []⟩) <;> rfl
  | none =>
      cases findToken lib s r.token with
      | none => rfl
      | some row =>
          dsimp only
          by_cases hexpired : isExpired s.db row.token
          · rw [if_pos hexpired, if_pos hexpired]
            rfl
          rw [if_neg hexpired, if_neg hexpired]
          cases activeOwner s.db row.token with
          | none => rfl
          | some user =>
              simp only [EStateM.run_bind, EStateM.run_set, EStateM.run_pure, respond, touch]
              cases r.route.dependencies.forM (check s.realm.site ⟨user, .apiToken, row.scopes⟩) <;> rfl

theorem outcome_of_authenticated {row : TokenRow} {user : Account}
    (h : authenticated settings lib s r.token = some (row, user)) :
    outcome settings lib handlers s r = respond handlers s r ⟨user, .apiToken, row.scopes⟩ := by
  obtain ⟨hjwt, h⟩ := Option.ite_none_left_eq_some.mp h
  obtain ⟨row', hrow, h⟩ := Option.bind_eq_some_iff.mp h
  obtain ⟨hfresh, h⟩ := Option.ite_none_left_eq_some.mp h
  obtain ⟨user', huser, h⟩ := Option.map_eq_some_iff.mp h
  obtain ⟨rfl, rfl⟩ := Prod.mk.inj h
  have hnone := Option.not_isSome_iff_eq_none.mp hjwt
  rw [outcome_eq, hnone, hrow]
  dsimp only
  rw [if_neg hfresh, huser]

/-- A request has an effect where the dependencies of its route let it through, and nowhere else. -/
theorem effective_iff {row : TokenRow} {user : Account}
    (h : authenticated settings lib s r.token = some (row, user)) :
    Effective settings lib handlers s r ↔
      ∀ d ∈ r.route.dependencies, check s.realm.site ⟨user, .apiToken, row.scopes⟩ d = .ok () := by
  rw [← forM_ok_iff, Effective, outcome_of_authenticated h, respond]
  cases r.route.dependencies.forM (check s.realm.site ⟨user, .apiToken, row.scopes⟩) with
  | error raise =>
      refine iff_of_false ?_ nofun
      rintro (⟨answer, h⟩ | h | h)
      · exact absurd h nofun
      · exact h rfl
      · exact h rfl
  | ok u => exact iff_of_true (.inl ⟨_, rfl⟩) rfl

/-- What lets a request through is its route's dependencies, none of them a scope. -/
theorem let_through_iff {user : Account} (site : Site) (scopes : List Scope) :
    (∀ d ∈ r.route.dependencies, check site ⟨user, .apiToken, scopes⟩ d = .ok ()) ↔
      .jwtAuth ∉ r.route.dependencies ∧
        ∀ ps, .permissions ps ∈ r.route.dependencies → ps.any (hasPermission site user) = true := by
  constructor
  · intro h
    refine ⟨fun hjwt => ?_, fun ps hps => ?_⟩
    · exact ((check_iff rfl scopes).mp (h _ hjwt)).1 rfl
    · exact ((check_iff rfl scopes).mp (h _ hps)).2 ps rfl
  · rintro ⟨hjwt, hpermissions⟩ d hd
    refine (check_iff (no_scopes r.listed hd) scopes).mpr ⟨fun h => hjwt (h ▸ hd), fun ps hps => ?_⟩
    exact hpermissions ps (hps ▸ hd)

theorem confined_iff (required : Route → Scope) (event : Event σ π) :
    Confined settings lib handlers required s event ↔ Entitled settings lib required s event := by
  cases event with
  | other change => exact Iff.rfl
  | request r =>
      refine forall_congr' fun row => forall_congr' fun user => forall_congr' fun hauth => ?_
      rw [effective_iff hauth, let_through_iff]
      constructor
      · intro h
        by_cases hjwt : .jwtAuth ∈ r.route.dependencies
        · exact .inr (.inl hjwt)
        by_cases hall : ∀ ps, .permissions ps ∈ r.route.dependencies →
            ps.any (hasPermission s.realm.site user) = true
        · exact .inl (h ⟨hjwt, hall⟩)
        · push Not at hall
          obtain ⟨ps, hps, hlacks⟩ := hall
          exact .inr (.inr ⟨ps, hps, Bool.eq_false_iff.mpr hlacks⟩)
      · rintro (hcovers | hjwt | ⟨ps, hps, hlacks⟩) ⟨hnojwt, hall⟩
        · exact hcovers
        · exact absurd hjwt hnojwt
        · exact absurd (hall ps hps) (Bool.eq_false_iff.mp hlacks)

theorem db_rescoped (s : Store σ) (id : Uuid) (scopes : List Scope) : (rescoped s id scopes).db = s.db := by
  have htoken : ∀ row : TokenRow, (if row.id = id then { row with scopes := scopes } else row).token = row.token := by
    intro row
    split <;> rfl
  simp only [Store.db, rescoped, Table.modify, List.map_map, Function.comp_def, htoken]

theorem findToken_rescoped (s : Store σ) (id : Uuid) (scopes : List Scope) (token : String) :
    findToken lib (rescoped s id scopes) token =
      (findToken lib s token).map fun row => if row.id = id then { row with scopes := scopes } else row := by
  have htoken : ∀ row : TokenRow, (if row.id = id then { row with scopes := scopes } else row).token = row.token := by
    intro row
    split <;> rfl
  simp only [findToken, rescoped, Table.modify, List.find?_map, Function.comp_def, htoken]

theorem outcome_rescoped (s : Store σ) (r : Request π) (id : Uuid) (scopes : List Scope) :
    outcome settings lib handlers (rescoped s id scopes) r = outcome settings lib handlers s r := by
  have hrespond (user : Account) (method : AuthMethod) (a b : List Scope) :
      respond handlers (rescoped s id scopes) r ⟨user, method, a⟩ = respond handlers s r ⟨user, method, b⟩ := by
    rw [respond, respond, checks_congr r.listed a b]
    rfl
  rw [outcome_eq, outcome_eq, db_rescoped, findToken_rescoped]
  cases jwtUser settings lib s.db r.token with
  | some user => exact hrespond user .jwt [] []
  | none =>
      cases findToken lib s r.token with
      | none => rfl
      | some row =>
          rw [Option.map_some]
          have htoken : (if row.id = id then { row with scopes := scopes } else row).token = row.token := by
            split <;> rfl
          dsimp only
          rw [htoken]
          cases activeOwner s.db row.token with
          | none => rfl
          | some user =>
              dsimp only
              rw [hrespond user .apiToken _ row.scopes]
              rfl

/-- A token is confined to its scopes in a run exactly where, request by
request, they cover what its account could do with a token anyway. And two
tokens that differ in their scopes are told apart on the requests that just one
of them covers exactly where there is none. -/
theorem scopes_confine_iff (settings : AuthSettings) (lib : Libraries) (handlers : Handlers σ π ρ)
    (required : Route → Scope) :
    (∀ (s : Store σ) (events : List (Event σ π)),
      AllSteps (step settings lib handlers) (Confined settings lib handlers required) s events ↔
        AllSteps (step settings lib handlers) (Entitled settings lib required) s events) ∧
    ∀ (s : Store σ) (r : Request π) (id : Uuid) (scopes scopes' : List Scope),
      (outcome settings lib handlers (rescoped s id scopes) r ≠ outcome settings lib handlers (rescoped s id scopes') r ↔
          ¬ (Covers scopes (required r.route) ↔ Covers scopes' (required r.route))) ↔
        (Covers scopes (required r.route) ↔ Covers scopes' (required r.route)) := by
  constructor
  · intro s events
    exact allSteps_iff (P := fun _ => True) (fun _ _ _ _ _ _ => trivial)
      (fun _ event _ _ _ => confined_iff required event) events trivial
  · intro s r id scopes scopes'
    rw [outcome_rescoped, outcome_rescoped]
    simp only [ne_eq, not_true, false_iff, not_not]

end Requests

def startServer : Route := ⟨.post, "/servers/{server_id}/start", [.currentUser, .permissions [.serversWriteOwn]]⟩

def preferencesToken : TokenRow :=
  ⟨7, ⟨1, "nukelab_secret", some "nukelab_secret", none, none, true⟩, [⟨"preferences", "read"⟩], 0, none⟩

/-- It starts a server. -/
theorem preferences_token_starts :
    ¬ ∀ (settings : AuthSettings) (lib : Libraries) (handlers : Handlers Nat Unit Unit) (required : Route → Scope)
        (s : Store Nat) (events : List (Event Nat Unit)),
      AllSteps (step settings lib handlers) (Confined settings lib handlers required) s events := by
  intro h
  have hconfined := (h defaultSettings plainLibraries (fun _ _ _ realm started => ((), realm, started + 1))
    (fun _ => ⟨"servers", "start"⟩)
    ⟨opened house day, (Table.empty TokenRow.id).insert preferencesToken, 0⟩
    [.request ⟨startServer, by decide +kernel, "nukelab_secret", ()⟩] _ rfl).1
  have hcovers := hconfined preferencesToken _ rfl (.inl ⟨(), rfl⟩)
  exact absurd hcovers (by decide +kernel)

end NukeLab.TokenScopes
