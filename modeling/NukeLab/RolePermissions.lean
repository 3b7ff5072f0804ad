import NukeLab.Closures
import NukeLab.JsonTexts
import NukeLab.Machine
import NukeLab.Roles

namespace NukeLab.RolePermissions

open Closures JsonValues Machine Roles

/-- What the text of a permission implies. A text that names none implies nothing. -/
def implied (permission : String) : Finset String :=
  match Permission.parse permission with
  | some p => ((Permission.implications p).map Permission.text).toFinset
  | none => ∅

def permissionTexts : Finset String := (Permission.allPermissions.map Permission.text).toFinset

theorem implications_subset (p : Permission) : Permission.implications p ⊆ Permission.allPermissions := by
  cases p <;> decide

theorem implied_subset (permission : String) : implied permission ⊆ permissionTexts := by
  rw [implied]
  split
  · rename_i p _
    intro text htext
    obtain ⟨q, hq, rfl⟩ := List.mem_map.mp (List.mem_toFinset.mp htext)
    exact List.mem_toFinset.mpr (List.mem_map_of_mem (implications_subset p hq))
  · exact Finset.empty_subset _

def implications : Closures.Table String := ⟨implied, permissionTexts, implied_subset⟩

def expandPermissions (permissions : List String) : Finset String := expand implications permissions.toFinset

/-- What `ROLE_PERMISSIONS` holds for a role: a list, or another value of a stored
override whose items are permissions all the same. -/
inductive Entry
  | list (items : List String)
  | text (value : String)
  | object (entries : Dict)

def Entry.items : Entry → List String
  | .list items => items
  | .text value => value.toList.map Char.toString
  | .object entries => entries.map Prod.fst

def Entry.toJson : Entry → Json
  | .list items => .array (items.map .text)
  | .text value => .text value
  | .object entries => .object entries

def validPermission (permission : String) : Bool := (Permission.parse permission).isSome

def hashable : Json → Bool
  | .array _ | .object _ => false
  | _ => true

def permissionOf : Json → Option String
  | .text text => if validPermission text then some text else none
  | _ => none

def default (role : Role) : Entry := .list ((defaultRolePermissions role).map Permission.text)

/-- What becomes of a role by its stored override. The default takes the place of
one with a permission that is no longer valid; a value that is not iterated, or
holds what cannot be in a set, is an error. -/
def override (role : Role) : Json → Option Entry
  | .array items =>
    if items.all hashable then
      some (if items.all fun item => (permissionOf item).isSome then .list (items.filterMap permissionOf) else default role)
    else none
  | .text text => some (if (Entry.text text).items.all validPermission then .text text else default role)
  | .object entries =>
    some (if (Entry.object entries).items.all validPermission then .object entries else default role)
  | .null | .bool _ | .int _ | .float _ => none

/-- The setting: absent or empty, a text that is read as no object, or the stored overrides. -/
inductive Setting
  | empty
  | unreadable
  | overrides (entries : Dict) (distinct : (entries.map Prod.fst).Nodup)

structure Process where
  rolePermissions : Role → Entry
  expansionCache : Role → Finset String
  setting : Setting

def rebuildExpansionCache (s : Process) : Process :=
  { s with expansionCache := fun role => expandPermissions (s.rolePermissions role).items }

def defaults (setting : Setting) : Process := rebuildExpansionCache ⟨default, fun _ => ∅, setting⟩

/-- The stored overrides one after the other, and whether they come to their end. -/
def overrideEach : Dict → (Role → Entry) → (Role → Entry) × Bool
  | [], table => (table, true)
  | (name, perms) :: stored, table =>
    match Role.parse name with
    | none => overrideEach stored table
    | some role =>
      match override role perms with
      | none => (table, false)
      | some entry => overrideEach stored (Function.update table role entry)

/-- An error keeps what has been written so far, and leaves out the cache. -/
def loadRolePermissionsFromDb (s : Process) (reachable : Bool) : Process :=
  if reachable then
    match s.setting with
    | .empty => rebuildExpansionCache s
    | .unreadable => s
    | .overrides stored _ =>
      let loaded := overrideEach stored s.rolePermissions
      if loaded.2 then rebuildExpansionCache { s with rolePermissions := loaded.1 }
      else { s with rolePermissions := loaded.1 }
  else s

def matrix (s : Process) : Dict := Role.validRoles.map fun role => (role.text, (s.rolePermissions role).toJson)

theorem matrix_distinct (s : Process) : ((matrix s).map Prod.fst).Nodup := by
  have hkeys : (matrix s).map Prod.fst = Role.validRoles.map Role.text := by
    rw [matrix, List.map_map]
    rfl
  rw [hkeys]
  decide

def saveRolePermissionsToDb (s : Process) (saved : Bool) : Process :=
  if saved then { s with setting := .overrides (matrix s) (matrix_distinct s) } else s

inductive UpdateError
  | forbidden
  | invalidRole (role : String)
  | invalidPermissions (permissions : List String)

def updateRolePermissions (s : Process) (role : String) (permissions : List String) (saved : Bool) :
    Except UpdateError Process :=
  if role = Role.superAdmin.text then .error .forbidden
  else
    match Role.parse role with
    | none => .error (.invalidRole role)
    | some r =>
      let invalid := permissions.filter fun p => ¬ validPermission p
      if invalid ≠ [] then .error (.invalidPermissions invalid)
      else
        let s := { s with rolePermissions := Function.update s.rolePermissions r (.list permissions) }
        .ok (saveRolePermissionsToDb (rebuildExpansionCache s) saved)

inductive Event
  | update (role : String) (permissions : List String) (saved : Bool)
  | save (saved : Bool)
  | load (reachable : Bool)
  /-- the setting is written by another process, or by hand -/
  | store (setting : Setting)

def step : Step Process Event
  | s, .update role permissions saved =>
    match updateRolePermissions s role permissions saved with
    | .ok s' => some s'
    | .error _ => some s
  | s, .save saved => some (saveRolePermissionsToDb s saved)
  | s, .load reachable => some (loadRolePermissionsFromDb s reachable)
  | s, .store setting => some { s with setting }

def Follows (s : Process) : Prop := ∀ role, s.expansionCache role = expandPermissions (s.rolePermissions role).items

/-- No error comes of a stored override: its role is not known, or its value can be gone through. -/
def Readable (stored : String × Json) : Prop := ∀ role, Role.parse stored.1 = some role → override role stored.2 ≠ none

/-- A load meets no override that is an error, or those before the first such one
expand to what their roles expand to already. -/
def Harmless (s : Process) : Event → Prop
  | .load true => ∀ stored distinct, s.setting = .overrides stored distinct →
      ∀ before failing after, stored = before ++ failing :: after → (∀ e ∈ before, Readable e) → ¬ Readable failing →
        ∀ e ∈ before, ∀ role entry, Role.parse e.1 = some role → override role e.2 = some entry →
          expandPermissions entry.items = expandPermissions (s.rolePermissions role).items
  | _ => True

structure Closes (expansion : List String → Finset String) : Prop where
  least : ∀ permissions, IsLeast {u : Set String | {p | p ∈ permissions} ⊆ u ∧ Closed implications u}
    (expansion permissions : Set String)
  mono : ∀ permissions others, permissions ⊆ others → expansion permissions ⊆ expansion others
  idem : ∀ permissions others, (∀ p, p ∈ others ↔ p ∈ expansion permissions) → expansion others = expansion permissions
  order : ∀ permissions others, permissions.Perm others → expansion permissions = expansion others

section Expansion

variable {permissions others : List String}

theorem expandPermissions_mono (h : permissions ⊆ others) : expandPermissions permissions ⊆ expandPermissions others :=
  expand_mono fun _ hp => List.mem_toFinset.mpr (h (List.mem_toFinset.mp hp))

theorem expandPermissions_congr (h : ∀ p, p ∈ permissions ↔ p ∈ others) :
    expandPermissions permissions = expandPermissions others :=
  Finset.Subset.antisymm (expandPermissions_mono fun p hp => (h p).mp hp) (expandPermissions_mono fun p hp => (h p).mpr hp)

theorem expandPermissions_closes : Closes expandPermissions where
  least := by
    intro permissions
    rw [← List.coe_toFinset]
    exact expand_isLeast permissions.toFinset
  mono _ _ h := expandPermissions_mono h
  idem := by
    intro permissions others h
    have hset : others.toFinset = expandPermissions permissions := by
      ext p
      rw [List.mem_toFinset, h]
    rw [expandPermissions, hset, expandPermissions, expand_expand]
  order _ _ h := expandPermissions_congr fun _ => h.mem_iff

end Expansion

section Loading

variable {stored before after : Dict} {failing : String × Json} {table : Role → Entry} {role : Role}

theorem parse_eq_some {name : String} (h : Role.parse name = some role) : name = role.text := by
  have htext := List.find?_some h
  exact (of_decide_eq_true htext).symm

theorem overrideEach_failing (h : ¬ Readable failing) : overrideEach (failing :: after) table = (table, false) := by
  obtain ⟨role, hrole, hnone⟩ : ∃ role, Role.parse failing.1 = some role ∧ override role failing.2 = none := by
    rw [Readable] at h
    push Not at h
    exact h
  rw [overrideEach, hrole]
  simp only [hnone]

/-- Overrides that can be gone through are gone through, and the rest goes on from what they leave. -/
theorem overrideEach_append (h : ∀ e ∈ before, Readable e) :
    overrideEach (before ++ after) table = overrideEach after (overrideEach before table).1 := by
  induction before generalizing table with
  | nil => rfl
  | cons e before ih =>
      obtain ⟨name, perms⟩ := e
      obtain ⟨hreadable, hrest⟩ := List.forall_mem_cons.mp h
      rw [List.cons_append, overrideEach, overrideEach]
      cases hrole : Role.parse name with
      | none => exact ih hrest
      | some role =>
          cases hentry : override role perms with
          | none => exact absurd hentry (hreadable role hrole)
          | some entry =>
              simp only [hentry]
              exact ih hrest

theorem overrideEach_finished (h : ∀ e ∈ before, Readable e) : (overrideEach before table).2 = true := by
  induction before generalizing table with
  | nil => rfl
  | cons e before ih =>
      obtain ⟨name, perms⟩ := e
      obtain ⟨hreadable, hrest⟩ := List.forall_mem_cons.mp h
      rw [overrideEach]
      cases hrole : Role.parse name with
      | none => exact ih hrest
      | some role =>
          cases hentry : override role perms with
          | none => exact absurd hentry (hreadable role hrole)
          | some entry =>
              simp only [hentry]
              exact ih hrest

theorem exists_failing (h : ¬ ∀ e ∈ stored, Readable e) :
    ∃ before failing after, stored = before ++ failing :: after ∧ (∀ e ∈ before, Readable e) ∧ ¬ Readable failing := by
  induction stored with
  | nil => exact absurd (fun _ he => absurd he List.not_mem_nil) h
  | cons e stored ih =>
      by_cases hreadable : Readable e
      · have hrest : ¬ ∀ e ∈ stored, Readable e := fun hall => h (List.forall_mem_cons.mpr ⟨hreadable, hall⟩)
        obtain ⟨before, failing, after, rfl, hbefore, hfailing⟩ := ih hrest
        exact ⟨e :: before, failing, after, rfl, List.forall_mem_cons.mpr ⟨hreadable, hbefore⟩, hfailing⟩
      · exact ⟨[], e, stored, rfl, fun _ he => absurd he List.not_mem_nil, hreadable⟩

theorem overrideEach_other (h : ∀ e ∈ before, Role.parse e.1 ≠ some role) : (overrideEach before table).1 role = table role := by
  induction before generalizing table with
  | nil => rfl
  | cons e before ih =>
      obtain ⟨name, perms⟩ := e
      obtain ⟨hne, hrest⟩ := List.forall_mem_cons.mp h
      rw [overrideEach]
      cases hrole : Role.parse name with
      | none => exact ih hrest
      | some named =>
          have hnamed : role ≠ named := fun heq => hne (heq ▸ hrole)
          cases hentry : override named perms with
          | none => simp only [hentry]
          | some entry =>
              simp only [hentry]
              rw [ih hrest, Function.update_of_ne hnamed]

theorem overrideEach_own (hbefore : ∀ e ∈ before, Readable e) (hdistinct : (before.map Prod.fst).Nodup) {e : String × Json}
    (he : e ∈ before) {entry : Entry} (hrole : Role.parse e.1 = some role) (hentry : override role e.2 = some entry) :
    (overrideEach before table).1 role = entry := by
  induction before generalizing table with
  | nil => cases he
  | cons first before ih =>
      obtain ⟨hreadable, hrest⟩ := List.forall_mem_cons.mp hbefore
      obtain ⟨hfresh, hothers⟩ := List.nodup_cons.mp hdistinct
      rcases List.mem_cons.mp he with rfl | hlater
      · have hother : ∀ other ∈ before, Role.parse other.1 ≠ some role := by
          intro other hother hsame
          apply hfresh
          rw [parse_eq_some hrole, ← parse_eq_some hsame]
          exact List.mem_map_of_mem hother
        rw [overrideEach, hrole]
        simp only [hentry]
        rw [overrideEach_other hother, Function.update_self]
      · obtain ⟨name, perms⟩ := first
        rw [overrideEach]
        cases hfirst : Role.parse name with
        | none => exact ih hrest hothers hlater
        | some named =>
            cases hvalue : override named perms with
            | none => exact absurd hvalue (hreadable named hfirst)
            | some value =>
                simp only [hvalue]
                exact ih hrest hothers hlater

/-- What the overrides before the first error leave expands as before just where each of them does. -/
theorem overrideEach_expands (hbefore : ∀ e ∈ before, Readable e) (hdistinct : (before.map Prod.fst).Nodup) :
    (∀ role, expandPermissions (table role).items = expandPermissions ((overrideEach before table).1 role).items) ↔
      ∀ e ∈ before, ∀ role entry, Role.parse e.1 = some role → override role e.2 = some entry →
        expandPermissions entry.items = expandPermissions (table role).items := by
  constructor
  · intro h e he role entry hrole hentry
    rw [h role, overrideEach_own hbefore hdistinct he hrole hentry]
  · intro h role
    by_cases hnamed : ∃ e ∈ before, Role.parse e.1 = some role
    · obtain ⟨e, he, hrole⟩ := hnamed
      obtain ⟨entry, hentry⟩ := Option.ne_none_iff_exists'.mp (hbefore e he role hrole)
      rw [overrideEach_own hbefore hdistinct he hrole hentry, h e he role entry hrole hentry]
    · push Not at hnamed
      rw [overrideEach_other hnamed]

end Loading

section Runs

variable {s t : Process}

theorem follows_rebuild (s : Process) : Follows (rebuildExpansionCache s) := fun _ => rfl

theorem follows_save (saved : Bool) : Follows (saveRolePermissionsToDb s saved) ↔ Follows s := by
  cases saved <;> exact Iff.rfl

theorem follows_update {role : String} {permissions : List String} {saved : Bool}
    (h : updateRolePermissions s role permissions saved = .ok t) : Follows t := by
  rw [updateRolePermissions] at h
  split at h
  · cases h
  · split at h
    · cases h
    · dsimp only at h
      split at h
      · cases h
      · obtain rfl := Except.ok.inj h
        exact (follows_save saved).mpr (follows_rebuild _)

theorem harmless_finished (h : ∀ stored distinct, s.setting = .overrides stored distinct → ∀ e ∈ stored, Readable e) :
    Harmless s (.load true) := by
  intro stored distinct hsetting before failing after hsplit _ hfailing
  have hmem : failing ∈ stored := hsplit ▸ List.mem_append_right before List.mem_cons_self
  exact absurd (h stored distinct hsetting failing hmem) hfailing

theorem follows_stopped (hs : Follows s) {stored : Dict} {distinct : (stored.map Prod.fst).Nodup}
    (hsetting : s.setting = .overrides stored distinct) {before after : Dict} {failing : String × Json}
    (hsplit : stored = before ++ failing :: after) (hbefore : ∀ e ∈ before, Readable e) (hfailing : ¬ Readable failing) :
    Follows (loadRolePermissionsFromDb s true) ↔
      ∀ e ∈ before, ∀ role entry, Role.parse e.1 = some role → override role e.2 = some entry →
        expandPermissions entry.items = expandPermissions (s.rolePermissions role).items := by
  have hstopped : overrideEach stored s.rolePermissions = ((overrideEach before s.rolePermissions).1, false) := by
    rw [hsplit, overrideEach_append hbefore, overrideEach_failing hfailing]
  have hdistinct : (before.map Prod.fst).Nodup := by
    rw [hsplit, List.map_append] at distinct
    exact distinct.of_append_left
  rw [← overrideEach_expands hbefore hdistinct, loadRolePermissionsFromDb, if_pos rfl]
  simp only [hsetting, hstopped, Bool.false_eq_true, if_false]
  apply forall_congr'
  intro role
  rw [← hs role]

theorem follows_load (hs : Follows s) : Follows (loadRolePermissionsFromDb s true) ↔ Harmless s (.load true) := by
  cases hsetting : s.setting with
  | empty =>
      refine iff_of_true ?_ (harmless_finished fun _ _ h => by cases hsetting.symm.trans h)
      rw [loadRolePermissionsFromDb, if_pos rfl, hsetting]
      exact follows_rebuild s
  | unreadable =>
      refine iff_of_true ?_ (harmless_finished fun _ _ h => by cases hsetting.symm.trans h)
      rwa [loadRolePermissionsFromDb, if_pos rfl, hsetting]
  | overrides stored distinct =>
      by_cases hall : ∀ e ∈ stored, Readable e
      · refine iff_of_true ?_ (harmless_finished ?_)
        · have hfinished : (overrideEach stored s.rolePermissions).2 = true := overrideEach_finished hall
          rw [loadRolePermissionsFromDb, if_pos rfl]
          simp only [hsetting, hfinished, if_true]
          exact follows_rebuild _
        · intro stored' distinct' h
          cases hsetting.symm.trans h
          exact hall
      · constructor
        · intro h stored' distinct' hsetting' before failing after hsplit hbefore hfailing
          exact (follows_stopped hs hsetting' hsplit hbefore hfailing).mp h
        · intro h
          obtain ⟨before, failing, after, hsplit, hbefore, hfailing⟩ := exists_failing hall
          exact (follows_stopped hs hsetting hsplit hbefore hfailing).mpr
            (h stored distinct hsetting before failing after hsplit hbefore hfailing)

theorem step_follows {e : Event} (hs : Follows s) (h : step s e = some t) : Follows t ↔ Harmless s e := by
  cases e with
  | update role permissions saved =>
      rw [step] at h
      refine iff_of_true ?_ trivial
      split at h
      · rename_i hok
        exact Option.some.inj h ▸ follows_update hok
      · exact Option.some.inj h ▸ hs
  | save saved =>
      obtain rfl := Option.some.inj h
      exact iff_of_true ((follows_save saved).mpr hs) trivial
  | load reachable =>
      obtain rfl := Option.some.inj h
      cases reachable with
      | false => exact iff_of_true hs trivial
      | true => exact follows_load hs
  | store setting =>
      obtain rfl := Option.some.inj h
      exact iff_of_true hs trivial

/-- The expansion is the least closed set, and the cache follows the permissions
through the runs whose loads are harmless, and no others. -/
theorem expansion_followed (setting : Setting) (events : List Event) : Closes expandPermissions ∧
    (AllStates step Follows (defaults setting) events ↔ AllSteps step Harmless (defaults setting) events) := by
  refine ⟨expandPermissions_closes, ?_⟩
  exact allStates_iff_allSteps (fun _ _ _ (_ : True) _ => trivial) (fun _ _ _ _ hs h => step_follows hs h) events trivial
    (follows_rebuild _)

end Runs

/-- The guest's override is in place, and the error at the user's leaves the cache behind. -/
theorem stopped_load : ¬ (Closes expandPermissions ∧ ∀ setting events, AllStates step Follows (defaults setting) events) := by
  rintro ⟨-, h⟩
  have hstates := h (.overrides [("guest", .array [.text "servers:read_all"]), ("user", .int 5)] (by decide)) [.load true]
  have hnew : "servers:read_all" ∈ expandPermissions ["servers:read_all"] :=
    subset_expand _ (List.mem_toFinset.mpr List.mem_cons_self)
  have hold : "servers:read_all" ∉ expandPermissions ["servers:read_own", "volumes:read_own"] := by
    intro hmem
    have hclosed : Closed implications {p | p = "servers:read_own" ∨ p = "volumes:read_own"} := by
      rintro p (rfl | rfl) q hq <;> cases hq
    have hsmall := expand_subset hclosed (s := ["servers:read_own", "volumes:read_own"].toFinset) (by
      intro p hp
      simpa using hp)
    rcases hsmall hmem with h | h <;> exact absurd h (by decide)
  have hguest : expandPermissions ["servers:read_own", "volumes:read_own"] = expandPermissions ["servers:read_all"] :=
    (hstates.2 _ rfl).head .guest
  exact hold (hguest ▸ hnew)

end NukeLab.RolePermissions
