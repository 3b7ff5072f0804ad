import Mathlib.Data.List.Sort
import NukeLab.Queries
import NukeLab.Records
import NukeLab.Roles
import NukeLab.Tables

namespace NukeLab.PlanVisibility

open Queries Records Roles Tables

structure ServerPlan where
  id : Uuid
  name : String
  category : String
  priority : Int
  isPublic : Bool
  visibleToRoles : Option (List String)
  isActive : Bool

structure UserPlanAccess where
  userId : Uuid
  planId : Uuid

structure WorkspacePlanAccess where
  workspaceId : Uuid
  planId : Uuid

structure WorkspaceMember where
  workspaceId : Uuid
  userId : Uuid

def UserPlanAccess.key (access : UserPlanAccess) : Uuid × Uuid := (access.userId, access.planId)

def WorkspacePlanAccess.key (access : WorkspacePlanAccess) : Uuid × Uuid := (access.workspaceId, access.planId)

structure Catalog where
  plans : Table ServerPlan.id
  userAccess : Table UserPlanAccess.key
  workspaceAccess : Table WorkspacePlanAccess.key
  members : List WorkspaceMember
  rolePermissions : PermissionTable

/-- The permissions that the table has for a role, as they stand there. -/
def getRolePermissions (c : Catalog) (role : String) : List Permission :=
  ((Role.parse role).map c.rolePermissions).getD []

def isAdmin (c : Catalog) (userRole : String) : Bool :=
  let userPerms := if userRole ≠ "" then getRolePermissions c userRole else []
  .adminAccess ∈ userPerms ∨ .all ∈ userPerms

/-- A missing list and an empty one name no role. -/
def ServerPlan.namesRole (plan : ServerPlan) (userRole : String) : Bool := plan.visibleToRoles.any fun roles => userRole ∈ roles

def workspacesOf (c : Catalog) (userId : Uuid) : List Uuid :=
  (c.members.filter fun m => m.userId = userId).map WorkspaceMember.workspaceId

structure Filters where
  category : Option String
  isActive : Option Bool

def Filters.admits (filters : Filters) (plan : ServerPlan) : Bool :=
  (filters.category.getD "" = "" ∨ filters.category = some plan.category) ∧
    (filters.isActive = none ∨ filters.isActive = some plan.isActive)

structure Listing where
  items : List ServerPlan
  total : Nat
  page : Nat
  limit : Nat
  pages : Nat

def Precedes (a b : ServerPlan) : Prop := b.priority < a.priority ∨ b.priority = a.priority ∧ a.name ≤ b.name

instance : DecidableRel Precedes := fun _ _ => inferInstanceAs (Decidable (_ ∨ _))

def listPlans (c : Catalog) (filters : Filters) (userRole : String) (userId : Uuid) (page limit : Nat) : Listing :=
  let query := c.plans.rows.filter filters.admits
  let total := query.length
  let plans := Queries.page page limit (query.insertionSort Precedes)
  let planIds := plans.map ServerPlan.id
  let userPlanIds :=
    (c.userAccess.rows.filter fun a => a.userId = userId ∧ a.planId ∈ planIds).map UserPlanAccess.planId
  let workspacePlanIds :=
    (c.workspaceAccess.rows.filter fun a => a.planId ∈ planIds ∧ a.workspaceId ∈ workspacesOf c userId).map
      WorkspacePlanAccess.planId
  let visiblePlans := plans.filter fun plan =>
    plan.isPublic ∨ isAdmin c userRole ∨ (userRole ≠ "" ∧ plan.namesRole userRole) ∨ plan.id ∈ userPlanIds ∨
      plan.id ∈ workspacePlanIds
  ⟨visiblePlans, total, page, limit, (total + limit - 1) / limit⟩

def workspaceGrants (c : Catalog) (planId userId : Uuid) : List WorkspacePlanAccess :=
  c.workspaceAccess.rows.filter fun a => a.planId = planId ∧ a.workspaceId ∈ workspacesOf c userId

def canUserUsePlan (c : Catalog) (planId : Uuid) (userRole : String) (userId : Uuid) : Except QueryError Bool := do
  match c.plans.find planId with
  | none => return false
  | some plan =>
    if ¬ plan.isActive then return false
    if isAdmin c userRole then return true
    if plan.isPublic then return true
    if plan.namesRole userRole then return true
    let access ← scalarOneOrNone (c.userAccess.rows.filter fun a => a.planId = planId ∧ a.userId = userId)
    if access.isSome then return true
    let workspaceAccess ← scalarOneOrNone (workspaceGrants c planId userId)
    return workspaceAccess.isSome

inductive Revocation
  | userAccess (userId : Uuid)
  | workspaceAccess (workspaceId : Uuid)

def revoke (c : Catalog) (planId : Uuid) : Revocation → Catalog
  | .userAccess userId => { c with userAccess := c.userAccess.erase (userId, planId) }
  | .workspaceAccess workspaceId => { c with workspaceAccess := c.workspaceAccess.erase (workspaceId, planId) }

def Granted (c : Catalog) (plan : ServerPlan) (userRole : String) (userId : Uuid) : Prop :=
  plan.isPublic ∨ isAdmin c userRole ∨ plan.namesRole userRole ∨ (c.userAccess.find (userId, plan.id)).isSome ∨
    workspaceGrants c plan.id userId ≠ []

/-- The listing and the test of a plan answer, and they answer alike. -/
def Agrees (c : Catalog) (filters : Filters) (plan : ServerPlan) (userRole : String) (userId : Uuid) (limit : Nat) : Prop :=
  ∃ usable, canUserUsePlan c plan.id userRole userId = .ok usable ∧
    ((∃ page ≥ 1, plan ∈ (listPlans c filters userRole userId page limit).items) ↔ usable = true)

/-- What grants the plan without a workspace, or at most one workspace of the user. -/
def Unambiguous (c : Catalog) (plan : ServerPlan) (userRole : String) (userId : Uuid) : Prop :=
  plan.isPublic ∨ isAdmin c userRole ∨ plan.namesRole userRole ∨ (c.userAccess.find (userId, plan.id)).isSome ∨
    (workspaceGrants c plan.id userId).length ≤ 1

instance (c : Catalog) (plan : ServerPlan) (userRole : String) (userId : Uuid) :
    Decidable (Unambiguous c plan userRole userId) :=
  inferInstanceAs (Decidable (_ ∨ _))

/-- Where the plan names the empty role, that is not all that grants it. -/
def Named (c : Catalog) (plan : ServerPlan) (userRole : String) (userId : Uuid) : Prop :=
  userRole = "" → plan.namesRole userRole → plan.isPublic ∨ (c.userAccess.find (userId, plan.id)).isSome ∨
    workspaceGrants c plan.id userId ≠ []

section Catalogs

variable {c : Catalog} {plan : ServerPlan} {userRole : String} {userId : Uuid} {filters : Filters} {limit : Nat}

theorem isAdmin_empty (c : Catalog) : isAdmin c "" = false := rfl

theorem filter_userAccess (c : Catalog) (planId userId : Uuid) :
    (c.userAccess.rows.filter fun a => a.planId = planId ∧ a.userId = userId) =
      (c.userAccess.find (userId, planId)).toList := by
  rw [← Table.filter_key]
  apply List.filter_congr
  intro a _
  simp [UserPlanAccess.key, and_comm]

theorem canUserUsePlan_eq (hplan : plan ∈ c.plans.rows) (hactive : plan.isActive = true) :
    canUserUsePlan c plan.id userRole userId =
      if plan.isPublic ∨ isAdmin c userRole ∨ plan.namesRole userRole ∨ (c.userAccess.find (userId, plan.id)).isSome then
        .ok true
      else (scalarOneOrNone (workspaceGrants c plan.id userId) : Except QueryError _).map Option.isSome := by
  unfold canUserUsePlan
  rw [Table.find_of_mem hplan, filter_userAccess]
  cases hadmin : isAdmin c userRole <;> cases hpublic : plan.isPublic <;> cases hnamed : plan.namesRole userRole <;>
    cases haccess : c.userAccess.find (userId, plan.id) <;>
      simp [hactive, hpublic, hnamed, scalarOneOrNone] <;> rfl

theorem exists_canUserUsePlan_iff (hplan : plan ∈ c.plans.rows) (hactive : plan.isActive = true) :
    (∃ usable, canUserUsePlan c plan.id userRole userId = .ok usable) ↔ Unambiguous c plan userRole userId := by
  rw [canUserUsePlan_eq hplan hactive]
  unfold Unambiguous
  split
  next hdirect => exact iff_of_true ⟨true, rfl⟩ (by tauto)
  next hdirect =>
    rcases hgrants : workspaceGrants c plan.id userId with _ | ⟨grant, _ | ⟨other, rest⟩⟩
    · exact iff_of_true ⟨_, rfl⟩ (by simp)
    · exact iff_of_true ⟨_, rfl⟩ (by simp)
    · refine iff_of_false ?_ fun h => ?_
      · rintro ⟨_, h⟩
        cases h
      · have hmany : ¬ (workspaceGrants c plan.id userId).length ≤ 1 := by simp [hgrants]
        rw [hgrants] at hmany
        exact hdirect (by tauto)

theorem canUserUsePlan_true_iff (hplan : plan ∈ c.plans.rows) (hactive : plan.isActive = true)
    (h : Unambiguous c plan userRole userId) :
    canUserUsePlan c plan.id userRole userId = .ok true ↔ Granted c plan userRole userId := by
  rw [canUserUsePlan_eq hplan hactive]
  unfold Unambiguous at h
  unfold Granted
  split
  next hdirect => exact iff_of_true rfl (by tauto)
  next hdirect =>
    have hfew : (workspaceGrants c plan.id userId).length ≤ 1 := by tauto
    rcases empty_or_single hfew with hgrants | ⟨grant, hgrants⟩
    · rw [hgrants]
      refine iff_of_false (fun h => ?_) (by tauto)
      cases h
    · rw [hgrants]
      exact iff_of_true rfl (by simp)

theorem mem_workspacePlanIds {planIds : List Uuid} (hid : plan.id ∈ planIds) :
    plan.id ∈ ((c.workspaceAccess.rows.filter fun a => a.planId ∈ planIds ∧ a.workspaceId ∈ workspacesOf c userId).map
      WorkspacePlanAccess.planId) ↔ workspaceGrants c plan.id userId ≠ [] := by
  rw [workspaceGrants, ne_eq, List.filter_eq_nil_iff, List.mem_map]
  constructor
  · rintro ⟨a, ha, hsame⟩ hnone
    simp only [List.mem_filter, decide_eq_true_eq] at ha
    exact hnone a ha.1 (decide_eq_true ⟨hsame, ha.2.2⟩)
  · intro hsome
    simp only [not_forall, decide_eq_true_eq, not_not] at hsome
    obtain ⟨a, ha, hsame, hmember⟩ := hsome
    exact ⟨a, List.mem_filter.mpr ⟨ha, decide_eq_true ⟨hsame ▸ hid, hmember⟩⟩, hsame⟩

theorem mem_userPlanIds {planIds : List Uuid} (hid : plan.id ∈ planIds) :
    plan.id ∈ ((c.userAccess.rows.filter fun a => a.userId = userId ∧ a.planId ∈ planIds).map UserPlanAccess.planId) ↔
      (c.userAccess.find (userId, plan.id)).isSome := by
  rw [List.mem_map, Option.isSome_iff_exists]
  constructor
  · rintro ⟨a, ha, hsame⟩
    simp only [List.mem_filter, decide_eq_true_eq] at ha
    have hkey : (userId, plan.id) = a.key := by rw [UserPlanAccess.key, ha.2.1, hsame]
    exact ⟨a, hkey ▸ Table.find_of_mem ha.1⟩
  · rintro ⟨a, ha⟩
    have hkey : a.key = (userId, plan.id) := Table.key_of_find ha
    rw [UserPlanAccess.key, Prod.mk.injEq] at hkey
    exact ⟨a, List.mem_filter.mpr ⟨Table.mem_of_find ha, decide_eq_true ⟨hkey.1, hkey.2 ▸ hid⟩⟩, hkey.2⟩

theorem exists_mem_listPlans_iff (hplan : plan ∈ c.plans.rows) (hfilters : filters.admits plan = true) (hlimit : 0 < limit) :
    (∃ page ≥ 1, plan ∈ (listPlans c filters userRole userId page limit).items) ↔
      plan.isPublic ∨ isAdmin c userRole ∨ (userRole ≠ "" ∧ plan.namesRole userRole) ∨
        (c.userAccess.find (userId, plan.id)).isSome ∨ workspaceGrants c plan.id userId ≠ [] := by
  have hpage : (∃ page ≥ 1, plan ∈ Queries.page page limit ((c.plans.rows.filter filters.admits).insertionSort Precedes)) := by
    rw [mem_page_iff hlimit, List.mem_insertionSort]
    exact List.mem_filter.mpr ⟨hplan, hfilters⟩
  constructor
  · rintro ⟨page, _, h⟩
    obtain ⟨hmem, hvisible⟩ := List.mem_filter.mp h
    have hid := List.mem_map_of_mem (f := ServerPlan.id) hmem
    rwa [decide_eq_true_eq, mem_userPlanIds hid, mem_workspacePlanIds hid] at hvisible
  · intro h
    obtain ⟨page, hfirst, hmem⟩ := hpage
    have hid := List.mem_map_of_mem (f := ServerPlan.id) hmem
    refine ⟨page, hfirst, List.mem_filter.mpr ⟨hmem, ?_⟩⟩
    rwa [decide_eq_true_eq, mem_userPlanIds hid, mem_workspacePlanIds hid]

theorem agrees_iff (hplan : plan ∈ c.plans.rows) (hactive : plan.isActive = true) (hfilters : filters.admits plan = true)
    (hlimit : 0 < limit) :
    Agrees c filters plan userRole userId limit ↔
      Unambiguous c plan userRole userId ∧ Named c plan userRole userId := by
  unfold Agrees
  rw [exists_mem_listPlans_iff hplan hfilters hlimit]
  constructor
  · rintro ⟨usable, hanswer, hshown⟩
    have hclear := (exists_canUserUsePlan_iff hplan hactive).mp ⟨usable, hanswer⟩
    refine ⟨hclear, fun hempty hnamed => ?_⟩
    have htrue := (canUserUsePlan_true_iff hplan hactive hclear).mpr (.inr (.inr (.inl hnamed)))
    have hshown := hshown.mpr (Except.ok.inj (hanswer.symm.trans htrue))
    subst hempty
    simpa [isAdmin_empty] using hshown
  · rintro ⟨hclear, hnamed⟩
    obtain ⟨usable, hanswer⟩ := (exists_canUserUsePlan_iff hplan hactive).mpr hclear
    refine ⟨usable, hanswer, ?_⟩
    have htrue := canUserUsePlan_true_iff hplan hactive hclear
    rw [hanswer, Except.ok.injEq] at htrue
    rw [htrue]
    unfold Granted
    by_cases hempty : userRole = ""
    · have hother := hnamed hempty
      subst hempty
      simp only [isAdmin_empty] at hother ⊢
      tauto
    · tauto

theorem mem_plans_revoke (hplan : plan ∈ c.plans.rows) (planId : Uuid) (revocation : Revocation) :
    plan ∈ (revoke c planId revocation).plans.rows := by
  cases revocation <;> exact hplan

end Catalogs

/-- The listing and the test of a plan agree, and go on to accept it while another
grant is left, exactly where it is never granted by several workspaces alone. -/
theorem visibility_iff (c : Catalog) (filters : Filters) (plan : ServerPlan) (userRole : String) (userId : Uuid)
    (limit : Nat) (hplan : plan ∈ c.plans.rows) (hactive : plan.isActive = true) (hfilters : filters.admits plan = true)
    (hlimit : 0 < limit) :
    (Agrees c filters plan userRole userId limit ∧
      ∀ revocation, Granted (revoke c plan.id revocation) plan userRole userId →
        canUserUsePlan (revoke c plan.id revocation) plan.id userRole userId = .ok true) ↔
      Unambiguous c plan userRole userId ∧ Named c plan userRole userId ∧
        ∀ revocation, Unambiguous (revoke c plan.id revocation) plan userRole userId := by
  rw [agrees_iff hplan hactive hfilters hlimit, and_assoc]
  refine and_congr_right fun _ => and_congr_right fun _ => forall_congr' fun revocation => ?_
  have hkept := mem_plans_revoke hplan plan.id revocation
  constructor
  · intro h
    by_cases hgranted : Granted (revoke c plan.id revocation) plan userRole userId
    · exact (exists_canUserUsePlan_iff hkept hactive).mp ⟨true, h hgranted⟩
    · unfold Granted at hgranted
      have hnone : workspaceGrants (revoke c plan.id revocation) plan.id userId = [] := by tauto
      exact .inr (.inr (.inr (.inr (by simp [hnone]))))
  · exact fun hclear hgranted => (canUserUsePlan_true_iff hkept hactive hclear).mpr hgranted

section Team

def small (isPublic : Bool) : ServerPlan := ⟨1, "small", "cpu", 0, isPublic, some [], true⟩

def team (isPublic : Bool) : Catalog where
  plans := ⟨[small isPublic], List.nodup_singleton _⟩
  userAccess := ⟨[], by decide⟩
  workspaceAccess := ⟨[⟨10, 1⟩, ⟨11, 1⟩], by decide⟩
  members := [⟨10, 5⟩, ⟨11, 5⟩]
  rolePermissions := defaultRolePermissions

theorem visibility_public :
    Agrees (team true) ⟨some "cpu", some true⟩ (small true) "user" 5 20 ∧
      ∀ revocation, Granted (revoke (team true) 1 revocation) (small true) "user" 5 →
        canUserUsePlan (revoke (team true) 1 revocation) 1 "user" 5 = .ok true :=
  (visibility_iff (team true) ⟨some "cpu", some true⟩ (small true) "user" 5 20 List.mem_cons_self rfl (by decide)
    (by decide)).mpr ⟨.inl rfl, fun _ _ => .inl rfl, fun _ => .inl rfl⟩

/-- A plan that two workspaces of the user are granted is listed, and the test of it raises. -/
theorem visibility_ambiguous :
    ¬ ∀ (c : Catalog) (filters : Filters) (plan : ServerPlan) (userRole : String) (userId : Uuid) (limit : Nat),
      plan ∈ c.plans.rows → plan.isActive = true → filters.admits plan = true → 0 < limit →
        Agrees c filters plan userRole userId limit ∧
          ∀ revocation, Granted (revoke c plan.id revocation) plan userRole userId →
            canUserUsePlan (revoke c plan.id revocation) plan.id userRole userId = .ok true := by
  intro h
  obtain ⟨⟨usable, hanswer, _⟩, _⟩ :=
    h (team false) ⟨none, none⟩ (small false) "user" 5 20 List.mem_cons_self rfl (by decide) (by decide)
  have hraises : canUserUsePlan (team false) 1 "user" 5 = .error .multipleResultsFound := by rfl
  cases hraises.symm.trans hanswer

end Team

end NukeLab.PlanVisibility
