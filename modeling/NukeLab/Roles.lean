import Mathlib.Data.List.Basic

namespace NukeLab.Roles

inductive Permission
  | usersRead
  | usersCreate
  | usersUpdate
  | usersDelete
  | usersImpersonate
  | serversReadOwn
  | serversWriteOwn
  | serversReadAll
  | serversWriteAll
  | serversAccessOthers
  | environmentCreate
  | environmentRead
  | environmentUpdate
  | environmentDelete
  | planCreate
  | planRead
  | planUpdate
  | planDelete
  | quotaRead
  | quotaUpdate
  | creditsReadOwn
  | creditsReadAll
  | creditsGrant
  | creditsDeduct
  | analyticsReadOwn
  | analyticsRead
  | workspacesReadOwn
  | workspacesWriteOwn
  | workspacesReadAll
  | workspacesWriteAll
  | volumesReadOwn
  | volumesWriteOwn
  | volumesReadAll
  | volumesWriteAll
  | auditRead
  | adminAccess
  | all
  deriving DecidableEq

namespace Permission

def text : Permission → String
  | usersRead => "users:read"
  | usersCreate => "users:create"
  | usersUpdate => "users:update"
  | usersDelete => "users:delete"
  | usersImpersonate => "users:impersonate"
  | serversReadOwn => "servers:read_own"
  | serversWriteOwn => "servers:write_own"
  | serversReadAll => "servers:read_all"
  | serversWriteAll => "servers:write_all"
  | serversAccessOthers => "servers:access_others"
  | environmentCreate => "environment:create"
  | environmentRead => "environment:read"
  | environmentUpdate => "environment:update"
  | environmentDelete => "environment:delete"
  | planCreate => "plan:create"
  | planRead => "plan:read"
  | planUpdate => "plan:update"
  | planDelete => "plan:delete"
  | quotaRead => "quota:read"
  | quotaUpdate => "quota:update"
  | creditsReadOwn => "credits:read_own"
  | creditsReadAll => "credits:read_all"
  | creditsGrant => "credits:grant"
  | creditsDeduct => "credits:deduct"
  | analyticsReadOwn => "analytics:read_own"
  | analyticsRead => "analytics:read"
  | workspacesReadOwn => "workspaces:read_own"
  | workspacesWriteOwn => "workspaces:write_own"
  | workspacesReadAll => "workspaces:read_all"
  | workspacesWriteAll => "workspaces:write_all"
  | volumesReadOwn => "volumes:read_own"
  | volumesWriteOwn => "volumes:write_own"
  | volumesReadAll => "volumes:read_all"
  | volumesWriteAll => "volumes:write_all"
  | auditRead => "audit:read"
  | adminAccess => "admin:access"
  | all => "*"

def allPermissions : List Permission :=
  [usersRead, usersCreate, usersUpdate, usersDelete, usersImpersonate,
    serversReadOwn, serversWriteOwn, serversReadAll, serversWriteAll, serversAccessOthers,
    environmentCreate, environmentRead, environmentUpdate, environmentDelete,
    planCreate, planRead, planUpdate, planDelete, quotaRead, quotaUpdate,
    creditsReadOwn, creditsReadAll, creditsGrant, creditsDeduct, analyticsReadOwn, analyticsRead,
    workspacesReadOwn, workspacesWriteOwn, workspacesReadAll, workspacesWriteAll,
    volumesReadOwn, volumesWriteOwn, volumesReadAll, volumesWriteAll, auditRead, adminAccess]

def parse (text : String) : Option Permission := (allPermissions ++ [all]).find? fun p => p.text = text

def implications : Permission → List Permission
  | all => allPermissions
  | serversReadAll => [serversReadOwn]
  | serversWriteAll => [serversWriteOwn, serversReadAll, serversReadOwn]
  | serversAccessOthers => [serversReadAll, serversReadOwn]
  | volumesReadAll => [volumesReadOwn]
  | volumesWriteAll => [volumesWriteOwn, volumesReadAll, volumesReadOwn]
  | workspacesReadAll => [workspacesReadOwn]
  | workspacesWriteAll => [workspacesWriteOwn, workspacesReadAll, workspacesReadOwn]
  | creditsReadAll => [creditsReadOwn]
  | _ => []

end Permission

open Permission

def expandOnce (result : List Permission) : List Permission :=
  result ++ (result.flatMap implications).filter fun p => p ∉ result

def expandUntil : Nat → List Permission → List Permission
  | 0, result => result
  | passes + 1, result =>
    if expandOnce result = result then result else expandUntil passes (expandOnce result)

def expandPermissions (permissions : List Permission) : List Permission :=
  expandUntil (allPermissions.length + 1) permissions

inductive Role
  | superAdmin
  | admin
  | moderator
  | support
  | user
  | guest
  deriving DecidableEq

namespace Role

def text : Role → String
  | superAdmin => "super_admin"
  | admin => "admin"
  | moderator => "moderator"
  | support => "support"
  | user => "user"
  | guest => "guest"

def validRoles : List Role := [superAdmin, admin, moderator, support, user, guest]

def parse (text : String) : Option Role := validRoles.find? fun r => r.text = text

def hierarchy : Role → Int
  | superAdmin => 5
  | admin => 4
  | moderator => 3
  | support => 2
  | user => 1
  | guest => 0

theorem parse_text (r : Role) : parse r.text = some r := by
  cases r <;> decide

end Role

/-- The level of a role by its name; an unknown one is below all others. -/
def getRoleLevel (role : String) : Int := ((Role.parse role).map Role.hierarchy).getD (-1)

theorem getRoleLevel_of_parse {role : String} {r : Role} (h : Role.parse role = some r) :
    getRoleLevel role = r.hierarchy := by
  rw [getRoleLevel, h, Option.map_some, Option.getD_some]

/-- `ROLE_PERMISSIONS`, as the running process holds it. -/
abbrev PermissionTable := Role → List Permission

def defaultRolePermissions : PermissionTable
  | .superAdmin => [all]
  | .admin =>
    [usersRead, usersCreate, usersUpdate, usersDelete, usersImpersonate, serversReadAll, serversWriteAll,
      environmentCreate, environmentRead, environmentUpdate, environmentDelete,
      planCreate, planRead, planUpdate, planDelete, quotaRead, quotaUpdate,
      creditsReadOwn, creditsReadAll, creditsGrant, creditsDeduct, analyticsReadOwn, analyticsRead,
      workspacesReadAll, workspacesWriteAll, volumesReadAll, volumesWriteAll, auditRead, adminAccess]
  | .moderator =>
    [usersRead, usersCreate, usersUpdate, serversReadAll, serversWriteAll,
      environmentCreate, environmentRead, environmentUpdate, environmentDelete,
      planCreate, planRead, planUpdate, planDelete, quotaRead, quotaUpdate,
      creditsReadAll, creditsGrant, creditsDeduct,
      workspacesReadAll, workspacesWriteAll, volumesReadAll, volumesWriteAll, auditRead]
  | .support =>
    [usersRead, serversWriteOwn, serversReadAll, environmentRead, planRead, quotaRead,
      creditsReadOwn, creditsReadAll, creditsGrant, analyticsReadOwn, analyticsRead,
      workspacesWriteOwn, workspacesReadAll, volumesWriteOwn, volumesReadAll]
  | .user =>
    [serversReadOwn, serversWriteOwn, volumesReadOwn, volumesWriteOwn, workspacesReadOwn, workspacesWriteOwn,
      environmentRead, planRead, creditsReadOwn, analyticsReadOwn]
  | .guest => [serversReadOwn, volumesReadOwn]

def getExpandedRolePermissions (table : PermissionTable) (role : Role) : List Permission :=
  expandPermissions (table role)

end NukeLab.Roles
