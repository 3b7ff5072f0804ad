import NukeLab.Roles

namespace NukeLab.Routes

open Roles

inductive Verb
  | get
  | post
  | put
  | patch
  | delete
  deriving DecidableEq

/-- What an API token is issued for, written `resource:action`. -/
structure Scope where
  resource : String
  action : String
  deriving DecidableEq

def Scope.text (scope : Scope) : String := scope.resource ++ ":" ++ scope.action

inductive Dependency
  | currentUser
  | permissions (any : List Permission)
  | jwtAuth
  | scopes (required : List Scope)
  deriving DecidableEq

def Dependency.isScopes : Dependency → Bool
  | .scopes _ => true
  | _ => false

structure Route where
  verb : Verb
  path : String
  dependencies : List Dependency
  deriving DecidableEq

def authRouter : List Route :=
  [⟨.get, "/auth/me", [.currentUser]⟩,
    ⟨.post, "/auth/oauth/sync", [.currentUser, .jwtAuth]⟩]

def usersRouter : List Route :=
  [⟨.get, "/users/discover", [.currentUser]⟩,
    ⟨.get, "/users/me/profile", [.currentUser]⟩,
    ⟨.put, "/users/me/profile", [.currentUser]⟩,
    ⟨.post, "/users/me/avatar", [.currentUser]⟩,
    ⟨.post, "/users/me/change-password", [.currentUser]⟩,
    ⟨.get, "/users/{user_id}/profile", [.currentUser]⟩,
    ⟨.get, "/users/", [.jwtAuth, .permissions [.usersRead]]⟩,
    ⟨.post, "/users/", [.jwtAuth, .permissions [.usersCreate]]⟩,
    ⟨.get, "/users/{user_id}", [.currentUser]⟩,
    ⟨.put, "/users/{user_id}", [.currentUser]⟩,
    ⟨.delete, "/users/{user_id}", [.jwtAuth, .permissions [.usersDelete]]⟩,
    ⟨.post, "/users/{user_id}/disable", [.jwtAuth, .permissions [.usersUpdate]]⟩,
    ⟨.post, "/users/{user_id}/impersonate", [.jwtAuth, .permissions [.usersImpersonate]]⟩,
    ⟨.get, "/users/{user_id}/servers", [.currentUser]⟩,
    ⟨.get, "/users/{user_id}/resources", [.currentUser]⟩,
    ⟨.get, "/users/me/activity", [.currentUser]⟩]

def serversRouter : List Route :=
  [⟨.post, "/servers/", [.currentUser, .permissions [.serversWriteOwn]]⟩,
    ⟨.get, "/servers/", [.currentUser, .permissions [.serversReadOwn, .serversReadAll]]⟩,
    ⟨.get, "/servers/{server_id}", [.currentUser, .permissions [.serversReadOwn, .serversReadAll]]⟩,
    ⟨.get, "/servers/by-path/{username}/{server_name}",
      [.currentUser, .permissions [.serversReadOwn, .serversReadAll]]⟩,
    ⟨.post, "/servers/{server_id}/start", [.currentUser, .permissions [.serversWriteOwn]]⟩,
    ⟨.post, "/servers/{server_id}/stop", [.currentUser, .permissions [.serversWriteOwn]]⟩,
    ⟨.post, "/servers/{server_id}/restart", [.currentUser, .permissions [.serversWriteOwn]]⟩,
    ⟨.delete, "/servers/{server_id}", [.currentUser, .permissions [.serversWriteOwn]]⟩,
    ⟨.get, "/servers/{server_id}/volumes", [.currentUser, .permissions [.serversReadOwn, .serversReadAll]]⟩,
    ⟨.patch, "/servers/{server_id}", [.currentUser, .permissions [.serversWriteAll]]⟩,
    ⟨.post, "/servers/{server_id}/test-metric", [.currentUser, .permissions [.serversReadOwn, .serversReadAll]]⟩,
    ⟨.post, "/servers/{server_id}/activity", [.currentUser, .permissions [.serversWriteOwn]]⟩,
    ⟨.get, "/servers/{server_id}/queue-status", [.currentUser, .permissions [.serversReadOwn, .serversReadAll]]⟩,
    ⟨.get, "/servers/{server_id}/logs", [.currentUser, .permissions [.serversReadOwn, .serversReadAll]]⟩,
    ⟨.get, "/servers/{server_id}/tasks", [.currentUser, .permissions [.serversReadOwn, .serversReadAll]]⟩,
    ⟨.post, "/servers/{server_id}/access-token", [.currentUser, .permissions [.serversWriteOwn]]⟩,
    ⟨.get, "/servers/{server_id}/access-stats", [.currentUser, .permissions [.serversReadOwn, .serversReadAll]]⟩]

def tokensRouter : List Route :=
  [⟨.get, "/tokens", [.currentUser, .jwtAuth]⟩,
    ⟨.post, "/tokens", [.currentUser, .jwtAuth]⟩,
    ⟨.get, "/tokens/{token_id}", [.currentUser, .jwtAuth]⟩,
    ⟨.delete, "/tokens/{token_id}", [.currentUser, .jwtAuth]⟩,
    ⟨.delete, "/tokens/{token_id}/permanent", [.currentUser, .jwtAuth]⟩,
    ⟨.post, "/tokens/{token_id}/regenerate", [.currentUser, .jwtAuth]⟩,
    ⟨.get, "/tokens/{token_id}/usage", [.currentUser, .jwtAuth]⟩]

def creditsRouter : List Route :=
  [⟨.get, "/credits/", [.currentUser, .permissions [.creditsReadOwn, .creditsReadAll]]⟩,
    ⟨.get, "/credits/history", [.currentUser, .permissions [.creditsReadOwn, .creditsReadAll]]⟩,
    ⟨.put, "/credits/users/{user_id}/daily-allowance", [.permissions [.creditsGrant], .jwtAuth]⟩,
    ⟨.put, "/credits/users/{user_id}/allowance-override", [.permissions [.creditsGrant], .jwtAuth]⟩,
    ⟨.delete, "/credits/users/{user_id}/allowance-override", [.permissions [.creditsGrant], .jwtAuth]⟩,
    ⟨.get, "/credits/users/{user_id}", [.permissions [.creditsReadAll], .jwtAuth]⟩,
    ⟨.get, "/credits/users/{user_id}/history", [.permissions [.creditsReadAll], .jwtAuth]⟩,
    ⟨.post, "/credits/users/{user_id}/grant", [.permissions [.creditsGrant], .jwtAuth]⟩,
    ⟨.post, "/credits/users/{user_id}/deduct", [.permissions [.creditsDeduct], .jwtAuth]⟩,
    ⟨.get, "/credits/low-balance", [.permissions [.creditsReadAll], .jwtAuth]⟩]

def creditRequestsRouter : List Route :=
  [⟨.post, "/credit-requests/", [.currentUser, .permissions [.creditsReadOwn]]⟩,
    ⟨.get, "/credit-requests/", [.currentUser, .permissions [.creditsReadOwn]]⟩,
    ⟨.get, "/credit-requests/all", [.permissions [.creditsReadAll], .jwtAuth]⟩,
    ⟨.get, "/credit-requests/pending-count", [.permissions [.creditsReadAll], .jwtAuth]⟩,
    ⟨.get, "/credit-requests/stats", [.permissions [.creditsReadAll], .jwtAuth]⟩,
    ⟨.post, "/credit-requests/bulk-review", [.permissions [.creditsGrant], .jwtAuth]⟩,
    ⟨.put, "/credit-requests/users/{user_id}/block", [.permissions [.creditsGrant], .jwtAuth]⟩,
    ⟨.post, "/credit-requests/{request_id}/approve", [.permissions [.creditsGrant], .jwtAuth]⟩,
    ⟨.post, "/credit-requests/{request_id}/reject", [.permissions [.creditsGrant], .jwtAuth]⟩,
    ⟨.post, "/credit-requests/{request_id}/cancel", [.currentUser, .permissions [.creditsReadOwn]]⟩,
    ⟨.get, "/credit-requests/{request_id}/messages", [.currentUser]⟩,
    ⟨.post, "/credit-requests/{request_id}/messages", [.currentUser]⟩]

def adminRouter : List Route :=
  [⟨.get, "/admin/stats", [.permissions [.adminAccess], .jwtAuth]⟩,
    ⟨.get, "/admin/users", [.permissions [.adminAccess], .jwtAuth]⟩,
    ⟨.post, "/admin/users/bulk-action", [.permissions [.adminAccess], .jwtAuth]⟩,
    ⟨.post, "/admin/users/{username}/revoke-tokens", [.permissions [.adminAccess], .jwtAuth]⟩,
    ⟨.get, "/admin/servers", [.permissions [.adminAccess], .jwtAuth]⟩,
    ⟨.post, "/admin/servers/bulk-action", [.permissions [.adminAccess], .jwtAuth]⟩,
    ⟨.get, "/admin/credits/default-allowance", [.permissions [.adminAccess], .jwtAuth]⟩,
    ⟨.put, "/admin/credits/default-allowance", [.permissions [.adminAccess], .jwtAuth]⟩,
    ⟨.get, "/admin/credits/max-balance", [.permissions [.adminAccess], .jwtAuth]⟩,
    ⟨.put, "/admin/credits/max-balance", [.permissions [.adminAccess], .jwtAuth]⟩,
    ⟨.get, "/admin/credits/auto-approve-max", [.permissions [.adminAccess], .jwtAuth]⟩,
    ⟨.put, "/admin/credits/auto-approve-max", [.permissions [.adminAccess], .jwtAuth]⟩,
    ⟨.get, "/admin/credits/request-cooldown-hours", [.permissions [.adminAccess], .jwtAuth]⟩,
    ⟨.put, "/admin/credits/request-cooldown-hours", [.permissions [.adminAccess], .jwtAuth]⟩,
    ⟨.get, "/admin/credits/initial-balance", [.permissions [.adminAccess], .jwtAuth]⟩,
    ⟨.put, "/admin/credits/initial-balance", [.permissions [.adminAccess], .jwtAuth]⟩,
    ⟨.get, "/admin/credits/allowance-login-window", [.permissions [.adminAccess], .jwtAuth]⟩,
    ⟨.put, "/admin/credits/allowance-login-window", [.permissions [.adminAccess], .jwtAuth]⟩,
    ⟨.get, "/admin/quotas/default-limits", [.permissions [.adminAccess], .jwtAuth]⟩,
    ⟨.put, "/admin/quotas/default-limits", [.permissions [.adminAccess], .jwtAuth]⟩,
    ⟨.post, "/admin/credits/bulk-allowance", [.permissions [.creditsGrant], .jwtAuth]⟩,
    ⟨.get, "/admin/credits/summary", [.permissions [.adminAccess], .jwtAuth]⟩,
    ⟨.post, "/admin/credits/grant-bulk", [.permissions [.creditsGrant], .jwtAuth]⟩,
    ⟨.get, "/admin/activity", [.permissions [.adminAccess], .jwtAuth]⟩,
    ⟨.get, "/admin/system/health", [.permissions [.adminAccess], .jwtAuth]⟩,
    ⟨.get, "/admin/activity/export", [.permissions [.adminAccess], .jwtAuth]⟩,
    ⟨.get, "/admin/permissions", [.permissions [.adminAccess], .jwtAuth]⟩,
    ⟨.put, "/admin/permissions/{role}", [.permissions [.adminAccess], .jwtAuth]⟩,
    ⟨.get, "/admin/email-config", [.permissions [.adminAccess], .jwtAuth]⟩,
    ⟨.post, "/admin/email-test", [.permissions [.adminAccess], .jwtAuth]⟩,
    ⟨.get, "/admin/email-status", [.permissions [.adminAccess], .jwtAuth]⟩,
    ⟨.get, "/admin/workspaces", [.permissions [.adminAccess], .jwtAuth]⟩,
    ⟨.get, "/admin/workspaces/{workspace_id}", [.permissions [.adminAccess], .jwtAuth]⟩,
    ⟨.put, "/admin/workspaces/{workspace_id}", [.permissions [.workspacesWriteAll], .jwtAuth]⟩,
    ⟨.delete, "/admin/workspaces/{workspace_id}", [.permissions [.workspacesWriteAll], .jwtAuth]⟩,
    ⟨.get, "/admin/workspaces/{workspace_id}/members", [.permissions [.adminAccess], .jwtAuth]⟩,
    ⟨.get, "/admin/workspaces/{workspace_id}/volumes", [.permissions [.adminAccess], .jwtAuth]⟩,
    ⟨.get, "/admin/volumes", [.permissions [.adminAccess], .jwtAuth]⟩,
    ⟨.get, "/admin/volumes/{volume_id}", [.permissions [.adminAccess], .jwtAuth]⟩,
    ⟨.put, "/admin/volumes/{volume_id}", [.permissions [.volumesWriteAll], .jwtAuth]⟩,
    ⟨.delete, "/admin/volumes/{volume_id}", [.permissions [.volumesWriteAll], .jwtAuth]⟩,
    ⟨.post, "/admin/volumes/refresh-sizes", [.permissions [.adminAccess], .jwtAuth]⟩,
    ⟨.get, "/admin/retention", [.permissions [.adminAccess], .jwtAuth]⟩,
    ⟨.put, "/admin/retention", [.permissions [.adminAccess], .jwtAuth]⟩,
    ⟨.post, "/admin/workspaces/bulk-action", [.permissions [.workspacesWriteAll], .jwtAuth]⟩,
    ⟨.post, "/admin/volumes/bulk-action", [.permissions [.volumesWriteAll], .jwtAuth]⟩,
    ⟨.get, "/admin/health/monitoring", [.currentUser, .permissions [.adminAccess]]⟩]

def preferencesRouter : List Route :=
  [⟨.get, "/preferences/", [.currentUser]⟩,
    ⟨.put, "/preferences/", [.currentUser]⟩,
    ⟨.delete, "/preferences/", [.currentUser]⟩]

def environmentsRouter : List Route :=
  [⟨.get, "/environments/", [.currentUser]⟩,
    ⟨.get, "/environments/{env_id}", [.currentUser]⟩,
    ⟨.post, "/environments/", [.permissions [.environmentCreate], .jwtAuth]⟩,
    ⟨.put, "/environments/{env_id}", [.permissions [.environmentUpdate], .jwtAuth]⟩,
    ⟨.delete, "/environments/{env_id}", [.permissions [.environmentDelete], .jwtAuth]⟩,
    ⟨.delete, "/environments/{env_id}/permanent", [.permissions [.environmentDelete], .jwtAuth]⟩,
    ⟨.post, "/environments/{env_id}/activate", [.permissions [.environmentUpdate], .jwtAuth]⟩,
    ⟨.post, "/environments/{env_id}/clone", [.permissions [.environmentCreate], .jwtAuth]⟩]

def plansRouter : List Route :=
  [⟨.get, "/plans/", [.currentUser]⟩,
    ⟨.get, "/plans/{plan_id}", [.currentUser]⟩,
    ⟨.post, "/plans/", [.permissions [.planCreate], .jwtAuth]⟩,
    ⟨.put, "/plans/{plan_id}", [.permissions [.planUpdate], .jwtAuth]⟩,
    ⟨.delete, "/plans/{plan_id}", [.permissions [.planDelete], .jwtAuth]⟩,
    ⟨.delete, "/plans/{plan_id}/permanent", [.permissions [.planDelete], .jwtAuth]⟩,
    ⟨.post, "/plans/{plan_id}/activate", [.permissions [.planUpdate], .jwtAuth]⟩,
    ⟨.get, "/plans/{plan_id}/users", [.permissions [.planUpdate], .jwtAuth]⟩,
    ⟨.post, "/plans/{plan_id}/users/{user_id}", [.permissions [.planUpdate], .jwtAuth]⟩,
    ⟨.delete, "/plans/{plan_id}/users/{user_id}", [.permissions [.planUpdate], .jwtAuth]⟩,
    ⟨.get, "/plans/{plan_id}/workspaces", [.permissions [.planUpdate], .jwtAuth]⟩,
    ⟨.post, "/plans/{plan_id}/workspaces/{workspace_id}", [.permissions [.planUpdate], .jwtAuth]⟩,
    ⟨.delete, "/plans/{plan_id}/workspaces/{workspace_id}", [.permissions [.planUpdate], .jwtAuth]⟩]

def pushRouter : List Route :=
  [⟨.post, "/push/subscriptions", [.currentUser]⟩,
    ⟨.delete, "/push/subscriptions", [.currentUser]⟩]

def quotasRouter : List Route :=
  [⟨.get, "/quotas/", [.currentUser]⟩,
    ⟨.get, "/quotas/all", [.permissions [.quotaRead], .jwtAuth]⟩,
    ⟨.get, "/quotas/{user_id}", [.permissions [.quotaRead], .jwtAuth]⟩,
    ⟨.put, "/quotas/{user_id}", [.permissions [.quotaUpdate], .jwtAuth]⟩,
    ⟨.post, "/quotas/check", [.currentUser, .permissions [.quotaRead]]⟩]

def metricsRouter : List Route :=
  [⟨.get, "/metrics/servers/{server_id}", [.currentUser, .permissions [.analyticsRead]]⟩,
    ⟨.get, "/metrics/servers/{server_id}/latest", [.currentUser, .permissions [.analyticsRead]]⟩,
    ⟨.get, "/metrics/system", [.currentUser, .permissions [.analyticsRead]]⟩,
    ⟨.get, "/metrics/system/latest", [.currentUser, .permissions [.analyticsRead]]⟩,
    ⟨.get, "/metrics/alerts/rules", [.currentUser, .jwtAuth]⟩,
    ⟨.post, "/metrics/alerts/rules", [.currentUser, .jwtAuth]⟩,
    ⟨.get, "/metrics/alerts/rules/{rule_id}", [.currentUser, .jwtAuth]⟩,
    ⟨.put, "/metrics/alerts/rules/{rule_id}", [.currentUser, .jwtAuth]⟩,
    ⟨.delete, "/metrics/alerts/rules/{rule_id}", [.currentUser, .jwtAuth]⟩,
    ⟨.get, "/metrics/alerts/history", [.currentUser, .permissions [.analyticsRead]]⟩,
    ⟨.post, "/metrics/alerts/history/{alert_id}/acknowledge", [.currentUser, .jwtAuth]⟩,
    ⟨.post, "/metrics/alerts/history/{alert_id}/resolve", [.currentUser, .jwtAuth]⟩,
    ⟨.get, "/metrics/health/servers/{server_id}", [.currentUser, .permissions [.analyticsRead]]⟩,
    ⟨.get, "/metrics/health/summary", [.currentUser, .permissions [.analyticsRead]]⟩,
    ⟨.get, "/metrics/requests", [.currentUser, .permissions [.analyticsRead]]⟩]

def notificationsRouter : List Route :=
  [⟨.get, "/notifications/", [.currentUser]⟩,
    ⟨.get, "/notifications/unread-count", [.currentUser]⟩,
    ⟨.put, "/notifications/{notification_id}/read", [.currentUser]⟩,
    ⟨.put, "/notifications/read-all", [.currentUser]⟩,
    ⟨.delete, "/notifications/{notification_id}", [.currentUser]⟩,
    ⟨.post, "/notifications/bulk-delete", [.currentUser]⟩,
    ⟨.post, "/notifications/", [.currentUser]⟩]

def dashboardRouter : List Route :=
  [⟨.get, "/dashboard/", [.currentUser]⟩,
    ⟨.get, "/dashboard/activity", [.permissions [.adminAccess], .currentUser]⟩]

def bulkRouter : List Route :=
  [⟨.post, "/bulk/servers/bulk-action", [.currentUser, .jwtAuth]⟩]

def healthRouter : List Route :=
  [⟨.get, "/health/detailed", [.jwtAuth, .permissions [.adminAccess]]⟩]

def systemRouter : List Route :=
  [⟨.get, "/system/config", [.permissions [.adminAccess], .jwtAuth]⟩,
    ⟨.put, "/system/config", [.permissions [.adminAccess], .jwtAuth]⟩,
    ⟨.post, "/system/maintenance", [.permissions [.adminAccess], .jwtAuth]⟩,
    ⟨.get, "/system/stats", [.permissions [.adminAccess], .jwtAuth]⟩,
    ⟨.get, "/system/maintenance-windows", [.permissions [.adminAccess], .jwtAuth]⟩,
    ⟨.post, "/system/maintenance-windows", [.permissions [.adminAccess], .jwtAuth]⟩,
    ⟨.get, "/system/maintenance-windows/{window_id}", [.permissions [.adminAccess], .jwtAuth]⟩,
    ⟨.put, "/system/maintenance-windows/{window_id}", [.permissions [.adminAccess], .jwtAuth]⟩,
    ⟨.delete, "/system/maintenance-windows/{window_id}", [.permissions [.adminAccess], .jwtAuth]⟩]

def schedulesRouter : List Route :=
  [⟨.get, "/schedules/servers/{server_id}/schedules", [.currentUser, .permissions [.serversReadOwn]]⟩,
    ⟨.post, "/schedules/servers/{server_id}/schedules", [.currentUser, .permissions [.serversWriteAll]]⟩,
    ⟨.put, "/schedules/servers/{server_id}/schedules/{schedule_id}",
      [.currentUser, .permissions [.serversWriteAll]]⟩,
    ⟨.delete, "/schedules/servers/{server_id}/schedules/{schedule_id}",
      [.currentUser, .permissions [.serversWriteAll]]⟩]

def volumesRouter : List Route :=
  [⟨.post, "/volumes/", [.currentUser, .permissions [.volumesWriteOwn]]⟩,
    ⟨.get, "/volumes/", [.currentUser, .permissions [.volumesReadOwn, .volumesReadAll]]⟩,
    ⟨.get, "/volumes/{volume_id}", [.currentUser, .permissions [.volumesReadOwn, .volumesReadAll]]⟩,
    ⟨.put, "/volumes/{volume_id}", [.currentUser, .permissions [.volumesWriteOwn]]⟩,
    ⟨.delete, "/volumes/{volume_id}", [.currentUser, .permissions [.volumesWriteOwn]]⟩,
    ⟨.post, "/volumes/{volume_id}/refresh-size", [.currentUser, .permissions [.volumesWriteOwn]]⟩,
    ⟨.get, "/volumes/{volume_id}/files", [.currentUser, .permissions [.volumesReadOwn, .volumesReadAll]]⟩,
    ⟨.delete, "/volumes/{volume_id}/files", [.currentUser, .permissions [.volumesWriteOwn]]⟩,
    ⟨.get, "/volumes/{volume_id}/download", [.currentUser, .permissions [.volumesReadOwn, .volumesReadAll]]⟩]

def analyticsRouter : List Route :=
  [⟨.get, "/analytics/users/{user_id}/usage", [.currentUser, .permissions [.analyticsReadOwn]]⟩,
    ⟨.get, "/analytics/global", [.currentUser, .permissions [.analyticsRead]]⟩,
    ⟨.get, "/analytics/top-consumers", [.currentUser, .permissions [.analyticsRead]]⟩,
    ⟨.get, "/analytics/credit-flow", [.currentUser, .permissions [.analyticsRead]]⟩,
    ⟨.get, "/analytics/logins", [.currentUser, .permissions [.analyticsRead]]⟩,
    ⟨.get, "/analytics/user-growth", [.currentUser, .permissions [.analyticsRead]]⟩,
    ⟨.get, "/analytics/platform-metrics", [.currentUser, .permissions [.analyticsRead]]⟩,
    ⟨.get, "/analytics/volumes", [.currentUser, .permissions [.analyticsRead]]⟩,
    ⟨.get, "/analytics/workspaces", [.currentUser, .permissions [.analyticsRead]]⟩,
    ⟨.get, "/analytics/environments", [.currentUser, .permissions [.analyticsRead]]⟩,
    ⟨.get, "/analytics/plans", [.currentUser, .permissions [.analyticsRead]]⟩,
    ⟨.post, "/analytics/export", [.currentUser, .permissions [.analyticsRead]]⟩]

def workspacesRouter : List Route :=
  [⟨.get, "/workspaces/", [.currentUser, .permissions [.workspacesReadOwn, .workspacesReadAll]]⟩,
    ⟨.post, "/workspaces/", [.currentUser, .permissions [.workspacesWriteOwn]]⟩,
    ⟨.get, "/workspaces/{workspace_id}", [.currentUser, .permissions [.workspacesReadOwn, .workspacesReadAll]]⟩,
    ⟨.put, "/workspaces/{workspace_id}", [.currentUser, .permissions [.workspacesWriteOwn]]⟩,
    ⟨.delete, "/workspaces/{workspace_id}", [.currentUser, .permissions [.workspacesWriteOwn]]⟩,
    ⟨.post, "/workspaces/{workspace_id}/leave", [.currentUser, .permissions [.workspacesWriteOwn]]⟩,
    ⟨.post, "/workspaces/{workspace_id}/transfer", [.currentUser, .permissions [.workspacesWriteOwn]]⟩,
    ⟨.get, "/workspaces/{workspace_id}/activity",
      [.currentUser, .permissions [.workspacesReadOwn, .workspacesReadAll]]⟩,
    ⟨.post, "/workspaces/{workspace_id}/volumes", [.currentUser, .permissions [.workspacesWriteOwn]]⟩,
    ⟨.delete, "/workspaces/{workspace_id}/volumes/{volume_id}", [.currentUser, .permissions [.workspacesWriteOwn]]⟩,
    ⟨.put, "/workspaces/{workspace_id}/volumes/{volume_id}", [.currentUser, .permissions [.workspacesWriteOwn]]⟩,
    ⟨.post, "/workspaces/{workspace_id}/invitations", [.currentUser, .permissions [.workspacesWriteOwn]]⟩,
    ⟨.post, "/workspaces/{workspace_id}/invitations/{invitation_id}/accept",
      [.currentUser, .permissions [.workspacesWriteOwn]]⟩,
    ⟨.post, "/workspaces/{workspace_id}/invitations/{invitation_id}/reject",
      [.currentUser, .permissions [.workspacesWriteOwn]]⟩,
    ⟨.delete, "/workspaces/{workspace_id}/invitations/{invitation_id}",
      [.currentUser, .permissions [.workspacesWriteOwn]]⟩,
    ⟨.get, "/workspaces/{workspace_id}/invitations",
      [.currentUser, .permissions [.workspacesReadOwn, .workspacesReadAll]]⟩,
    ⟨.get, "/workspaces/{workspace_id}/members",
      [.currentUser, .permissions [.workspacesReadOwn, .workspacesReadAll]]⟩,
    ⟨.get, "/workspaces/{workspace_id}/volumes",
      [.currentUser, .permissions [.workspacesReadOwn, .workspacesReadAll]]⟩,
    ⟨.delete, "/workspaces/{workspace_id}/members/{user_id}", [.currentUser, .permissions [.workspacesWriteOwn]]⟩,
    ⟨.put, "/workspaces/{workspace_id}/members/{user_id}", [.currentUser, .permissions [.workspacesWriteOwn]]⟩]

def searchRouter : List Route :=
  [⟨.get, "/search/", [.currentUser]⟩]

def ipRestrictionRouter : List Route :=
  [⟨.get, "/admin/ip-restrictions", [.permissions [.adminAccess], .jwtAuth]⟩,
    ⟨.post, "/admin/ip-restrictions", [.permissions [.adminAccess], .jwtAuth]⟩,
    ⟨.delete, "/admin/ip-restrictions/{restriction_id}", [.permissions [.adminAccess], .jwtAuth]⟩]

/-- The endpoints that take a bearer credential, as the application mounts them. -/
def routes : List Route :=
  [authRouter, usersRouter, serversRouter, tokensRouter, creditsRouter, creditRequestsRouter,
    adminRouter, preferencesRouter, environmentsRouter, plansRouter, pushRouter, quotasRouter,
    metricsRouter, notificationsRouter, dashboardRouter, bulkRouter, healthRouter, systemRouter,
    schedulesRouter, volumesRouter, analyticsRouter, workspacesRouter, searchRouter,
    ipRestrictionRouter].flatten

theorem no_scopes {route : Route} (h : route ∈ routes) {d : Dependency} (hd : d ∈ route.dependencies) :
    d.isScopes = false := by
  have hall : (routes.all fun route => route.dependencies.all fun d => !d.isScopes) = true := by
    decide +kernel
  have hroute := List.all_eq_true.mp hall route h
  simpa using List.all_eq_true.mp hroute d hd

end NukeLab.Routes
