import NukeLab.Administration
import NukeLab.Machine

namespace NukeLab.Workspaces

open Administration (PathId)
open Machine Records State Tables

structure SharedWorkspace where
  id : Uuid
  ownerId : Uuid
  isActive : Bool

structure WorkspaceMember where
  workspaceId : Uuid
  userId : Uuid
  role : String

def WorkspaceMember.key (member : WorkspaceMember) : Uuid × Uuid := (member.workspaceId, member.userId)

theorem WorkspaceMember.key_eq (member : WorkspaceMember) (role : String) : { member with role := role }.key = member.key :=
  rfl

structure WorkspaceInvitation where
  id : Uuid
  workspaceId : Uuid
  userId : Uuid
  invitedBy : Uuid
  role : String
  status : String
  expiresAt : Option Instant

def WorkspaceInvitation.key (invitation : WorkspaceInvitation) : Uuid × Uuid :=
  (invitation.workspaceId, invitation.userId)

structure Site where
  now : Instant
  users : List Uuid
  workspaces : Table SharedWorkspace.id
  members : Table WorkspaceMember.key
  invitations : Table WorkspaceInvitation.key
  /-- of the next row that gets an id of its own -/
  nextId : Uuid

abbrev Reply := Except Raise Unit × Site

def refuse (s : Site) (status : Nat) (detail : String) : Reply := (.error (.http status detail), s)

def integrityError (s : Site) : Reply := (.error (.exception "IntegrityError"), s)

/-- The text is the one that `str` gives for the id. -/
def spells (userId : PathId) (id : Uuid) : Bool := userId.canonical && userId.id = id

def isMember (s : Site) (workspaceId userId : Uuid) : Bool := (s.members.find (workspaceId, userId)).isSome

def isPending (s : Site) (workspaceId userId : Uuid) : Bool :=
  (s.invitations.find (workspaceId, userId)).any fun i => i.status = "pending"

def canManageWorkspace (s : Site) (workspaceId userId : Uuid) : Bool :=
  (s.workspaces.find workspaceId).any fun w =>
    w.ownerId = userId ∨ (s.members.find (workspaceId, userId)).any fun m => m.role = "admin"

/-- The owner, a member, or one who has a pending invitation. -/
def canViewWorkspace (s : Site) (workspaceId userId : Uuid) : Bool :=
  (s.workspaces.find workspaceId).any fun w =>
    w.ownerId = userId ∨ isMember s workspaceId userId ∨ isPending s workspaceId userId

def listWorkspaces (s : Site) (userId : Uuid) : List SharedWorkspace :=
  s.workspaces.rows.filter fun w =>
    (w.ownerId = userId ∨ isMember s w.id userId ∨ isPending s w.id userId) ∧ w.isActive

/-- The workspace is committed before its owner becomes a member. -/
def createWorkspace (actor : Uuid) (s : Site) : Reply :=
  (.ok (),
    { s with
      workspaces := s.workspaces.insert ⟨s.nextId, actor, true⟩
      members := s.members.insert ⟨s.nextId, actor, "admin"⟩
      nextId := s.nextId + 1 })

def updateWorkspace (actor workspaceId : Uuid) (isActive : Option Bool) (s : Site) : Reply :=
  if (s.workspaces.find workspaceId).isNone then refuse s 404 "Workspace not found"
  else if ¬ canManageWorkspace s workspaceId actor then
    refuse s 403 "You don't have permission to update this workspace"
  else
    (.ok (),
      { s with
        workspaces :=
          s.workspaces.modify workspaceId (fun w => { w with isActive := isActive.getD w.isActive }) fun _ => rfl })

/-- Called by no endpoint. -/
def addMember (workspaceId userId : Uuid) (role : String) (s : Site) : Reply :=
  if isMember s workspaceId userId then (.ok (), s)
  else if (s.workspaces.find workspaceId).isNone ∨ userId ∉ s.users then integrityError s
  else (.ok (), { s with members := s.members.insert ⟨workspaceId, userId, role⟩ })

def removeMember (actor workspaceId : Uuid) (userId : PathId) (s : Site) : Reply :=
  match s.workspaces.find workspaceId with
  | none => refuse s 404 "Workspace not found"
  | some workspace =>
    if ¬ spells userId actor ∧ ¬ canManageWorkspace s workspaceId actor then
      refuse s 403 "You don't have permission to remove members from this workspace"
    else if spells userId workspace.ownerId then
      refuse s 400 "Cannot remove the owner from the workspace. Transfer ownership first."
    else if ¬ isMember s workspaceId userId.id then refuse s 404 "Member not found"
    else (.ok (), { s with members := s.members.erase (workspaceId, userId.id) })

def validRole (role : String) : Bool := role = "read_only" ∨ role = "read_write" ∨ role = "admin"

def withRole (s : Site) (workspaceId userId : Uuid) (role : String) : Site :=
  { s with
    members := s.members.modify (workspaceId, userId) (fun m => { m with role := role }) fun m => m.key_eq role }

def updateMemberRole (actor workspaceId : Uuid) (userId : PathId) (role : String) (s : Site) : Reply :=
  match s.workspaces.find workspaceId with
  | none => refuse s 404 "Workspace not found"
  | some workspace =>
    if ¬ canManageWorkspace s workspaceId actor then
      refuse s 403 "You don't have permission to update member roles in this workspace"
    else if ¬ validRole role then refuse s 400 "Invalid role. Must be: read_only, read_write, admin"
    else if spells userId workspace.ownerId then
      refuse s 400 "Cannot change the owner's role. Transfer ownership first."
    else if ¬ isMember s workspaceId userId.id then refuse s 404 "Member not found"
    else (.ok (), withRole s workspaceId userId.id role)

/-- An invitation that is no longer pending is used again. -/
def inviteMember (actor workspaceId userId : Uuid) (role : String) (s : Site) : Reply :=
  if (s.workspaces.find workspaceId).isNone then refuse s 404 "Workspace not found"
  else if ¬ canManageWorkspace s workspaceId actor then
    refuse s 403 "You don't have permission to invite members to this workspace"
  else if ¬ validRole role then refuse s 400 "Invalid role. Must be: read_only, read_write, admin"
  else if isMember s workspaceId userId then refuse s 400 "User is already a member of this workspace"
  else
    match s.invitations.find (workspaceId, userId) with
    | some existing =>
      if existing.status = "pending" then (.ok (), s)
      else
        (.ok (),
          { s with
            invitations :=
              s.invitations.modify (workspaceId, userId) (fun i =>
                { i with
                  status := "pending"
                  role := role
                  invitedBy := actor
                  expiresAt := some (s.now + 7 * day) }) fun _ => rfl })
    | none =>
      if userId ∉ s.users then integrityError s
      else
        (.ok (),
          { s with
            invitations :=
              s.invitations.insert ⟨s.nextId, workspaceId, userId, actor, role, "pending", some (s.now + 7 * day)⟩
            nextId := s.nextId + 1 })

def withStatus (s : Site) (invitation : WorkspaceInvitation) (status : String) : Site :=
  { s with invitations := s.invitations.modify invitation.key (fun i => { i with status := status }) fun _ => rfl }

def pendingInvitation (s : Site) (invitationId userId : Uuid) : Option WorkspaceInvitation :=
  s.invitations.rows.find? fun i => i.id = invitationId ∧ i.userId = userId ∧ i.status = "pending"

def WorkspaceInvitation.unexpired (invitation : WorkspaceInvitation) (now : Instant) : Bool :=
  invitation.expiresAt.all fun expiresAt => now ≤ expiresAt

def acceptInvitation (actor invitationId : Uuid) (s : Site) : Reply :=
  match pendingInvitation s invitationId actor with
  | none => refuse s 400 "Invitation not found or already processed"
  | some invitation =>
    if ¬ invitation.unexpired s.now then refuse (withStatus s invitation "expired") 400 "Invitation has expired"
    else if isMember s invitation.workspaceId actor then integrityError s
    else
      (.ok (),
        { withStatus s invitation "accepted" with
          members := s.members.insert ⟨invitation.workspaceId, actor, invitation.role⟩ })

def rejectInvitation (actor invitationId : Uuid) (s : Site) : Reply :=
  match pendingInvitation s invitationId actor with
  | none => refuse s 400 "Invitation not found or already processed"
  | some invitation => (.ok (), withStatus s invitation "rejected")

def cancelInvitation (actor invitationId : Uuid) (s : Site) : Reply :=
  match s.invitations.rows.find? fun i => i.id = invitationId ∧ i.status = "pending" with
  | none => refuse s 404 "Invitation not found"
  | some invitation =>
    if invitation.invitedBy ≠ actor ∧ ¬ (s.workspaces.find invitation.workspaceId).any fun w => w.ownerId = actor then
      refuse s 403 "You don't have permission to cancel this invitation."
    else (.ok (), { s with invitations := s.invitations.erase invitation.key })

def leaveWorkspace (actor workspaceId : Uuid) (s : Site) : Reply :=
  match s.workspaces.find workspaceId with
  | none => refuse s 404 "Workspace not found"
  | some workspace =>
    if workspace.ownerId ≠ actor ∧ ¬ isMember s workspaceId actor then
      refuse s 403 "You are not a member of this workspace"
    else if workspace.ownerId = actor then refuse s 400 "Owner must transfer ownership before leaving"
    else (.ok (), { s with members := s.members.erase (workspaceId, actor) })

/-- The old owner stays a member, and both become admins. -/
def transferOwnership (actor workspaceId : Uuid) (newOwnerId : PathId) (s : Site) : Reply :=
  match s.workspaces.find workspaceId with
  | none => refuse s 404 "Workspace not found"
  | some workspace =>
    if workspace.ownerId ≠ actor then refuse s 403 "You don't have permission to transfer ownership."
    else if spells newOwnerId actor then refuse s 400 "Cannot transfer ownership to yourself"
    else if ¬ isMember s workspaceId newOwnerId.id then refuse s 400 "Target user must be a workspace member"
    else
      let kept :=
        if isMember s workspaceId actor then withRole s workspaceId actor "admin"
        else { s with members := s.members.insert ⟨workspaceId, actor, "admin"⟩ }
      (.ok (),
        { withRole kept workspaceId newOwnerId.id "admin" with
          workspaces := s.workspaces.modify workspaceId (fun w => { w with ownerId := newOwnerId.id }) fun _ => rfl })

inductive Request
  | create
  | update (workspaceId : Uuid) (isActive : Option Bool)
  | view (workspaceId : Uuid)
  | list
  | add (workspaceId userId : Uuid) (role : String)
  | remove (workspaceId : Uuid) (userId : PathId)
  | updateRole (workspaceId : Uuid) (userId : PathId) (role : String)
  | invite (workspaceId userId : Uuid) (role : String)
  | accept (invitationId : Uuid)
  | reject (invitationId : Uuid)
  | cancel (invitationId : Uuid)
  | leave (workspaceId : Uuid)
  | transfer (workspaceId : Uuid) (newOwnerId : PathId)

def handle (actor : Uuid) : Request → Site → Reply
  | .create, s => createWorkspace actor s
  | .update workspaceId isActive, s => updateWorkspace actor workspaceId isActive s
  | .view _, s => (.ok (), s)
  | .list, s => (.ok (), s)
  | .add workspaceId userId role, s => addMember workspaceId userId role s
  | .remove workspaceId userId, s => removeMember actor workspaceId userId s
  | .updateRole workspaceId userId role, s => updateMemberRole actor workspaceId userId role s
  | .invite workspaceId userId role, s => inviteMember actor workspaceId userId role s
  | .accept invitationId, s => acceptInvitation actor invitationId s
  | .reject invitationId, s => rejectInvitation actor invitationId s
  | .cancel invitationId, s => cancelInvitation actor invitationId s
  | .leave workspaceId, s => leaveWorkspace actor workspaceId s
  | .transfer workspaceId newOwnerId, s => transferOwnership actor workspaceId newOwnerId s

inductive Event
  | request (actor : Uuid) (request : Request)
  | wait (duration : Nat)

def step : Step Site Event := fun s event =>
  match event with
  | .request actor request => some (handle actor request s).2
  | .wait duration => some { s with now := s.now + duration }

def started (now : Instant) (users : List Uuid) : Site := ⟨now, users, .empty _, .empty _, .empty _, 1⟩

end NukeLab.Workspaces
