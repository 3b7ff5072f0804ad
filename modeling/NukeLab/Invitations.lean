import NukeLab.WorkspaceOwners

namespace NukeLab.Invitations

open Machine Records Tables Workspaces WorkspaceOwners

def usable (s : Site) (workspaceId userId : Uuid) : Bool :=
  (s.invitations.find (workspaceId, userId)).any fun i => i.status = "pending" ∧ i.unexpired s.now

def stale (s : Site) (workspaceId userId : Uuid) : Bool :=
  (s.invitations.find (workspaceId, userId)).any fun i => i.status = "pending" ∧ ¬ i.unexpired s.now

def isOwner (s : Site) (workspaceId userId : Uuid) : Bool :=
  (s.workspaces.find workspaceId).any fun w => w.ownerId = userId

def Entitled (s : Site) (workspaceId userId : Uuid) : Prop :=
  isOwner s workspaceId userId ∨ isMember s workspaceId userId ∨ usable s workspaceId userId

/-- What a request shows, whom it lets in and what an invitation is good for. -/
def Lawful (s : Site) : Event → Prop
  | .request actor (.view workspaceId) => canViewWorkspace s workspaceId actor = true → Entitled s workspaceId actor
  | .request actor .list => ∀ w ∈ listWorkspaces s actor, Entitled s w.id actor
  | .request actor (.accept invitationId) =>
    ∀ workspaceId, isMember (acceptInvitation actor invitationId s).2 workspaceId actor →
      isMember s workspaceId actor ∨ usable s workspaceId actor
  | .request actor (.invite workspaceId userId role) =>
    (inviteMember actor workspaceId userId role s).1.isOk →
      usable (inviteMember actor workspaceId userId role s).2 workspaceId userId
  | _ => True

def OnePending (s : Site) : Prop :=
  ∀ i ∈ s.invitations.rows, ∀ j ∈ s.invitations.rows, i.status = "pending" → j.status = "pending" →
    i.workspaceId = j.workspaceId → i.userId = j.userId → i = j

/-- No one looks in, or is invited once more, on an invitation that is pending and has run out. -/
def Current (s : Site) : Event → Prop
  | .request actor (.view workspaceId) =>
    (s.workspaces.find workspaceId).isSome → stale s workspaceId actor = true →
      isOwner s workspaceId actor ∨ isMember s workspaceId actor
  | .request actor .list =>
    ∀ w ∈ s.workspaces.rows, w.isActive = true → stale s w.id actor = true →
      isOwner s w.id actor ∨ isMember s w.id actor
  | .request actor (.invite workspaceId userId role) =>
    canManageWorkspace s workspaceId actor = true → validRole role = true → isMember s workspaceId userId = false →
      stale s workspaceId userId = false
  | _ => True

section Sites

variable {s : Site} {actor workspaceId userId invitationId : Uuid} {role : String}

theorem onePending (s : Site) : OnePending s := fun _ hi _ hj _ _ hworkspace huser =>
  Table.eq_of_mem_of_key hi hj (Prod.ext hworkspace huser)

theorem isPending_iff : isPending s workspaceId userId = true ↔
    stale s workspaceId userId = true ∨ usable s workspaceId userId = true := by
  unfold isPending stale usable
  cases s.invitations.find (workspaceId, userId) with
  | none => simp
  | some i => by_cases h : i.unexpired s.now <;> simp [h]

theorem not_usable_of_stale (h : stale s workspaceId userId = true) : ¬ usable s workspaceId userId = true := by
  unfold stale at h
  unfold usable
  cases hfind : s.invitations.find (workspaceId, userId) with
  | none => simp
  | some i =>
      rw [hfind, Option.any_some, decide_eq_true_eq] at h
      simp [h.2]

/-- Whoever is shown a workspace is entitled to it, unless what lets him see it is an invitation that ran out. -/
theorem shown_iff :
    (isOwner s workspaceId actor ∨ isMember s workspaceId actor ∨ isPending s workspaceId actor → Entitled s workspaceId actor) ↔
      (stale s workspaceId actor = true → isOwner s workspaceId actor ∨ isMember s workspaceId actor) := by
  rw [isPending_iff]
  unfold Entitled
  constructor
  · intro h hstale
    have hnot := not_usable_of_stale hstale
    have hentitled := h (.inr (.inr (.inl hstale)))
    tauto
  · tauto

theorem canViewWorkspace_iff {w : SharedWorkspace} (hfind : s.workspaces.find workspaceId = some w) :
    canViewWorkspace s workspaceId actor = true ↔
      isOwner s workspaceId actor ∨ isMember s workspaceId actor ∨ isPending s workspaceId actor := by
  unfold canViewWorkspace isOwner
  simp [hfind]

theorem lawful_view_iff : Lawful s (.request actor (.view workspaceId)) ↔ Current s (.request actor (.view workspaceId)) := by
  unfold Lawful Current
  dsimp only
  cases hfind : s.workspaces.find workspaceId with
  | none => simp [canViewWorkspace, hfind]
  | some w =>
      rw [canViewWorkspace_iff hfind, shown_iff]
      simp

theorem lawful_list_iff : Lawful s (.request actor .list) ↔ Current s (.request actor .list) := by
  unfold Lawful Current listWorkspaces
  simp only [List.mem_filter, decide_eq_true_eq, and_imp]
  refine forall_congr' fun w => forall_congr' fun hw => ?_
  have howner : w.ownerId = actor ↔ isOwner s w.id actor = true := by
    rw [isOwner, Table.find_of_mem hw]
    simp
  rw [howner]
  by_cases hactive : w.isActive = true
  · simp only [hactive, forall_true_left]
    rw [← shown_iff]
  · simp [hactive]

theorem lawful_accept : Lawful s (.request actor (.accept invitationId)) := by
  intro workspaceId hmember
  unfold acceptInvitation at hmember
  cases hfind : pendingInvitation s invitationId actor with
  | none =>
      rw [hfind] at hmember
      exact .inl hmember
  | some invitation =>
      rw [hfind] at hmember
      dsimp only at hmember
      split at hmember
      next => exact .inl hmember
      next hunexpired =>
        split at hmember
        next => exact .inl hmember
        next =>
          obtain ⟨m, hm⟩ := Option.isSome_iff_exists.mp hmember
          rcases Table.mem_or_eq_of_mem_insert (Table.mem_of_find hm) with hold | rfl
          · left
            rw [isMember, ← Table.key_of_find hm, Table.find_of_mem hold]
            rfl
          · right
            have hpending := List.find?_some hfind
            have hjoined := Table.key_of_find hm
            have hkey : invitation.key = (workspaceId, actor) := by
              rw [WorkspaceInvitation.key, (of_decide_eq_true hpending).2.1]
              exact hjoined
            rw [usable, ← hkey, Table.find_of_mem (mem_of_pendingInvitation hfind), Option.any_some]
            exact decide_eq_true ⟨(of_decide_eq_true hpending).2.2, not_not.mp hunexpired⟩

theorem week_ahead (now : Instant) : now ≤ now + 7 * day := Int.le_add_of_nonneg_right (by decide)

theorem lawful_invite_iff : Lawful s (.request actor (.invite workspaceId userId role)) ↔
    Current s (.request actor (.invite workspaceId userId role)) := by
  unfold Lawful Current inviteMember
  dsimp only
  split
  next hworkspace =>
    have hunmanaged : canManageWorkspace s workspaceId actor = false := by
      simp [canManageWorkspace, Option.isNone_iff_eq_none.mp hworkspace]
    simp [refuse, Except.isOk, Except.toBool, hunmanaged]
  next =>
    split
    next hunmanaged => simp [refuse, Except.isOk, Except.toBool, hunmanaged]
    next hmanaged =>
      split
      next hinvalid => simp [refuse, Except.isOk, Except.toBool, hinvalid]
      next hvalid =>
        split
        next hmember => simp [refuse, Except.isOk, Except.toBool, hmember]
        next hmember =>
          rw [not_not] at hmanaged hvalid
          have hcurrent : (canManageWorkspace s workspaceId actor = true → validRole role = true →
              isMember s workspaceId userId = false → stale s workspaceId userId = false) ↔
              stale s workspaceId userId = false := by simp [hmanaged, hvalid, hmember]
          rw [hcurrent]
          split
          next existing hfind =>
            split
            next hpending =>
              -- returned as it is, whether it has run out or not
              have hwas : isPending s workspaceId userId = true := by simp [isPending, hfind, hpending]
              constructor
              · intro husable
                exact Bool.eq_false_iff.mpr fun hstale => not_usable_of_stale hstale (husable rfl)
              · intro hfresh _
                exact (isPending_iff.mp hwas).resolve_left (Bool.eq_false_iff.mp hfresh)
            next hsettled =>
              refine iff_of_true (fun _ => ?_) (by simp [stale, hfind, hsettled])
              have hagain := Table.find_modify_self (fun i : WorkspaceInvitation =>
                { i with
                  status := "pending"
                  role := role
                  invitedBy := actor
                  expiresAt := some (s.now + 7 * day) }) (fun _ => rfl) hfind
              exact (congrArg (Option.any _) hagain).trans (decide_eq_true ⟨rfl, decide_eq_true (week_ahead s.now)⟩)
          next hfind =>
            have hfresh : stale s workspaceId userId = false := by simp [stale, hfind]
            split
            next => simp [integrityError, Except.isOk, Except.toBool, hfresh]
            next =>
              refine iff_of_true (fun _ => ?_) hfresh
              have hnew := Table.find_insert_self (t := s.invitations)
                (r := ⟨s.nextId, workspaceId, userId, actor, role, "pending", some (s.now + 7 * day)⟩) hfind
              exact (congrArg (Option.any _) hnew).trans (decide_eq_true ⟨rfl, decide_eq_true (week_ahead s.now)⟩)

theorem lawful_iff (s : Site) (event : Event) : Lawful s event ↔ Current s event := by
  cases event with
  | wait => exact Iff.rfl
  | request actor request =>
      cases request with
      | view workspaceId => exact lawful_view_iff
      | list => exact lawful_list_iff
      | accept invitationId => exact iff_of_true lawful_accept trivial
      | invite workspaceId userId role => exact lawful_invite_iff
      | _ => exact Iff.rfl

end Sites

/-- Invitations let in, show and are renewed as they should exactly where none
that has run out is still pending when it is looked in on or sent again; there
is one of them, and one membership, for each workspace and user in every run. -/
theorem invitations_lawful_iff (s : Site) (events : List Event) :
    (AllSteps step Lawful s events ∧ AllStates step (fun s => OnePending s ∧ OneMembership s) s events) ↔
      AllSteps step Current s events := by
  have hone : AllStates step (fun s => OnePending s ∧ OneMembership s) s events :=
    allStates_of_steps (fun _ _ t _ _ => ⟨onePending t, oneMembership t⟩) ⟨onePending s, oneMembership s⟩
  have hlawful : AllSteps step Lawful s events ↔ AllSteps step Current s events :=
    allSteps_congr (fun s event _ _ _ => lawful_iff s event) hone
  rw [hlawful]
  exact and_iff_left hone

section Team

/-- Bob is invited, and eight days later looks in. -/
theorem stale_invitation_shows :
    ¬ ∀ (s : Site) (events : List Event),
      AllSteps step Lawful s events ∧ AllStates step (fun s => OnePending s ∧ OneMembership s) s events := by
  intro h
  have hrun := (h (started 0 [1, 2])
    [.request 1 .create, .request 1 (.invite 1 2 "read_only"), .wait (8 * day).toNat, .request 2 (.view 1)]).1
  have hview := ((((hrun _ rfl).2 _ rfl).2 _ rfl).2 _ rfl).1
  exact absurd (hview (by decide +kernel)) (by unfold Entitled; decide +kernel)

end Team

end NukeLab.Invitations
