import NukeLab.Workspaces

namespace NukeLab.WorkspaceOwners

open Administration (PathId)
open Machine Records Tables Workspaces

def OwnersAdmins (s : Site) : Prop :=
  ∀ w ∈ s.workspaces.rows, ∃ m, s.members.find (w.id, w.ownerId) = some m ∧ m.role = "admin"

def OneMembership (s : Site) : Prop :=
  ∀ m ∈ s.members.rows, ∀ n ∈ s.members.rows, m.workspaceId = n.workspaceId → m.userId = n.userId → m = n

def OwnerKept (s : Site) : Event → Prop
  | .request actor request =>
    ∀ w ∈ s.workspaces.rows, ∀ w' ∈ (handle actor request s).2.workspaces.rows,
      w'.id = w.id → w'.ownerId ≠ w.ownerId → actor = w.ownerId
  | .wait _ => True

def aliasesOwner (s : Site) (workspaceId : Uuid) (userId : PathId) : Bool :=
  (s.workspaces.find workspaceId).any fun w => userId.id = w.ownerId ∧ ¬ userId.canonical

/-- No one who may do so removes or demotes an owner under another spelling of the id. -/
def Spelt (s : Site) : Event → Prop
  | .request actor (.remove workspaceId userId) =>
    canManageWorkspace s workspaceId actor = true → aliasesOwner s workspaceId userId = false
  | .request actor (.updateRole workspaceId userId role) =>
    canManageWorkspace s workspaceId actor = true → validRole role = true → role ≠ "admin" →
      aliasesOwner s workspaceId userId = false
  | _ => True

instance (s : Site) : ∀ event, Decidable (Spelt s event)
  | .request _ (.remove _ _) => inferInstanceAs (Decidable (_ → _))
  | .request _ (.updateRole _ _ _) => inferInstanceAs (Decidable (_ → _))
  | .request _ .create | .request _ (.update _ _) | .request _ (.view _) | .request _ .list | .request _ (.add _ _ _) |
    .request _ (.invite _ _ _) | .request _ (.accept _) | .request _ (.reject _) | .request _ (.cancel _) |
    .request _ (.leave _) | .request _ (.transfer _ _) | .wait _ => inferInstanceAs (Decidable True)

/-- Members and invitations belong to workspaces, and these are numbered as they are created. -/
structure Sound (s : Site) : Prop where
  foreign : ∀ m ∈ s.members.rows, (s.workspaces.find m.workspaceId).isSome
  invited : ∀ i ∈ s.invitations.rows, (s.workspaces.find i.workspaceId).isSome
  numbered : ∀ w ∈ s.workspaces.rows, w.id < s.nextId

section Sites

variable {s t : Site} {actor workspaceId userId invitationId : Uuid} {role : String}

theorem oneMembership (s : Site) : OneMembership s := fun _ hm _ hn hworkspace huser =>
  Table.eq_of_mem_of_key hm hn (Prod.ext hworkspace huser)

theorem find_nextId (hs : Sound s) : s.workspaces.find s.nextId = none := by
  rw [Table.find_eq_none_iff]
  exact fun w hw => (hs.numbered w hw).ne

theorem find_members_nextId (hs : Sound s) (userId : Uuid) : s.members.find (s.nextId, userId) = none := by
  rw [Table.find_eq_none_iff]
  intro m hm hkey
  have hforeign := hs.foreign m hm
  rw [show m.workspaceId = s.nextId from (Prod.ext_iff.mp hkey).1, find_nextId hs] at hforeign
  cases hforeign

theorem find_insert_of_some {r m : WorkspaceMember} {k : Uuid × Uuid} (h : s.members.find k = some m) :
    (s.members.insert r).find k = some m := by
  by_cases hk : k = r.key
  · have hmem : r.key ∈ s.members.rows.map WorkspaceMember.key := by
      rw [← hk, ← Table.key_of_find h]
      exact List.mem_map_of_mem (Table.mem_of_find h)
    rw [Table.insert, dif_pos hmem, h]
  · rw [Table.find_insert_of_ne hk, h]

theorem OwnersAdmins.of_find (h : OwnersAdmins s) (hworkspaces : t.workspaces = s.workspaces)
    (hmembers : ∀ w ∈ s.workspaces.rows, ∀ m, s.members.find (w.id, w.ownerId) = some m →
      t.members.find (w.id, w.ownerId) = some m) : OwnersAdmins t := by
  intro w hw
  rw [hworkspaces] at hw
  obtain ⟨m, hfind, hrole⟩ := h w hw
  exact ⟨m, hmembers w hw m hfind, hrole⟩

theorem OwnersAdmins.create (h : OwnersAdmins s) (hs : Sound s) (actor : Uuid) :
    OwnersAdmins (createWorkspace actor s).2 := by
  intro w hw
  have hfresh := find_members_nextId hs actor
  rcases Table.mem_or_eq_of_mem_insert hw with hw | rfl
  · obtain ⟨m, hfind, hrole⟩ := h w hw
    exact ⟨m, find_insert_of_some hfind, hrole⟩
  · exact ⟨⟨s.nextId, actor, "admin"⟩, Table.find_insert_self hfresh, rfl⟩

theorem OwnersAdmins.erase (h : OwnersAdmins s) {k : Uuid × Uuid}
    (hother : ∀ w ∈ s.workspaces.rows, (w.id, w.ownerId) ≠ k) :
    OwnersAdmins { s with members := s.members.erase k } :=
  h.of_find rfl fun w hw _ hfind => (Table.find_erase_of_ne (hother w hw)).trans hfind

theorem find_workspace {w workspace : SharedWorkspace} (hfind : s.workspaces.find workspaceId = some workspace)
    (hw : w ∈ s.workspaces.rows) (hid : w.id = workspaceId) : w = workspace := by
  have h := Table.find_of_mem hw
  rw [hid, hfind] at h
  exact (Option.some.inj h).symm

theorem owner_key_ne {workspace : SharedWorkspace} (hfind : s.workspaces.find workspaceId = some workspace)
    (hne : workspace.ownerId ≠ userId) (w : SharedWorkspace) (hw : w ∈ s.workspaces.rows) :
    (w.id, w.ownerId) ≠ (workspaceId, userId) := by
  intro hkey
  rw [Prod.mk.injEq] at hkey
  obtain rfl := find_workspace hfind hw hkey.1
  exact hne hkey.2

theorem find_withRole_self (s : Site) (workspaceId userId : Uuid) (role : String) :
    (withRole s workspaceId userId role).members.find (workspaceId, userId) =
      (s.members.find (workspaceId, userId)).map fun m => { m with role := role } := by
  cases hfind : s.members.find (workspaceId, userId) with
  | none => exact (Table.find_modify _ _ _ fun m => m.key_eq role).trans (by rw [hfind]; rfl)
  | some m => exact Table.find_modify_self _ (fun m => m.key_eq role) hfind

theorem find_withRole_of_ne {k : Uuid × Uuid} (h : k ≠ (workspaceId, userId)) :
    (withRole s workspaceId userId role).members.find k = s.members.find k :=
  Table.find_modify_of_ne _ (fun m => m.key_eq role) h

theorem OwnersAdmins.withRole_of_ne (h : OwnersAdmins s)
    (hother : ∀ w ∈ s.workspaces.rows, (w.id, w.ownerId) ≠ (workspaceId, userId)) :
    OwnersAdmins (withRole s workspaceId userId role) :=
  h.of_find rfl fun w hw _ hfind => (find_withRole_of_ne (hother w hw)).trans hfind

theorem OwnersAdmins.withRole_admin (h : OwnersAdmins s) (workspaceId userId : Uuid) :
    OwnersAdmins (withRole s workspaceId userId "admin") := by
  intro w hw
  obtain ⟨m, hfind, hrole⟩ := h w hw
  by_cases hkey : (w.id, w.ownerId) = (workspaceId, userId)
  · rw [hkey] at hfind ⊢
    exact ⟨{ m with role := "admin" }, by rw [find_withRole_self, hfind]; rfl, rfl⟩
  · exact ⟨m, (find_withRole_of_ne hkey).trans hfind, hrole⟩

theorem aliasesOwner_eq {workspace : SharedWorkspace} (hfind : s.workspaces.find workspaceId = some workspace)
    (userId : PathId) :
    aliasesOwner s workspaceId userId = decide (userId.id = workspace.ownerId ∧ ¬ userId.canonical) := by
  rw [aliasesOwner, hfind]
  rfl

theorem removeMember_iff (h : OwnersAdmins s) (userId : PathId) :
    OwnersAdmins (removeMember actor workspaceId userId s).2 ↔
      (canManageWorkspace s workspaceId actor = true → aliasesOwner s workspaceId userId = false) := by
  unfold removeMember
  cases hfind : s.workspaces.find workspaceId with
  | none => exact iff_of_true h fun _ => by simp [aliasesOwner, hfind]
  | some workspace =>
      dsimp only
      rw [aliasesOwner_eq hfind]
      split
      next hrefused => exact iff_of_true h fun hmanage => absurd hmanage hrefused.2
      next hallowed =>
        split
        next hspelt => exact iff_of_true h fun _ => by simp_all [spells]
        next hspelt =>
          have howner := h workspace (Table.mem_of_find hfind)
          rw [Table.key_of_find hfind] at howner
          obtain ⟨m, hm, _⟩ := howner
          split
          next hmember =>
            refine iff_of_true h fun _ => decide_eq_false fun halias => hmember ?_
            rw [isMember, halias.1, hm]
            rfl
          next =>
            by_cases hid : userId.id = workspace.ownerId
            · have hcanonical : userId.canonical = false := by simpa [spells, hid] using hspelt
              refine iff_of_false (fun hkept => ?_) fun himp => ?_
              · obtain ⟨n, hn, _⟩ := hkept workspace (Table.mem_of_find hfind)
                rw [Table.key_of_find hfind, hid] at hn
                cases (Table.find_erase_self s.members (workspaceId, workspace.ownerId)).symm.trans hn
              · have hmanage : canManageWorkspace s workspaceId actor = true := by
                  simpa [spells, hcanonical] using hallowed
                simpa [hid, hcanonical] using himp hmanage
            · refine iff_of_true (h.erase (owner_key_ne hfind (Ne.symm hid))) fun _ => ?_
              exact decide_eq_false fun halias => hid halias.1

theorem updateMemberRole_iff (h : OwnersAdmins s) (userId : PathId) :
    OwnersAdmins (updateMemberRole actor workspaceId userId role s).2 ↔
      (canManageWorkspace s workspaceId actor = true → validRole role = true → role ≠ "admin" →
        aliasesOwner s workspaceId userId = false) := by
  unfold updateMemberRole
  cases hfind : s.workspaces.find workspaceId with
  | none => exact iff_of_true h fun _ _ _ => by simp [aliasesOwner, hfind]
  | some workspace =>
      dsimp only
      rw [aliasesOwner_eq hfind]
      split
      next hrefused => exact iff_of_true h fun hmanage => absurd hmanage hrefused
      next hallowed =>
        split
        next hinvalid => exact iff_of_true h fun _ hvalid => absurd hvalid hinvalid
        next hvalid =>
          split
          next hspelt => exact iff_of_true h fun _ _ _ => by simp_all [spells]
          next hspelt =>
            have howner := h workspace (Table.mem_of_find hfind)
            rw [Table.key_of_find hfind] at howner
            obtain ⟨m, hm, _⟩ := howner
            split
            next hmember =>
              refine iff_of_true h fun _ _ _ => decide_eq_false fun halias => hmember ?_
              rw [isMember, halias.1, hm]
              rfl
            next =>
              by_cases hadmin : role = "admin"
              · exact iff_of_true (hadmin ▸ h.withRole_admin workspaceId userId.id) fun _ _ hne => absurd hadmin hne
              · by_cases hid : userId.id = workspace.ownerId
                · have hcanonical : userId.canonical = false := by simpa [spells, hid] using hspelt
                  refine iff_of_false (fun hkept => ?_) fun himp => ?_
                  · obtain ⟨n, hn, hrole⟩ := hkept workspace (Table.mem_of_find hfind)
                    rw [Table.key_of_find hfind, hid, find_withRole_self, hm, Option.map_some, Option.some.injEq] at hn
                    exact hadmin ((congrArg WorkspaceMember.role hn).trans hrole)
                  · simpa [hid, hcanonical] using himp (not_not.mp hallowed) (not_not.mp hvalid) hadmin
                · refine iff_of_true (h.withRole_of_ne (owner_key_ne hfind (Ne.symm hid))) fun _ _ _ => ?_
                  exact decide_eq_false fun halias => hid halias.1

theorem OwnersAdmins.insert (h : OwnersAdmins s) (r : WorkspaceMember) :
    OwnersAdmins { s with members := s.members.insert r } :=
  h.of_find rfl fun _ _ _ hfind => find_insert_of_some hfind

theorem OwnersAdmins.transfer (h : OwnersAdmins s) (newOwnerId : PathId) :
    OwnersAdmins (transferOwnership actor workspaceId newOwnerId s).2 := by
  unfold transferOwnership
  cases hfind : s.workspaces.find workspaceId with
  | none => exact h
  | some workspace =>
      dsimp only
      split
      next => exact h
      next =>
        split
        next => exact h
        next =>
          split
          next => exact h
          next hmember =>
            dsimp only
            generalize hkept : (if isMember s workspaceId actor = true then withRole s workspaceId actor "admin"
              else { s with members := s.members.insert ⟨workspaceId, actor, "admin"⟩ }) = kept
            have hadmins : OwnersAdmins kept ∧ kept.workspaces = s.workspaces ∧
                (s.members.find (workspaceId, newOwnerId.id)).isSome = (kept.members.find (workspaceId, newOwnerId.id)).isSome := by
              rw [← hkept]
              split
              · refine ⟨h.withRole_admin workspaceId actor, rfl, ?_⟩
                by_cases hkey : (workspaceId, newOwnerId.id) = (workspaceId, actor)
                · rw [hkey, find_withRole_self, Option.isSome_map]
                · rw [find_withRole_of_ne hkey]
              · obtain ⟨m, hm⟩ := Option.isSome_iff_exists.mp (not_not.mp hmember)
                exact ⟨h.insert _, rfl, by rw [hm, find_insert_of_some hm]⟩
            obtain ⟨hadmins, hworkspaces, hsame⟩ := hadmins
            intro w hw
            obtain ⟨w₀, hw₀, hmodified⟩ := List.mem_map.mp hw
            split at hmodified
            next hid =>
              obtain ⟨m, hm⟩ := Option.isSome_iff_exists.mp (hsame.symm.trans (not_not.mp hmember))
              refine ⟨{ m with role := "admin" }, ?_, rfl⟩
              rw [← hmodified, show w₀.id = workspaceId from hid]
              exact (find_withRole_self kept workspaceId newOwnerId.id "admin").trans (by rw [hm]; rfl)
            next hid =>
              rw [← hmodified]
              exact (hadmins.withRole_admin workspaceId newOwnerId.id) w₀ (hworkspaces ▸ hw₀)

theorem Sound.later (hs : Sound s) (now : Instant) : Sound { s with now := now } := ⟨hs.foreign, hs.invited, hs.numbered⟩

theorem Sound.insertMember (hs : Sound s) (r : WorkspaceMember) (hr : (s.workspaces.find r.workspaceId).isSome) :
    Sound { s with members := s.members.insert r } := by
  refine ⟨fun m hm => ?_, hs.invited, hs.numbered⟩
  rcases Table.mem_or_eq_of_mem_insert hm with hm | rfl
  · exact hs.foreign m hm
  · exact hr

theorem Sound.eraseMember (hs : Sound s) (k : Uuid × Uuid) : Sound { s with members := s.members.erase k } :=
  ⟨fun m hm => hs.foreign m (List.mem_of_mem_filter hm), hs.invited, hs.numbered⟩

theorem Sound.withRole (hs : Sound s) (workspaceId userId : Uuid) (role : String) :
    Sound (withRole s workspaceId userId role) := by
  refine ⟨fun m hm => ?_, hs.invited, hs.numbered⟩
  obtain ⟨n, hn, rfl⟩ := List.mem_map.mp hm
  have hforeign := hs.foreign n hn
  split
  · exact hforeign
  · exact hforeign

theorem Sound.modifyInvitation (hs : Sound s) (k : Uuid × Uuid) (f : WorkspaceInvitation → WorkspaceInvitation)
    (hf : ∀ i, (f i).key = i.key) : Sound { s with invitations := s.invitations.modify k f hf } := by
  refine ⟨hs.foreign, fun i hi => ?_, hs.numbered⟩
  obtain ⟨j, hj, rfl⟩ := List.mem_map.mp hi
  have hforeign := hs.invited j hj
  split
  · rwa [show (f j).workspaceId = j.workspaceId from (Prod.ext_iff.mp (hf j)).1]
  · exact hforeign

theorem Sound.insertInvitation (hs : Sound s) (r : WorkspaceInvitation) (hr : (s.workspaces.find r.workspaceId).isSome) :
    Sound { s with invitations := s.invitations.insert r, nextId := s.nextId + 1 } := by
  refine ⟨hs.foreign, fun i hi => ?_, fun w hw => Nat.lt_succ_of_lt (hs.numbered w hw)⟩
  rcases Table.mem_or_eq_of_mem_insert hi with hi | rfl
  · exact hs.invited i hi
  · exact hr

theorem Sound.eraseInvitation (hs : Sound s) (k : Uuid × Uuid) : Sound { s with invitations := s.invitations.erase k } :=
  ⟨hs.foreign, fun i hi => hs.invited i (List.mem_of_mem_filter hi), hs.numbered⟩

theorem Sound.modifyWorkspace (hs : Sound s) (id : Uuid) (f : SharedWorkspace → SharedWorkspace) (hf : ∀ w, (f w).id = w.id) :
    Sound { s with workspaces := s.workspaces.modify id f hf } := by
  have hsame (k : Uuid) : ((s.workspaces.modify id f hf).find k).isSome = (s.workspaces.find k).isSome := by
    rw [Table.find_modify, Option.isSome_map]
  refine ⟨fun m hm => (hsame _).trans (hs.foreign m hm), fun i hi => (hsame _).trans (hs.invited i hi), fun w hw => ?_⟩
  obtain ⟨v, hv, rfl⟩ := List.mem_map.mp hw
  have hnumbered := hs.numbered v hv
  split
  · rwa [hf v]
  · exact hnumbered

theorem Sound.create (hs : Sound s) (actor : Uuid) : Sound (createWorkspace actor s).2 := by
  have hfind (k : Uuid) (hk : (s.workspaces.find k).isSome) :
      ((s.workspaces.insert ⟨s.nextId, actor, true⟩).find k).isSome := by
    have hne : k ≠ s.nextId := by
      rintro rfl
      rw [find_nextId hs] at hk
      cases hk
    have hkept := Table.find_insert_of_ne (t := s.workspaces) (r := ⟨s.nextId, actor, true⟩) hne
    exact hkept ▸ hk
  refine ⟨fun m hm => ?_, fun i hi => hfind _ (hs.invited i hi), fun w hw => ?_⟩
  · rcases Table.mem_or_eq_of_mem_insert hm with hm | rfl
    · exact hfind _ (hs.foreign m hm)
    · have hnew := Table.find_insert_self (t := s.workspaces) (r := ⟨s.nextId, actor, true⟩) (find_nextId hs)
      exact Option.isSome_of_eq_some hnew
  · rcases Table.mem_or_eq_of_mem_insert hw with hw | rfl
    · exact Nat.lt_succ_of_lt (hs.numbered w hw)
    · exact Nat.lt_succ_self _

theorem mem_of_pendingInvitation {invitation : WorkspaceInvitation}
    (h : pendingInvitation s invitationId actor = some invitation) : invitation ∈ s.invitations.rows :=
  List.mem_of_find?_eq_some h

theorem Sound.accept (hs : Sound s) (actor invitationId : Uuid) : Sound (acceptInvitation actor invitationId s).2 := by
  unfold acceptInvitation
  cases hfind : pendingInvitation s invitationId actor with
  | none => exact hs
  | some invitation =>
      have hforeign := hs.invited invitation (mem_of_pendingInvitation hfind)
      dsimp only
      split
      next => exact hs.modifyInvitation _ _ _
      next =>
        split
        next => exact hs
        next => exact (hs.modifyInvitation invitation.key _ _).insertMember _ hforeign

theorem Sound.invite (hs : Sound s) (actor workspaceId userId : Uuid) (role : String) :
    Sound (inviteMember actor workspaceId userId role s).2 := by
  unfold inviteMember
  split
  next => exact hs
  next hworkspace =>
    have hforeign : (s.workspaces.find workspaceId).isSome := Option.isSome_iff_ne_none.mpr (by simpa using hworkspace)
    split
    next => exact hs
    next =>
      split
      next => exact hs
      next =>
        split
        next => exact hs
        next =>
          split
          next =>
            split
            next => exact hs
            next => exact hs.modifyInvitation _ _ _
          next =>
            split
            next => exact hs
            next => exact hs.insertInvitation _ hforeign

theorem Sound.transfer (hs : Sound s) (newOwnerId : PathId) : Sound (transferOwnership actor workspaceId newOwnerId s).2 := by
  unfold transferOwnership
  cases hfind : s.workspaces.find workspaceId with
  | none => exact hs
  | some workspace =>
      dsimp only
      split
      next => exact hs
      next =>
        split
        next => exact hs
        next =>
          split
          next => exact hs
          next =>
            have hforeign : (s.workspaces.find workspaceId).isSome := hfind ▸ rfl
            split
            · exact (((hs.withRole _ _ _).withRole _ _ _).modifyWorkspace _ _ _)
            · exact (((hs.insertMember ⟨workspaceId, actor, "admin"⟩ hforeign).withRole _ _ _).modifyWorkspace _ _ _)

theorem Sound.add (hs : Sound s) (workspaceId userId : Uuid) (role : String) :
    Sound (addMember workspaceId userId role s).2 := by
  unfold addMember
  split
  next => exact hs
  next =>
    split
    next => exact hs
    next hrefers =>
      refine hs.insertMember _ (Option.isSome_iff_ne_none.mpr fun hnone => hrefers (.inl ?_))
      exact Option.isNone_iff_eq_none.mpr hnone

theorem Sound.remove (hs : Sound s) (actor workspaceId : Uuid) (userId : PathId) :
    Sound (removeMember actor workspaceId userId s).2 := by
  unfold removeMember
  split
  · exact hs
  · split_ifs
    · exact hs
    · exact hs
    · exact hs.eraseMember _
    · exact hs

theorem Sound.updateRole (hs : Sound s) (actor workspaceId : Uuid) (userId : PathId) (role : String) :
    Sound (updateMemberRole actor workspaceId userId role s).2 := by
  unfold updateMemberRole
  split
  · exact hs
  · split_ifs
    all_goals first | exact hs | exact hs.withRole _ _ _

theorem Sound.leave (hs : Sound s) (actor workspaceId : Uuid) : Sound (leaveWorkspace actor workspaceId s).2 := by
  unfold leaveWorkspace
  split
  · exact hs
  · split_ifs
    all_goals first | exact hs | exact hs.eraseMember _

theorem Sound.update (hs : Sound s) (actor workspaceId : Uuid) (isActive : Option Bool) :
    Sound (updateWorkspace actor workspaceId isActive s).2 := by
  unfold updateWorkspace
  split_ifs
  all_goals first | exact hs | exact hs.modifyWorkspace _ _ _

theorem Sound.reject (hs : Sound s) (actor invitationId : Uuid) : Sound (rejectInvitation actor invitationId s).2 := by
  unfold rejectInvitation
  split
  · exact hs
  · exact hs.modifyInvitation _ _ _

theorem Sound.cancel (hs : Sound s) (actor invitationId : Uuid) : Sound (cancelInvitation actor invitationId s).2 := by
  unfold cancelInvitation
  split
  · exact hs
  · split_ifs
    · exact hs
    · exact hs.eraseInvitation _

theorem Sound.handle (hs : Sound s) (actor : Uuid) (request : Request) : Sound (handle actor request s).2 := by
  cases request with
  | create => exact hs.create actor
  | update workspaceId isActive => exact hs.update actor workspaceId isActive
  | view | list => exact hs
  | add workspaceId userId role => exact hs.add workspaceId userId role
  | remove workspaceId userId => exact hs.remove actor workspaceId userId
  | updateRole workspaceId userId role => exact hs.updateRole actor workspaceId userId role
  | invite workspaceId userId role => exact hs.invite actor workspaceId userId role
  | accept invitationId => exact hs.accept actor invitationId
  | reject invitationId => exact hs.reject actor invitationId
  | cancel invitationId => exact hs.cancel actor invitationId
  | leave workspaceId => exact hs.leave actor workspaceId
  | transfer workspaceId newOwnerId => exact hs.transfer newOwnerId

theorem sound_step (s : Site) (event : Event) (t : Site) (hs : Sound s) (hstep : step s event = some t) : Sound t := by
  cases event with
  | request actor request =>
      cases hstep
      exact hs.handle actor request
  | wait duration =>
      cases hstep
      exact hs.later _

theorem members_invite (actor workspaceId userId : Uuid) (role : String) (s : Site) :
    (inviteMember actor workspaceId userId role s).2.members = s.members ∧
      (inviteMember actor workspaceId userId role s).2.workspaces = s.workspaces := by
  unfold inviteMember
  repeat' split
  all_goals exact ⟨rfl, rfl⟩

theorem OwnersAdmins.same (h : OwnersAdmins s) (hmembers : t.members = s.members) (hworkspaces : t.workspaces = s.workspaces) :
    OwnersAdmins t :=
  h.of_find hworkspaces fun _ _ _ hfind => hmembers ▸ hfind

theorem OwnersAdmins.accept (h : OwnersAdmins s) (actor invitationId : Uuid) :
    OwnersAdmins (acceptInvitation actor invitationId s).2 := by
  unfold acceptInvitation
  split
  · exact h
  · split_ifs
    · exact h
    · exact h.insert _
    · exact h.same rfl rfl

theorem OwnersAdmins.update (h : OwnersAdmins s) (actor workspaceId : Uuid) (isActive : Option Bool) :
    OwnersAdmins (updateWorkspace actor workspaceId isActive s).2 := by
  unfold updateWorkspace
  split
  · exact h
  · split
    · exact h
    · intro w hw
      obtain ⟨v, hv, rfl⟩ := List.mem_map.mp hw
      have hadmin := h v hv
      split
      · exact hadmin
      · exact hadmin

theorem OwnersAdmins.leave (h : OwnersAdmins s) (actor workspaceId : Uuid) :
    OwnersAdmins (leaveWorkspace actor workspaceId s).2 := by
  unfold leaveWorkspace
  split
  · exact h
  next workspace hfind =>
    split_ifs with hmember howner
    · exact h
    · exact h
    · exact h.erase (owner_key_ne hfind howner)

theorem OwnersAdmins.add (h : OwnersAdmins s) (workspaceId userId : Uuid) (role : String) :
    OwnersAdmins (addMember workspaceId userId role s).2 := by
  unfold addMember
  split_ifs
  · exact h
  · exact h
  · exact h.insert _

theorem OwnersAdmins.reject (h : OwnersAdmins s) (actor invitationId : Uuid) :
    OwnersAdmins (rejectInvitation actor invitationId s).2 := by
  unfold rejectInvitation
  split
  · exact h
  · exact h.same rfl rfl

theorem OwnersAdmins.cancel (h : OwnersAdmins s) (actor invitationId : Uuid) :
    OwnersAdmins (cancelInvitation actor invitationId s).2 := by
  unfold cancelInvitation
  split
  · exact h
  · split_ifs
    · exact h
    · exact h.same rfl rfl

/-- Every request keeps the owners where they are to be, but for one that goes by another spelling. -/
theorem ownersAdmins_step_iff (s : Site) (event : Event) (t : Site) (hs : Sound s) (h : OwnersAdmins s)
    (hstep : step s event = some t) : OwnersAdmins t ↔ Spelt s event := by
  cases event with
  | wait duration =>
      cases hstep
      exact iff_of_true (h.same rfl rfl) trivial
  | request actor request =>
      cases hstep
      cases request with
      | create => exact iff_of_true (h.create hs actor) trivial
      | update workspaceId isActive => exact iff_of_true (h.update actor workspaceId isActive) trivial
      | view | list => exact iff_of_true h trivial
      | add workspaceId userId role => exact iff_of_true (h.add workspaceId userId role) trivial
      | remove workspaceId userId => exact removeMember_iff h userId
      | updateRole workspaceId userId role => exact updateMemberRole_iff h userId
      | invite workspaceId userId role =>
          have hsame := members_invite actor workspaceId userId role s
          exact iff_of_true (h.same hsame.1 hsame.2) trivial
      | accept invitationId => exact iff_of_true (h.accept actor invitationId) trivial
      | reject invitationId => exact iff_of_true (h.reject actor invitationId) trivial
      | cancel invitationId => exact iff_of_true (h.cancel actor invitationId) trivial
      | leave workspaceId => exact iff_of_true (h.leave actor workspaceId) trivial
      | transfer workspaceId newOwnerId => exact iff_of_true (h.transfer newOwnerId) trivial

theorem ownerKept_of_same {w w' : SharedWorkspace} (hw : w ∈ s.workspaces.rows) (hw' : w' ∈ s.workspaces.rows)
    (hid : w'.id = w.id) (hne : w'.ownerId ≠ w.ownerId) : actor = w.ownerId := by
  rw [Table.eq_of_mem_of_key hw' hw hid] at hne
  exact absurd rfl hne

theorem workspaces_addMember (s : Site) (workspaceId userId : Uuid) (role : String) :
    (addMember workspaceId userId role s).2.workspaces = s.workspaces := by
  unfold addMember
  repeat' split
  all_goals rfl

theorem workspaces_removeMember (s : Site) (actor workspaceId : Uuid) (userId : PathId) :
    (removeMember actor workspaceId userId s).2.workspaces = s.workspaces := by
  unfold removeMember
  repeat' split
  all_goals rfl

theorem workspaces_updateMemberRole (s : Site) (actor workspaceId : Uuid) (userId : PathId) (role : String) :
    (updateMemberRole actor workspaceId userId role s).2.workspaces = s.workspaces := by
  unfold updateMemberRole
  repeat' split
  all_goals rfl

theorem workspaces_acceptInvitation (s : Site) (actor invitationId : Uuid) :
    (acceptInvitation actor invitationId s).2.workspaces = s.workspaces := by
  unfold acceptInvitation
  repeat' split
  all_goals rfl

theorem workspaces_rejectInvitation (s : Site) (actor invitationId : Uuid) :
    (rejectInvitation actor invitationId s).2.workspaces = s.workspaces := by
  unfold rejectInvitation
  split <;> rfl

theorem workspaces_cancelInvitation (s : Site) (actor invitationId : Uuid) :
    (cancelInvitation actor invitationId s).2.workspaces = s.workspaces := by
  unfold cancelInvitation
  repeat' split
  all_goals rfl

theorem workspaces_leaveWorkspace (s : Site) (actor workspaceId : Uuid) :
    (leaveWorkspace actor workspaceId s).2.workspaces = s.workspaces := by
  unfold leaveWorkspace
  repeat' split
  all_goals rfl

theorem ownerKept_update (actor workspaceId : Uuid) (isActive : Option Bool) :
    OwnerKept s (.request actor (.update workspaceId isActive)) := by
  intro w hw w' hw' hid hne
  unfold handle updateWorkspace at hw'
  dsimp only at hw'
  split at hw'
  · exact ownerKept_of_same hw hw' hid hne
  · split at hw'
    · exact ownerKept_of_same hw hw' hid hne
    · obtain ⟨v, hv, rfl⟩ := List.mem_map.mp hw'
      split at hid
      · rw [if_pos ‹_›] at hne
        exact ownerKept_of_same hw hv hid hne
      · rw [if_neg ‹_›] at hne
        exact ownerKept_of_same hw hv hid hne

theorem ownerKept_transfer (actor workspaceId : Uuid) (newOwnerId : PathId) :
    OwnerKept s (.request actor (.transfer workspaceId newOwnerId)) := by
  intro w hw w' hw' hid hne
  unfold handle transferOwnership at hw'
  dsimp only at hw'
  split at hw'
  · exact ownerKept_of_same hw hw' hid hne
  next workspace hfind =>
    split at hw'
    · exact ownerKept_of_same hw hw' hid hne
    next howner =>
      split at hw'
      · exact ownerKept_of_same hw hw' hid hne
      · split at hw'
        · exact ownerKept_of_same hw hw' hid hne
        · obtain ⟨v, hv, rfl⟩ := List.mem_map.mp hw'
          by_cases hv' : v.id = workspaceId
          · rw [if_pos hv'] at hid
            obtain rfl := find_workspace hfind hw (hid.symm.trans hv')
            exact (not_not.mp howner).symm
          · rw [if_neg hv'] at hid hne
            exact ownerKept_of_same hw hv hid hne

theorem ownerKept_step (s : Site) (event : Event) (hs : Sound s) : OwnerKept s event := by
  cases event with
  | wait => trivial
  | request actor request =>
      cases request with
      | create =>
          intro w hw w' hw' hid hne
          rcases Table.mem_or_eq_of_mem_insert hw' with hw' | rfl
          · exact ownerKept_of_same hw hw' hid hne
          · exact absurd hid (hs.numbered w hw).ne'
      | update workspaceId isActive => exact ownerKept_update actor workspaceId isActive
      | transfer workspaceId newOwnerId => exact ownerKept_transfer actor workspaceId newOwnerId
      | view | list => exact fun w hw w' hw' hid hne => ownerKept_of_same hw hw' hid hne
      | add workspaceId userId role =>
          intro w hw w' hw'
          exact ownerKept_of_same hw (workspaces_addMember s workspaceId userId role ▸ hw')
      | remove workspaceId userId =>
          intro w hw w' hw'
          exact ownerKept_of_same hw (workspaces_removeMember s actor workspaceId userId ▸ hw')
      | updateRole workspaceId userId role =>
          intro w hw w' hw'
          exact ownerKept_of_same hw (workspaces_updateMemberRole s actor workspaceId userId role ▸ hw')
      | invite workspaceId userId role =>
          intro w hw w' hw'
          exact ownerKept_of_same hw ((members_invite actor workspaceId userId role s).2 ▸ hw')
      | accept invitationId =>
          intro w hw w' hw'
          exact ownerKept_of_same hw (workspaces_acceptInvitation s actor invitationId ▸ hw')
      | reject invitationId =>
          intro w hw w' hw'
          exact ownerKept_of_same hw (workspaces_rejectInvitation s actor invitationId ▸ hw')
      | cancel invitationId =>
          intro w hw w' hw'
          exact ownerKept_of_same hw (workspaces_cancelInvitation s actor invitationId ▸ hw')
      | leave workspaceId =>
          intro w hw w' hw'
          exact ownerKept_of_same hw (workspaces_leaveWorkspace s actor workspaceId ▸ hw')

theorem sound_started (now : Instant) (users : List Uuid) : Sound (started now users) :=
  ⟨fun _ hm => absurd hm List.not_mem_nil, fun _ hi => absurd hi List.not_mem_nil, fun _ hw => absurd hw List.not_mem_nil⟩

end Sites

/-- Owners stay admins of their workspaces all along exactly where no request
removes or demotes one by another spelling; the rest holds in every run. -/
theorem owners_admins_iff (now : Instant) (users : List Uuid) (events : List Event) :
    (AllStates step (fun s => OwnersAdmins s ∧ OneMembership s) (started now users) events ∧
        AllSteps step OwnerKept (started now users) events) ↔
      AllSteps step Spelt (started now users) events := by
  have hsound : AllStates step Sound (started now users) events := allStates_of_steps sound_step (sound_started now users)
  have howners : AllSteps step OwnerKept (started now users) events :=
    allSteps_of_allStates (fun s event _ hs _ => ownerKept_step s event hs) hsound
  have hadmins := allStates_iff_allSteps sound_step (fun s event t hs h hstep => ownersAdmins_step_iff s event t hs h hstep)
    events (sound_started now users) (fun w hw => absurd hw List.not_mem_nil)
  rw [← hadmins]
  exact ⟨fun h => h.1.mono fun _ hs => hs.1, fun h => ⟨h.mono fun s hs => ⟨hs, oneMembership s⟩, howners⟩⟩

section Team

def team : List Event :=
  [.request 1 .create, .request 1 (.invite 1 2 "admin"), .request 2 (.accept 2)]

/-- Bob removes Ada by her id in capital letters. -/
theorem owner_removed :
    ¬ ∀ (now : Instant) (users : List Uuid) (events : List Event),
      AllStates step (fun s => OwnersAdmins s ∧ OneMembership s) (started now users) events ∧
        AllSteps step OwnerKept (started now users) events := by
  intro h
  have hlast := ((h 0 [1, 2] (team ++ [.request 2 (.remove 1 ⟨1, false⟩)])).1.last rfl).1
  obtain ⟨m, hfind, _⟩ := hlast ⟨1, 1, true⟩ List.mem_cons_self
  exact absurd (Option.isSome_of_eq_some hfind) (by decide +kernel)

end Team

end NukeLab.WorkspaceOwners
