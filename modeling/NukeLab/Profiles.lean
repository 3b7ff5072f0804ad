import NukeLab.AuditTrail
import NukeLab.Md5
import NukeLab.Queries
import NukeLab.RetentionPolicy
import NukeLab.Workspaces
import NukeLab.XfsQuota

namespace NukeLab.Profiles

open Tables Records State Queries Texts Workspaces
open RetentionPolicy (Json)

structure User where
  id : Uuid
  username : String
  email : String
  firstName : Option String
  lastName : Option String
  role : String
  avatarUrl : Option String
  profileVisibility : String
  profile : Json
  /-- An object; an empty one where the column is null. -/
  preferences : List (String × Json)
  createdAt : Option Instant

structure Directory where
  users : Table User.id
  workspaces : Table SharedWorkspace.id
  members : Table WorkspaceMember.key
  workspace : ∀ m ∈ members.rows, ∃ w ∈ workspaces.rows, w.id = m.workspaceId

structure Profile where
  id : String
  username : String
  displayName : String
  avatarUrl : String
  role : String
  profileVisibility : String
  profile : Json
  createdAt : Option Instant

def displayName (user : User) : String :=
  match user.firstName.filter (· ≠ ""), user.lastName.filter (· ≠ "") with
  | some first, some last => first ++ " " ++ last
  | some first, none => first
  | none, some last => last
  | none, none => user.username

def getGravatarUrl (user : User) : String :=
  let email := String.ofList (strip (AuditTrail.lowered user.email).toList)
  "https://www.gravatar.com/avatar/" ++ hexDigits 32 (Md5.md5 (XfsQuota.utf8 email)) ++ "?s=200&d=identicon&r=pg"

def getAvatarUrl (user : User) : String :=
  if ((user.preferences.lookup "use_gravatar").map Json.truthy).getD false then getGravatarUrl user
  else user.avatarUrl.getD ""

def view (user : User) : Profile where
  id := uuidText user.id
  username := user.username
  displayName := displayName user
  avatarUrl := getAvatarUrl user
  role := user.role
  profileVisibility := if user.profileVisibility = "" then "private" else user.profileVisibility
  profile := if user.profile.truthy then user.profile else .object []
  createdAt := user.createdAt

def isMember (d : Directory) (workspaceId userId : Uuid) : Bool :=
  d.members.rows.any fun m => m.workspaceId = workspaceId ∧ m.userId = userId

def sharedMemberships (d : Directory) (viewerId targetId : Uuid) : List WorkspaceMember :=
  d.members.rows.filter fun m => m.userId = viewerId ∧ isMember d m.workspaceId targetId

/-- The workspaces that one of the two owns and the other is a member of. -/
def ownedWorkspaces (d : Directory) (viewerId targetId : Uuid) : List SharedWorkspace :=
  d.workspaces.rows.filter fun w =>
    w.ownerId = viewerId ∧ isMember d w.id targetId ∨ w.ownerId = targetId ∧ isMember d w.id viewerId

def canView (d : Directory) (viewerId : Uuid) (target : User) : Except Raise Bool := do
  if viewerId = target.id then return true
  if target.profileVisibility = "public" then return true
  let membership ← oneOrNone (sharedMemberships d viewerId target.id)
  if membership.isSome then return true
  let workspace ← oneOrNone (ownedWorkspaces d viewerId target.id)
  return workspace.isSome

def notFound : Raise := .http 404 "User not found"

def getPublicProfile (d : Directory) (viewerId userId : Uuid) : Except Raise Profile := do
  match d.users.find userId with
  | none => throw notFound
  | some target =>
    if ← canView d viewerId target then return view target
    else throw notFound

def Belongs (d : Directory) (w : SharedWorkspace) (userId : Uuid) : Prop :=
  w.ownerId = userId ∨ ∃ m ∈ d.members.rows, m.workspaceId = w.id ∧ m.userId = userId

def Visible (d : Directory) (viewerId : Uuid) (target : User) : Prop :=
  viewerId = target.id ∨ target.profileVisibility = "public" ∨
    ∃ w ∈ d.workspaces.rows, Belongs d w viewerId ∧ Belongs d w target.id

/-- The profile for those who may see it; everyone else cannot tell the user from one that is not there. -/
def AsDocumented (d : Directory) (viewerId userId : Uuid) : Prop :=
  match d.users.find userId with
  | none => getPublicProfile d viewerId userId = .error notFound
  | some target =>
    (getPublicProfile d viewerId userId = .ok (view target) ↔ Visible d viewerId target) ∧
      (¬ Visible d viewerId target → getPublicProfile d viewerId userId = .error notFound)

def Unambiguous (d : Directory) (viewerId : Uuid) (target : User) : Prop :=
  viewerId = target.id ∨ target.profileVisibility = "public" ∨ (sharedMemberships d viewerId target.id).length = 1 ∨
    sharedMemberships d viewerId target.id = [] ∧ (ownedWorkspaces d viewerId target.id).length ≤ 1

section Queries

variable {d : Directory} {viewerId userId workspaceId : Uuid} {target : User}

theorem isMember_iff : isMember d workspaceId userId = true ↔
    ∃ m ∈ d.members.rows, m.workspaceId = workspaceId ∧ m.userId = userId := by
  simp [isMember]

theorem shares_iff (hother : viewerId ≠ target.id) :
    (∃ w ∈ d.workspaces.rows, Belongs d w viewerId ∧ Belongs d w target.id) ↔
      sharedMemberships d viewerId target.id ≠ [] ∨ ownedWorkspaces d viewerId target.id ≠ [] := by
  constructor
  · rintro ⟨w, hw, hviewer | ⟨m, hm, hworkspace, huser⟩, htarget | htarget⟩
    · exact absurd (hviewer.symm.trans htarget) hother
    · refine Or.inr (List.ne_nil_of_mem (List.mem_filter.mpr ⟨hw, ?_⟩))
      exact decide_eq_true (Or.inl ⟨hviewer, isMember_iff.mpr htarget⟩)
    · refine Or.inr (List.ne_nil_of_mem (List.mem_filter.mpr ⟨hw, ?_⟩))
      exact decide_eq_true (Or.inr ⟨htarget, isMember_iff.mpr ⟨m, hm, hworkspace, huser⟩⟩)
    · refine Or.inl (List.ne_nil_of_mem (List.mem_filter.mpr ⟨hm, ?_⟩))
      exact decide_eq_true ⟨huser, isMember_iff.mpr (hworkspace ▸ htarget)⟩
  · rintro (h | h)
    · obtain ⟨m, hm⟩ := List.exists_mem_of_ne_nil _ h
      obtain ⟨hm, hshared⟩ := List.mem_filter.mp hm
      obtain ⟨huser, htarget⟩ := of_decide_eq_true hshared
      obtain ⟨w, hw, hid⟩ := d.workspace m hm
      refine ⟨w, hw, Or.inr ⟨m, hm, hid.symm, huser⟩, Or.inr ?_⟩
      rw [hid]
      exact isMember_iff.mp htarget
    · obtain ⟨w, hw⟩ := List.exists_mem_of_ne_nil _ h
      obtain ⟨hw, hshared⟩ := List.mem_filter.mp hw
      rcases of_decide_eq_true hshared with ⟨howner, hmember⟩ | ⟨howner, hmember⟩
      · exact ⟨w, hw, Or.inl howner, Or.inr (isMember_iff.mp hmember)⟩
      · exact ⟨w, hw, Or.inr (isMember_iff.mp hmember), Or.inl howner⟩

theorem visible_iff (hother : viewerId ≠ target.id) (hprivate : target.profileVisibility ≠ "public") :
    Visible d viewerId target ↔
      sharedMemberships d viewerId target.id ≠ [] ∨ ownedWorkspaces d viewerId target.id ≠ [] := by
  rw [Visible, or_iff_right hother, or_iff_right hprivate, shares_iff hother]

theorem canView_direct (h : viewerId = target.id ∨ target.profileVisibility = "public") :
    canView d viewerId target = .ok true := by
  rw [canView]
  by_cases hself : viewerId = target.id
  · rw [if_pos hself]
    rfl
  · rw [if_neg hself, if_pos (h.resolve_left hself)]
    rfl

theorem canView_other (hother : viewerId ≠ target.id) (hprivate : target.profileVisibility ≠ "public") :
    canView d viewerId target = (do
      let membership ← oneOrNone (sharedMemberships d viewerId target.id)
      if membership.isSome then return true
      let workspace ← oneOrNone (ownedWorkspaces d viewerId target.id)
      return workspace.isSome) := by
  rw [canView, if_neg hother, if_neg hprivate]

theorem getPublicProfile_of_canView {shown : Bool} (hfind : d.users.find userId = some target)
    (h : canView d viewerId target = .ok shown) :
    getPublicProfile d viewerId userId = if shown then .ok (view target) else .error notFound := by
  simp only [getPublicProfile, hfind, h]
  rfl

theorem getPublicProfile_of_raise {raise : Raise} (hfind : d.users.find userId = some target)
    (h : canView d viewerId target = .error raise) : getPublicProfile d viewerId userId = .error raise := by
  simp only [getPublicProfile, hfind, h]
  rfl

theorem canView_eq_visible (h : Unambiguous d viewerId target) :
    ∃ shown, canView d viewerId target = .ok shown ∧ (shown = true ↔ Visible d viewerId target) := by
  by_cases hdirect : viewerId = target.id ∨ target.profileVisibility = "public"
  · refine ⟨true, canView_direct hdirect, iff_of_true rfl ?_⟩
    exact or_assoc.mp (Or.inl hdirect)
  obtain ⟨hother, hprivate⟩ := not_or.mp hdirect
  have hqueries := (h.resolve_left hother).resolve_left hprivate
  rw [canView_other hother hprivate, visible_iff hother hprivate]
  rcases hqueries with hone | ⟨hnone, hfew⟩
  · obtain ⟨m, hm⟩ := List.length_eq_one_iff.mp hone
    rw [hm]
    exact ⟨true, rfl, iff_of_true rfl (Or.inl (List.cons_ne_nil m []))⟩
  · rw [hnone]
    rcases empty_or_single hfew with hempty | ⟨w, hw⟩
    · rw [hempty]
      exact ⟨false, rfl, by simp⟩
    · rw [hw]
      exact ⟨true, rfl, by simp⟩

theorem canView_raises (h : ¬ Unambiguous d viewerId target) :
    canView d viewerId target = .error (.exception "MultipleResultsFound") ∧ Visible d viewerId target := by
  simp only [Unambiguous, not_or] at h
  obtain ⟨hother, hprivate, hnotone, hnotfew⟩ := h
  rw [canView_other hother hprivate, visible_iff hother hprivate]
  rcases hshared : sharedMemberships d viewerId target.id with _ | ⟨m, _ | ⟨m', rest⟩⟩
  · have hmany : 2 ≤ (ownedWorkspaces d viewerId target.id).length := by
      have hmore := not_and.mp hnotfew hshared
      omega
    refine ⟨?_, Or.inr ?_⟩
    · rw [oneOrNone_many hmany]
      rfl
    · rintro hempty
      rw [hempty] at hmany
      simp at hmany
  · rw [hshared] at hnotone
    simp at hnotone
  · exact ⟨rfl, Or.inl (List.cons_ne_nil m _)⟩

theorem not_asDocumented (hfind : d.users.find userId = some target) (h : ¬ Unambiguous d viewerId target) :
    ¬ AsDocumented d viewerId userId := by
  obtain ⟨hraise, hvisible⟩ := canView_raises h
  rw [AsDocumented, hfind]
  rintro ⟨hshown, -⟩
  have hprofile := hshown.mpr hvisible
  rw [getPublicProfile_of_raise hfind hraise] at hprofile
  cases hprofile

/-- The endpoint keeps to its promise if and only if it does not come upon two shared workspaces. -/
theorem asDocumented_iff (d : Directory) (viewerId userId : Uuid) :
    AsDocumented d viewerId userId ↔ ∀ target, d.users.find userId = some target → Unambiguous d viewerId target := by
  cases hfind : d.users.find userId with
  | none =>
      apply iff_of_true
      · simp only [AsDocumented, getPublicProfile, hfind]
        rfl
      · intro target h
        cases h
  | some target =>
      simp only [Option.some.injEq, forall_eq']
      by_cases h : Unambiguous d viewerId target
      · obtain ⟨shown, hview, hshown⟩ := canView_eq_visible h
        simp only [AsDocumented, hfind]
        rw [getPublicProfile_of_canView hfind hview, iff_true_right h, ← hshown]
        cases shown <;> simp
      · exact iff_of_false (not_asDocumented hfind h) h

end Queries

/-- Two members of the same two workspaces. -/
theorem two_workspaces_raise : ¬ ∀ d viewerId userId, AsDocumented d viewerId userId := by
  intro h
  have hmembers : ∀ m ∈ [(⟨3, 7, "admin"⟩ : WorkspaceMember), ⟨3, 8, "read_only"⟩, ⟨4, 7, "admin"⟩, ⟨4, 8, "read_only"⟩],
      ∃ w ∈ [(⟨3, 7, true⟩ : SharedWorkspace), ⟨4, 7, true⟩], w.id = m.workspaceId := by decide
  have hdocumented := h ⟨⟨[⟨8, "bo", "bo@example.org", none, none, "user", none, "private", .null, [], none⟩],
    List.nodup_singleton _⟩, ⟨[⟨3, 7, true⟩, ⟨4, 7, true⟩], by decide⟩, ⟨_, by decide⟩, hmembers⟩ 7 8
  refine not_asDocumented rfl ?_ hdocumented
  rintro (hself | hpublic | hone | ⟨hnone, -⟩)
  · exact absurd hself (by decide)
  · exact absurd hpublic (by decide)
  · exact absurd (id hone : 2 = 1) (by decide)
  · exact absurd hnone (List.cons_ne_nil _ _)

end NukeLab.Profiles
