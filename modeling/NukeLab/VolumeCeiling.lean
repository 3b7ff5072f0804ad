import NukeLab.Least
import NukeLab.VolumeAccess

namespace NukeLab.VolumeCeiling

open VolumeAccess Records Least

inductive Access
  | readOnly
  | readWrite

namespace Access

def rank : Access → Nat
  | .readOnly => 0
  | .readWrite => 1

theorem rank_injective : Function.Injective rank := by
  intro a b h
  cases a <;> cases b <;> trivial

instance : LinearOrder Access := LinearOrder.lift' rank rank_injective

theorem readOnly_le (a : Access) : readOnly ≤ a := Nat.zero_le a.rank

end Access

section Rule

variable (s : Site) (volumeId userId : Uuid)

def Owns (workspaceId : Uuid) : Prop := ∃ w ∈ s.workspaces, w.id = workspaceId ∧ w.ownerId = userId

def Joined (workspaceId : Uuid) : Prop := ∃ m ∈ s.members, m.workspaceId = workspaceId ∧ m.userId = userId

def Writes (workspaceId : Uuid) : Prop :=
  Owns s userId workspaceId ∨
    ∃ m ∈ s.members, m.workspaceId = workspaceId ∧ m.userId = userId ∧ m.role ≠ "read_only"

/-- What the user is given: as the owner of the volume, or by a workspace that shares it. -/
inductive Given : Access → Prop
  | owner {v} (hv : s.volumes volumeId = some v) (howner : v.ownerId = userId) : Given .readWrite
  | writer {link} (hlink : link ∈ s.links) (hvolume : link.volumeId = volumeId)
      (hwrites : Writes s userId link.workspaceId) (hrole : link.role = "read_write") : Given .readWrite
  | reader {link} (hlink : link ∈ s.links) (hvolume : link.volumeId = volumeId)
      (hbelongs : Owns s userId link.workspaceId ∨ Joined s userId link.workspaceId)
      (hceiling : ¬ (link.role = "read_write" ∧ Writes s userId link.workspaceId)) : Given .readOnly

def Effective (a : Access) : Prop := IsLeast {b | Given s volumeId userId b} a

def Allowed (mode : String) : Prop :=
  ∃ v, s.volumes volumeId = some v ∧
    (mode = "read_write" ∧ Effective s volumeId userId .readWrite ∨
      mode = "read_only" ∧ ((∃ a, Effective s volumeId userId a) ∨ v.visibility = "public"))

end Rule

/-- The tables under the key of the members table, and under the check that is made of every share's role. -/
structure Stored where
  site : Site
  memberKeys : (site.members.map fun m => (m.workspaceId, m.userId)).Nodup
  roles : ∀ link ∈ site.links, link.role = "read_only" ∨ link.role = "read_write"

def level : Option String → WithTop Access
  | none => ⊤
  | some role => if role = "read_only" then (Access.readOnly : WithTop Access) else Access.readWrite

theorem level_mostRestrictive (a b : Option String) : level (mostRestrictive a b) = min (level a) (level b) := by
  cases a with
  | none => exact (min_eq_right le_top).symm
  | some a =>
      cases b with
      | none => exact (min_eq_left le_top).symm
      | some b =>
          by_cases ha : a = "read_only"
          · have hle : (Access.readOnly : WithTop Access) ≤ level (some b) := by
              rw [level]
              split
              · exact le_rfl
              · exact WithTop.coe_le_coe.mpr (Access.readOnly_le _)
            simp only [mostRestrictive, if_pos (Or.inl ha : a = "read_only" ∨ b = "read_only"), level, if_pos ha]
            exact (min_eq_left hle).symm
          · by_cases hb : b = "read_only"
            · have hle : (Access.readOnly : WithTop Access) ≤ Access.readWrite :=
                WithTop.coe_le_coe.mpr (Access.readOnly_le _)
              simp [mostRestrictive, level, ha, hb, min_eq_right hle]
            · simp [mostRestrictive, level, ha, hb]

variable {s : Site} {volumeId userId : Uuid} {link : WorkspaceVolume} {a : Access}

theorem level_foldl (access : WorkspaceVolume → Option String) (links : List WorkspaceVolume) (start : Option String) :
    level (links.foldl (fun sofar link => mostRestrictive sofar (access link)) start) =
      (links.map fun link => level (access link)).foldl min (level start) := by
  induction links generalizing start with
  | nil => rfl
  | cons link links ih => rw [List.foldl_cons, ih, level_mostRestrictive, List.map_cons, List.foldl_cons]

def personal (v : VolumeInfo) (userId : Uuid) : Option String := if v.ownerId = userId then some "read_write" else none

theorem level_effective (v : VolumeInfo) :
    level (computeEffectiveAccess (personal v userId) (getWorkspaceAccess s volumeId userId)) =
      least (level (personal v userId) ::
        (s.links.filter fun link => link.volumeId = volumeId).map fun link => level (linkAccess s userId link)) := by
  rw [computeEffectiveAccess, level_mostRestrictive, getWorkspaceAccess, level_foldl, level, least, List.foldl_cons,
    min_eq_right le_top]
  apply le_antisymm
  · apply le_foldl_min.mpr
    refine ⟨min_le_left _ _, fun x hx => ?_⟩
    exact (min_le_right _ _).trans ((le_foldl_min.mp le_rfl).2 x hx)
  · apply le_min
    · exact (le_foldl_min.mp le_rfl).1
    · apply le_foldl_min.mpr
      exact ⟨le_top, (le_foldl_min.mp le_rfl).2⟩

theorem level_personal (v : VolumeInfo) : level (personal v userId) = a ↔ v.ownerId = userId ∧ a = .readWrite := by
  by_cases howner : v.ownerId = userId
  · simp [personal, howner, level, eq_comm]
  · simp [personal, howner, level]

theorem owns_iff (workspaceId : Uuid) :
    (s.workspaces.any fun w => w.id = workspaceId ∧ w.ownerId = userId) = true ↔ Owns s userId workspaceId := by
  simp [Owns]

theorem find_member {members : List WorkspaceMember} {m : WorkspaceMember} {workspaceId : Uuid}
    (hkeys : (members.map fun m => (m.workspaceId, m.userId)).Nodup) (hm : m ∈ members)
    (hworkspace : m.workspaceId = workspaceId) (huser : m.userId = userId) :
    members.find? (fun m => m.workspaceId = workspaceId ∧ m.userId = userId) = some m := by
  subst hworkspace huser
  cases hfind : members.find? fun m' => m'.workspaceId = m.workspaceId ∧ m'.userId = m.userId with
  | none =>
      have h := List.find?_eq_none.mp hfind m hm
      simp at h
  | some m' =>
      have hkey := List.find?_some hfind
      simp only [decide_eq_true_eq] at hkey
      rw [List.inj_on_of_nodup_map hkeys (List.mem_of_find?_eq_some hfind) hm (Prod.ext hkey.1 hkey.2)]

theorem level_linkAccess (hkeys : (s.members.map fun m => (m.workspaceId, m.userId)).Nodup)
    (hrole : link.role = "read_only" ∨ link.role = "read_write") :
    level (linkAccess s userId link) = a ↔
      a = .readWrite ∧ Writes s userId link.workspaceId ∧ link.role = "read_write" ∨
        a = .readOnly ∧ (Owns s userId link.workspaceId ∨ Joined s userId link.workspaceId) ∧
          ¬ (link.role = "read_write" ∧ Writes s userId link.workspaceId) := by
  by_cases howns : Owns s userId link.workspaceId
  · have hwrites : Writes s userId link.workspaceId := Or.inl howns
    rw [linkAccess, if_pos ((owns_iff link.workspaceId).mpr howns)]
    rcases hrole with hrole | hrole <;> simp [level, hrole, howns, hwrites, eq_comm]
  rw [linkAccess, if_neg (mt (owns_iff link.workspaceId).mp howns)]
  by_cases hjoined : Joined s userId link.workspaceId
  · obtain ⟨m, hm, hworkspace, huser⟩ := id hjoined
    have hwrites : Writes s userId link.workspaceId ↔ m.role ≠ "read_only" := by
      constructor
      · rintro (h | ⟨m', hm', hworkspace', huser', hrole'⟩)
        · exact absurd h howns
        · have hsame : m = m' := Option.some.inj
            ((find_member hkeys hm hworkspace huser).symm.trans (find_member hkeys hm' hworkspace' huser'))
          rw [hsame]
          exact hrole'
      · exact fun h => Or.inr ⟨m, hm, hworkspace, huser, h⟩
    rw [find_member hkeys hm hworkspace huser, Option.map_some, memberAccess]
    by_cases hreads : m.role = "read_only"
    · rcases hrole with hrole | hrole <;> simp [level, hrole, hreads, hjoined, hwrites, eq_comm]
    · rcases hrole with hrole | hrole <;> simp [level, hrole, hreads, hjoined, hwrites, eq_comm]
  · have hnone : s.members.find? (fun m => m.workspaceId = link.workspaceId ∧ m.userId = userId) = none := by
      apply List.find?_eq_none.mpr
      intro m hm hfound
      exact hjoined ⟨m, hm, of_decide_eq_true hfound⟩
    have hwrites : ¬ Writes s userId link.workspaceId := by
      rintro (h | ⟨m, hm, hworkspace, huser, -⟩)
      · exact howns h
      · exact hjoined ⟨m, hm, hworkspace, huser⟩
    rw [hnone, Option.map_none]
    simp [level, howns, hjoined, hwrites]

theorem mem_levels (s : Stored) {v : VolumeInfo} (hv : s.site.volumes volumeId = some v) :
    (a : WithTop Access) ∈ level (personal v userId) ::
        (s.site.links.filter fun link => link.volumeId = volumeId).map (fun link => level (linkAccess s.site userId link)) ↔
      Given s.site volumeId userId a := by
  rw [List.mem_cons, eq_comm, level_personal, List.mem_map]
  constructor
  · rintro (⟨howner, rfl⟩ | ⟨link, hlink, hlevel⟩)
    · exact .owner hv howner
    · obtain ⟨hlink, hvolume⟩ := List.mem_filter.mp hlink
      have hvolume := of_decide_eq_true hvolume
      rcases (level_linkAccess s.memberKeys (s.roles link hlink)).mp hlevel with
        ⟨rfl, hwrites, hrole⟩ | ⟨rfl, hbelongs, hceiling⟩
      · exact .writer hlink hvolume hwrites hrole
      · exact .reader hlink hvolume hbelongs hceiling
  · intro h
    cases h with
    | owner hv' howner =>
        cases hv.symm.trans hv'
        exact Or.inl ⟨howner, rfl⟩
    | @writer link hlink hvolume hwrites hrole =>
        refine Or.inr ⟨link, List.mem_filter.mpr ⟨hlink, decide_eq_true hvolume⟩, ?_⟩
        exact (level_linkAccess s.memberKeys (s.roles link hlink)).mpr (Or.inl ⟨rfl, hwrites, hrole⟩)
    | @reader link hlink hvolume hbelongs hceiling =>
        refine Or.inr ⟨link, List.mem_filter.mpr ⟨hlink, decide_eq_true hvolume⟩, ?_⟩
        exact (level_linkAccess s.memberKeys (s.roles link hlink)).mpr (Or.inr ⟨rfl, hbelongs, hceiling⟩)

theorem level_eq_coe_iff (s : Stored) {v : VolumeInfo} (hv : s.site.volumes volumeId = some v) :
    level (computeEffectiveAccess (personal v userId) (getWorkspaceAccess s.site volumeId userId)) = a ↔
      Effective s.site volumeId userId a := by
  rw [level_effective, least_eq_coe_iff, Effective]
  simp only [mem_levels s hv]

def Known (access : Option String) : Prop := ∀ role ∈ access, role = "read_only" ∨ role = "read_write"

theorem known_mostRestrictive {access access' : Option String} (h : Known access) (h' : Known access') :
    Known (mostRestrictive access access') := by
  cases access with
  | none => exact h'
  | some role =>
      cases access' with
      | none => exact h
      | some role' =>
          intro result hresult
          rw [mostRestrictive, Option.mem_def] at hresult
          split at hresult
          · exact Or.inl (Option.some.inj hresult).symm
          · exact Or.inr (Option.some.inj hresult).symm

theorem known_linkAccess (hrole : link.role = "read_only" ∨ link.role = "read_write") :
    Known (linkAccess s userId link) := by
  intro role hresult
  rw [linkAccess] at hresult
  split at hresult
  · cases hresult
    exact hrole
  · obtain ⟨m, -, rfl⟩ := Option.mem_map.mp hresult
    rw [memberAccess]
    split_ifs
    · exact Or.inl rfl
    · exact Or.inl rfl
    · exact Or.inr rfl

theorem known_effective (s : Stored) (v : VolumeInfo) :
    Known (computeEffectiveAccess (personal v userId) (getWorkspaceAccess s.site volumeId userId)) := by
  apply known_mostRestrictive
  · intro role hrole
    rw [personal, Option.mem_def] at hrole
    split at hrole
    · exact Or.inr (Option.some.inj hrole).symm
    · cases hrole
  · apply List.foldlRecOn
    · intro role hrole
      cases hrole
    · intro access h link hlink
      exact known_mostRestrictive h (known_linkAccess (s.roles link (List.mem_of_mem_filter hlink)))

theorem canAccessVolume_iff (s : Stored) (volumeId userId : Uuid) (mode : String) :
    canAccessVolume s.site volumeId userId mode = true ↔ Allowed s.site volumeId userId mode := by
  rw [canAccessVolume, Allowed]
  cases hv : s.site.volumes volumeId with
  | none => simp
  | some v =>
      have heffective : ∀ a : Access, Effective s.site volumeId userId a ↔ level (computeEffectiveAccess
          (personal v userId) (getWorkspaceAccess s.site volumeId userId)) = a := fun a => (level_eq_coe_iff s hv).symm
      have hknown := @known_effective volumeId userId s v
      simp only [Option.some.injEq, exists_eq_left', heffective]
      change (match computeEffectiveAccess (personal v userId) (getWorkspaceAccess s.site volumeId userId) with
        | none => _
        | some effective => _) = true ↔ _
      generalize computeEffectiveAccess (personal v userId) (getWorkspaceAccess s.site volumeId userId) = access
        at hknown ⊢
      cases access with
      | none => simp [level, and_comm]
      | some role =>
          rcases hknown role rfl with rfl | rfl
          · by_cases hmode : mode = "read_only"
            · simp [level, hmode]
            · simp [level, hmode]
          · by_cases hmode : mode = "read_only"
            · simp [level, hmode]
            · simp [level, hmode]

structure SameRows (s t : Site) : Prop where
  volumes : t.volumes = s.volumes
  workspaces : t.workspaces.Perm s.workspaces
  members : t.members.Perm s.members
  links : t.links.Perm s.links

theorem SameRows.owns {s t : Site} (h : SameRows s t) (workspaceId : Uuid) :
    Owns t userId workspaceId ↔ Owns s userId workspaceId := by
  simp only [Owns, h.workspaces.mem_iff]

theorem SameRows.joined {s t : Site} (h : SameRows s t) (workspaceId : Uuid) :
    Joined t userId workspaceId ↔ Joined s userId workspaceId := by
  simp only [Joined, h.members.mem_iff]

theorem SameRows.writes {s t : Site} (h : SameRows s t) (workspaceId : Uuid) :
    Writes t userId workspaceId ↔ Writes s userId workspaceId := by
  simp only [Writes, h.owns, h.members.mem_iff]

theorem given_mono {s t : Site} (hvolumes : t.volumes = s.volumes)
    (howns : ∀ workspaceId, Owns t userId workspaceId ↔ Owns s userId workspaceId)
    (hjoined : ∀ workspaceId, Joined t userId workspaceId ↔ Joined s userId workspaceId)
    (hwrites : ∀ workspaceId, Writes t userId workspaceId ↔ Writes s userId workspaceId)
    (hlinks : ∀ link ∈ s.links, link ∈ t.links) (h : Given s volumeId userId a) : Given t volumeId userId a := by
  cases h with
  | owner hv howner => exact .owner (hvolumes ▸ hv) howner
  | @writer link hlink hvolume hw hrole =>
      exact .writer (hlinks link hlink) hvolume ((hwrites link.workspaceId).mpr hw) hrole
  | @reader link hlink hvolume hbelongs hceiling =>
      refine .reader (hlinks link hlink) hvolume ?_ ?_
      · rwa [howns, hjoined]
      · rwa [hwrites]

theorem SameRows.given {s t : Site} (h : SameRows s t) : Given t volumeId userId a ↔ Given s volumeId userId a :=
  ⟨given_mono h.volumes.symm (fun w => (h.owns w).symm) (fun w => (h.joined w).symm) (fun w => (h.writes w).symm)
      fun _ => h.links.mem_iff.mp,
    given_mono h.volumes h.owns h.joined h.writes fun _ => h.links.mem_iff.mpr⟩

theorem SameRows.effective {s t : Site} (h : SameRows s t) :
    Effective t volumeId userId a ↔ Effective s volumeId userId a := by
  simp only [Effective, h.given]

theorem SameRows.allowed {s t : Site} (h : SameRows s t) (mode : String) :
    Allowed t volumeId userId mode ↔ Allowed s volumeId userId mode := by
  simp only [Allowed, h.effective, h.volumes]

theorem given_shared (extra : WorkspaceVolume) (h : Given s volumeId userId a) :
    Given { s with links := extra :: s.links } volumeId userId a :=
  given_mono (s := s) rfl (fun _ => Iff.rfl) (fun _ => Iff.rfl) (fun _ => Iff.rfl) (fun _ => List.mem_cons_of_mem extra) h

theorem exists_effective (h : Given s volumeId userId a) : ∃ b, Effective s volumeId userId b := by
  by_cases hread : Given s volumeId userId .readOnly
  · exact ⟨.readOnly, hread, fun b _ => Access.readOnly_le b⟩
  · refine ⟨.readWrite, ?_, ?_⟩
    · cases a with
      | readOnly => exact absurd h hread
      | readWrite => exact h
    · intro b hb
      cases b with
      | readOnly => exact absurd hb hread
      | readWrite => exact le_refl _

theorem effective_le_of_shared {extra : WorkspaceVolume} {b : Access} (h : Effective s volumeId userId a)
    (h' : Effective { s with links := extra :: s.links } volumeId userId b) : b ≤ a :=
  h.mono h' fun _ => given_shared extra

theorem allowed_of_shared {extra : WorkspaceVolume} {mode : String} (h : Effective s volumeId userId a)
    (h' : Allowed { s with links := extra :: s.links } volumeId userId mode) : Allowed s volumeId userId mode := by
  obtain ⟨v, hv, ⟨rfl, hwrite⟩ | ⟨rfl, -⟩⟩ := h'
  · refine ⟨v, hv, Or.inl ⟨rfl, ?_⟩⟩
    have hle := effective_le_of_shared h hwrite
    cases a with
    | readOnly => exact absurd hle (by decide)
    | readWrite => exact h
  · exact ⟨v, hv, Or.inr ⟨rfl, Or.inl ⟨a, h⟩⟩⟩

/-- The point check is the documented rule, whatever the order of the rows; a
share never raises the access of a user who has some. -/
theorem role_ceiling (s : Stored) (volumeId userId : Uuid) :
    (∀ mode, canAccessVolume s.site volumeId userId mode = true ↔ Allowed s.site volumeId userId mode) ∧
      (∀ (t : Stored) (mode : String), SameRows s.site t.site →
        canAccessVolume t.site volumeId userId mode = canAccessVolume s.site volumeId userId mode) ∧
      ∀ (t : Stored) (extra : WorkspaceVolume) (a : Access),
        SameRows { s.site with links := extra :: s.site.links } t.site → Effective s.site volumeId userId a →
          (∃ b ≤ a, Effective t.site volumeId userId b) ∧
            ∀ mode, canAccessVolume t.site volumeId userId mode = true →
              canAccessVolume s.site volumeId userId mode = true := by
  refine ⟨canAccessVolume_iff s volumeId userId, ?_, ?_⟩
  · intro t mode h
    rw [Bool.eq_iff_iff, canAccessVolume_iff, canAccessVolume_iff, h.allowed]
  · intro t extra a h ha
    refine ⟨?_, ?_⟩
    · obtain ⟨b, hb⟩ := exists_effective (given_shared extra ha.1)
      exact ⟨b, effective_le_of_shared ha hb, h.effective.mpr hb⟩
    · intro mode hmode
      rw [canAccessVolume_iff, h.allowed] at hmode
      exact (canAccessVolume_iff s volumeId userId mode).mpr (allowed_of_shared ha hmode)

/-- A user with a volume, and with a workspace that shares the volume so. -/
def workspaceOwner (links : List WorkspaceVolume) : Site :=
  ⟨fun id => if id = 1 then some ⟨"data", 7, "private"⟩ else none, [⟨3, 7⟩], [⟨3, 7, "admin"⟩], links, Tables.Table.empty _,
    2, []⟩

theorem unshared_keeps_access :
    (∃ b ≤ Access.readWrite, Effective (workspaceOwner [⟨3, 1, "read_only"⟩]) 1 7 b) ∧
      ∀ mode, canAccessVolume (workspaceOwner [⟨3, 1, "read_only"⟩]) 1 7 mode = true →
        canAccessVolume (workspaceOwner []) 1 7 mode = true := by
  have hreads : ∀ b, Given (workspaceOwner []) 1 7 b → b = .readWrite := by
    intro b hb
    cases hb with
    | owner => rfl
    | writer => rfl
    | reader hlink => cases hlink
  refine (role_ceiling ⟨workspaceOwner [], List.nodup_singleton _, List.forall_mem_nil _⟩ 1 7).2.2
    ⟨workspaceOwner [⟨3, 1, "read_only"⟩], List.nodup_singleton _, ?_⟩ ⟨3, 1, "read_only"⟩ .readWrite
    ⟨rfl, .refl _, .refl _, .refl _⟩ ⟨.owner rfl rfl, fun b hb => (hreads b hb).ge⟩
  intro link hlink
  rw [List.mem_singleton.mp hlink]
  exact Or.inl rfl

end NukeLab.VolumeCeiling
