import NukeLab.VolumeCeiling

namespace NukeLab.VolumeListing

open VolumeAccess VolumeCeiling Records

/-- The tables with the keys of the volumes table, and with every share's workspace in its own. -/
structure Catalogue extends Stored where
  ids : List Uuid
  ids_nodup : ids.Nodup
  mem_ids : ∀ id, id ∈ ids ↔ (site.volumes id).isSome
  workspace : ∀ link ∈ site.links, ∃ w ∈ site.workspaces, w.id = link.workspaceId

def modeText : Access → String
  | .readOnly => "read_only"
  | .readWrite => "read_write"

def ownedIds (c : Catalogue) (userId : Uuid) : List Uuid :=
  c.ids.filter fun id => (c.site.volumes id).any fun v => v.ownerId = userId

def publicIds (c : Catalogue) : List Uuid :=
  c.ids.filter fun id => (c.site.volumes id).any fun v => v.visibility = "public"

/-- The shares joined to their workspaces and to the members of these, one row for each member. -/
def workspaceVolumes (s : Site) (userId : Uuid) : List WorkspaceVolume :=
  s.links.flatMap fun link =>
    (s.workspaces.filter fun w => w.id = link.workspaceId).flatMap fun w =>
      (s.members.filter fun m => m.workspaceId = w.id ∧ (m.userId = userId ∨ w.ownerId = userId)).map fun _ => link

def addEach (passes : Uuid → Bool) (ids new : List Uuid) : List Uuid :=
  new.foldl (fun ids id => if id ∉ ids ∧ passes id = true then ids ++ [id] else ids) ids

def getAccessibleVolumeIds (c : Catalogue) (userId : Uuid) (mode : String) : List Uuid :=
  let volumeIds := addEach (fun id => canAccessVolume c.site id userId mode) (ownedIds c userId)
    ((workspaceVolumes c.site userId).map WorkspaceVolume.volumeId)
  if mode = "read_only" then addEach (fun _ => true) volumeIds (publicIds c) else volumeIds

variable {c : Catalogue} {s : Site} {userId volumeId : Uuid} {mode : Access} {passes : Uuid → Bool}
  {ids new : List Uuid}

theorem mem_addEach : volumeId ∈ addEach passes ids new ↔ volumeId ∈ ids ∨ volumeId ∈ new ∧ passes volumeId = true := by
  induction new generalizing ids with
  | nil => simp [addEach]
  | cons id new ih =>
      rw [addEach, List.foldl_cons, ← addEach, ih, List.mem_cons]
      split
      · next h =>
          rw [List.mem_append, List.mem_singleton]
          constructor
          · rintro ((hid | rfl) | hnew)
            · exact Or.inl hid
            · exact Or.inr ⟨Or.inl rfl, h.2⟩
            · exact Or.inr ⟨Or.inr hnew.1, hnew.2⟩
          · rintro (hid | ⟨rfl | hnew, hpasses⟩)
            · exact Or.inl (Or.inl hid)
            · exact Or.inl (Or.inr rfl)
            · exact Or.inr ⟨hnew, hpasses⟩
      · next h =>
          constructor
          · rintro (hid | ⟨hnew, hpasses⟩)
            · exact Or.inl hid
            · exact Or.inr ⟨Or.inr hnew, hpasses⟩
          · rintro (hid | ⟨rfl | hnew, hpasses⟩)
            · exact Or.inl hid
            · exact Or.inl (by_contra fun hid => h ⟨hid, hpasses⟩)
            · exact Or.inr ⟨hnew, hpasses⟩

theorem nodup_addEach (h : ids.Nodup) : (addEach passes ids new).Nodup := by
  induction new generalizing ids with
  | nil => exact h
  | cons id new ih =>
      rw [addEach, List.foldl_cons, ← addEach]
      apply ih
      split
      · next hadd =>
          apply List.nodup_append.mpr
          refine ⟨h, List.nodup_singleton id, ?_⟩
          intro a ha b hb hab
          rw [hab, List.mem_singleton.mp hb] at ha
          exact hadd.1 ha
      · exact h

theorem nodup_listing (c : Catalogue) (userId : Uuid) (mode : String) :
    (getAccessibleVolumeIds c userId mode).Nodup := by
  rw [getAccessibleVolumeIds]
  have howned : (ownedIds c userId).Nodup := c.ids_nodup.filter _
  split
  · exact nodup_addEach (nodup_addEach howned)
  · exact nodup_addEach howned

def OwnVolume (s : Site) (volumeId userId : Uuid) : Prop := ∃ v, s.volumes volumeId = some v ∧ v.ownerId = userId

def Public (s : Site) (volumeId : Uuid) : Prop := ∃ v, s.volumes volumeId = some v ∧ v.visibility = "public"

theorem mem_ownedIds : volumeId ∈ ownedIds c userId ↔ OwnVolume c.site volumeId userId := by
  rw [ownedIds, List.mem_filter, c.mem_ids, OwnVolume]
  cases c.site.volumes volumeId <;> simp

theorem mem_publicIds : volumeId ∈ publicIds c ↔ Public c.site volumeId := by
  rw [publicIds, List.mem_filter, c.mem_ids, Public]
  cases c.site.volumes volumeId <;> simp

def Found (s : Site) (userId : Uuid) (link : WorkspaceVolume) : Prop :=
  (Owns s userId link.workspaceId ∨ Joined s userId link.workspaceId) ∧ ∃ m ∈ s.members, m.workspaceId = link.workspaceId

theorem mem_workspaceVolumes {link : WorkspaceVolume} :
    link ∈ workspaceVolumes c.site userId ↔ link ∈ c.site.links ∧ Found c.site userId link := by
  simp only [workspaceVolumes, List.mem_flatMap, List.mem_map, List.mem_filter, decide_eq_true_eq, Found]
  constructor
  · rintro ⟨link', hlink, w, ⟨hw, hid⟩, m, ⟨hm, hworkspace, hbelongs⟩, rfl⟩
    rw [hid] at hworkspace
    refine ⟨hlink, ?_, m, hm, hworkspace⟩
    rcases hbelongs with huser | howner
    · exact Or.inr ⟨m, hm, hworkspace, huser⟩
    · exact Or.inl ⟨w, hw, hid, howner⟩
  · rintro ⟨hlink, ⟨w, hw, hid, howner⟩ | ⟨m, hm, hworkspace, huser⟩, m', hm', hworkspace'⟩
    · exact ⟨link, hlink, w, ⟨hw, hid⟩, m', ⟨hm', hworkspace'.trans hid.symm, Or.inr howner⟩, rfl⟩
    · obtain ⟨w, hw, hid⟩ := c.workspace link hlink
      exact ⟨link, hlink, w, ⟨hw, hid⟩, m, ⟨hm, hworkspace.trans hid.symm, Or.inl huser⟩, rfl⟩

theorem mem_listing : volumeId ∈ getAccessibleVolumeIds c userId (modeText mode) ↔
    OwnVolume c.site volumeId userId ∨
      (∃ link ∈ c.site.links, link.volumeId = volumeId ∧ Found c.site userId link) ∧
        canAccessVolume c.site volumeId userId (modeText mode) = true ∨
      mode = .readOnly ∧ Public c.site volumeId := by
  have hshared : volumeId ∈ (workspaceVolumes c.site userId).map WorkspaceVolume.volumeId ↔
      ∃ link ∈ c.site.links, link.volumeId = volumeId ∧ Found c.site userId link := by
    simp only [List.mem_map, mem_workspaceVolumes]
    constructor
    · rintro ⟨link, ⟨hlink, hfound⟩, hvolume⟩
      exact ⟨link, hlink, hvolume, hfound⟩
    · rintro ⟨link, hlink, hvolume, hfound⟩
      exact ⟨link, ⟨hlink, hfound⟩, hvolume⟩
  cases mode with
  | readOnly =>
      simp only [getAccessibleVolumeIds, modeText, if_true, mem_addEach, mem_ownedIds, mem_publicIds, hshared, and_true,
        true_and, or_assoc]
  | readWrite =>
      rw [getAccessibleVolumeIds, modeText, if_neg (by decide : ¬ "read_write" = "read_only"), mem_addEach, mem_ownedIds,
        hshared]
      simp only [reduceCtorEq, false_and, or_false]

theorem effective_readWrite_iff :
    Effective s volumeId userId .readWrite ↔ Given s volumeId userId .readWrite ∧ ¬ Given s volumeId userId .readOnly := by
  constructor
  · rintro ⟨hgiven, hleast⟩
    exact ⟨hgiven, fun hread => absurd (hleast hread) (by decide)⟩
  · rintro ⟨hgiven, hread⟩
    refine ⟨hgiven, fun b hb => ?_⟩
    cases b with
    | readOnly => exact absurd hb hread
    | readWrite => exact le_refl _

def Capped (s : Site) (userId : Uuid) (mode : Access) (volumeId : Uuid) : Prop :=
  mode = .readWrite ∧ OwnVolume s volumeId userId ∧ Given s volumeId userId .readOnly

/-- Another's, and open to the user only through workspaces that are theirs and that have no member rows. -/
def Hidden (s : Site) (userId : Uuid) (mode : Access) (volumeId : Uuid) : Prop :=
  (s.volumes volumeId).isSome ∧ ¬ OwnVolume s volumeId userId ∧ ¬ (mode = .readOnly ∧ Public s volumeId) ∧
    (∃ a, Given s volumeId userId a) ∧ (mode = .readWrite → ¬ Given s volumeId userId .readOnly) ∧
    ∀ link ∈ s.links, link.volumeId = volumeId → ¬ Found s userId link

theorem canAccess_iff : canAccessVolume c.site volumeId userId (modeText mode) = true ↔
    (c.site.volumes volumeId).isSome ∧ ((∃ a, Given c.site volumeId userId a) ∧
      (mode = .readWrite → ¬ Given c.site volumeId userId .readOnly) ∨ mode = .readOnly ∧ Public c.site volumeId) := by
  rw [canAccessVolume_iff c.toStored, Allowed, Option.isSome_iff_exists]
  have heffective : (∃ a, Effective c.site volumeId userId a) ↔ ∃ a, Given c.site volumeId userId a := by
    constructor
    · rintro ⟨a, ha⟩
      exact ⟨a, ha.1⟩
    · rintro ⟨_, ha⟩
      exact exists_effective ha
  cases mode with
  | readOnly =>
      simp only [modeText, heffective, Public]
      constructor
      · rintro ⟨v, hv, ⟨hmode, -⟩ | ⟨-, hgiven | hpublic⟩⟩
        · exact absurd hmode (by decide)
        · exact ⟨⟨v, hv⟩, Or.inl ⟨hgiven, fun h => by cases h⟩⟩
        · exact ⟨⟨v, hv⟩, Or.inr ⟨trivial, v, hv, hpublic⟩⟩
      · rintro ⟨⟨v, hv⟩, ⟨hgiven, -⟩ | ⟨-, v', hv', hpublic⟩⟩
        · exact ⟨v, hv, Or.inr ⟨trivial, Or.inl hgiven⟩⟩
        · exact ⟨v', hv', Or.inr ⟨trivial, Or.inr hpublic⟩⟩
  | readWrite =>
      simp only [modeText, effective_readWrite_iff]
      constructor
      · rintro ⟨v, hv, ⟨-, hgiven, hread⟩ | ⟨hmode, -⟩⟩
        · exact ⟨⟨v, hv⟩, Or.inl ⟨⟨_, hgiven⟩, fun _ => hread⟩⟩
        · exact absurd hmode (by decide)
      · rintro ⟨⟨v, hv⟩, ⟨⟨a, ha⟩, hread⟩ | ⟨hmode, -⟩⟩
        · have hread := hread trivial
          refine ⟨v, hv, Or.inl ⟨trivial, ?_, hread⟩⟩
          cases a with
          | readOnly => exact absurd ha hread
          | readWrite => exact ha
        · cases hmode

theorem agrees_iff : (volumeId ∈ getAccessibleVolumeIds c userId (modeText mode) ↔
      canAccessVolume c.site volumeId userId (modeText mode) = true) ↔
    ¬ Capped c.site userId mode volumeId ∧ ¬ Hidden c.site userId mode volumeId := by
  have hshared : (∃ link ∈ c.site.links, link.volumeId = volumeId ∧ Found c.site userId link) ↔
      ¬ ∀ link ∈ c.site.links, link.volumeId = volumeId → ¬ Found c.site userId link := by
    push Not
    rfl
  have hown : OwnVolume c.site volumeId userId →
      (c.site.volumes volumeId).isSome ∧ ∃ a, Given c.site volumeId userId a := by
    rintro ⟨v, hv, howner⟩
    exact ⟨Option.isSome_iff_exists.mpr ⟨v, hv⟩, _, .owner hv howner⟩
  have hpublic : Public c.site volumeId → (c.site.volumes volumeId).isSome := by
    rintro ⟨v, hv, -⟩
    exact Option.isSome_iff_exists.mpr ⟨v, hv⟩
  have hmode : mode = .readWrite ↔ ¬ mode = .readOnly := by
    cases mode <;> simp
  rw [mem_listing, hshared, canAccess_iff, Capped, Hidden, hmode]
  generalize (∀ link ∈ c.site.links, link.volumeId = volumeId → ¬ Found c.site userId link) = unfound
  generalize OwnVolume c.site volumeId userId = own at hown ⊢
  generalize Public c.site volumeId = visible at hpublic ⊢
  generalize (∃ a, Given c.site volumeId userId a) = given at hown ⊢
  grind

/-- The listing never repeats an id. It is the point check's if and only if no volume is capped and none is hidden. -/
theorem listing_agrees_iff (c : Catalogue) (userId : Uuid) (mode : Access) :
    ((∀ volumeId, volumeId ∈ getAccessibleVolumeIds c userId (modeText mode) ↔
        canAccessVolume c.site volumeId userId (modeText mode) = true) ∧
      (getAccessibleVolumeIds c userId (modeText mode)).Nodup) ↔
      ∀ volumeId, ¬ Capped c.site userId mode volumeId ∧ ¬ Hidden c.site userId mode volumeId := by
  rw [and_iff_left (nodup_listing c userId (modeText mode))]
  exact forall_congr' fun volumeId => agrees_iff

/-- The volume of `workspaceOwner`, shared where its owner may only read. -/
theorem own_listed_beyond_ceiling :
    ¬ ∀ (c : Catalogue) (userId : Uuid) (mode : Access),
      (∀ volumeId, volumeId ∈ getAccessibleVolumeIds c userId (modeText mode) ↔
          canAccessVolume c.site volumeId userId (modeText mode) = true) ∧
        (getAccessibleVolumeIds c userId (modeText mode)).Nodup := by
  intro h
  have hids : ∀ id, id ∈ [1] ↔ ((workspaceOwner [⟨3, 1, "read_only"⟩]).volumes id).isSome := by
    intro id
    by_cases hid : id = 1 <;> simp [workspaceOwner, hid]
  have hlink : ∀ link ∈ (workspaceOwner [⟨3, 1, "read_only"⟩]).links, link = ⟨3, 1, "read_only"⟩ :=
    fun link hlink => List.mem_singleton.mp hlink
  have hlisted := ((h ⟨⟨workspaceOwner [⟨3, 1, "read_only"⟩], List.nodup_singleton _,
    fun link hl => hlink link hl ▸ Or.inl rfl⟩, [1], List.nodup_singleton _, hids,
    fun link hl => ⟨⟨3, 7⟩, List.mem_singleton.mpr rfl, hlink link hl ▸ rfl⟩⟩ 7 .readWrite).1 1).mp
    (List.mem_singleton.mpr rfl)
  cases hlisted

end NukeLab.VolumeListing
