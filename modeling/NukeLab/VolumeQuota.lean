import Mathlib.Algebra.BigOperators.Ring.List
import Mathlib.Algebra.Order.BigOperators.Group.List
import NukeLab.Creation
import NukeLab.Machine

namespace NukeLab.VolumeQuota

open Tables Machine Records Quota Creation

structure VolumeRow where
  id : Uuid
  ownerId : Uuid
  sizeBytes : Option Int
  maxSizeBytes : Option Int

/-- The volumes, and each user's disk quota in mebibytes, as its text is read. -/
structure Site where
  volumes : Table VolumeRow.id
  quotas : Uuid → Option Int
  defaultMaxDisk : Int
  nextId : Uuid

def Site.maxDiskMb (s : Site) (userId : Uuid) : Int := (s.quotas userId).getD s.defaultMaxDisk

def getOrCreateUserQuota (s : Site) (userId : Uuid) : Site :=
  { s with quotas := Function.update s.quotas userId (some (s.maxDiskMb userId)) }

def volumeUsageMb (s : Site) (userId : Uuid) (exclude : Option Uuid) : Int :=
  ((s.volumes.rows.filter fun v => v.ownerId = userId ∧ some v.id ≠ exclude).map fun v =>
    v.maxSizeBytes.getD 0 / mebibyte).sum

def diskRefusal (s : Site) (userId : Uuid) (requestedSizeBytes : Option Int) (exclude : Option Uuid) :
    Option DiskRefusal :=
  let used := volumeUsageMb s userId exclude
  let requestedMb := sizeOr requestedSizeBytes (1024 * mebibyte) / mebibyte
  if used + requestedMb > s.maxDiskMb userId then
    some ⟨requestedMb, max 0 (s.maxDiskMb userId - used), s.maxDiskMb userId, used⟩
  else none

def checkVolumeCreationAllowed (s : Site) (userId : Uuid) (requestedSizeBytes : Option Int) (exclude : Option Uuid) :
    Except String Site :=
  let s := getOrCreateUserQuota s userId
  match diskRefusal s userId requestedSizeBytes exclude with
  | some refusal => .error refusal.reason
  | none => .ok s

def addVolume (ownerId : Uuid) (s : Site) (maxSizeBytes : Option Int) : Site :=
  { s with volumes := s.volumes.insert ⟨s.nextId, ownerId, some 0, maxSizeBytes⟩, nextId := s.nextId + 1 }

/-- How a request breaks off where sizes do not matter, if it does. -/
def stopping (fault : Option String) (s : Site) : Except String Site :=
  match fault with
  | some detail => .error detail
  | none => .ok s

def createVolume (s : Site) (userId : Uuid) (isAdmin : Bool) (maxSizeBytes : Option Int) (fault : Option String) :
    Except String Site :=
  if maxSizeBytes.isNone ∧ ¬ isAdmin then
    .error "max_size_bytes is required: volumes must have a size limit within your disk quota."
  else do
    let s ← checkVolumeCreationAllowed s userId maxSizeBytes none
    let s ← stopping fault s
    return addVolume userId s maxSizeBytes

/-- The disk quota is asked once for all the volumes a server is to have made. -/
def reserve (s : Site) (userId : Uuid) (newVolumeBytes : Int) : Except String Site :=
  if newVolumeBytes ≠ 0 then checkVolumeCreationAllowed s userId (some newVolumeBytes) none else .ok s

def unnamed (mounts : List MountRequest) : List MountRequest := mounts.filter fun m => m.volumeId.isNone

def newSizes (mounts : List MountRequest) (volumeId : Option Uuid) (planDiskBytes : Int) : List Int :=
  if mounts ≠ [] then (unnamed mounts).map fun m => sizeOr m.maxSizeBytes planDiskBytes
  else if volumeId.isSome then []
  else [planDiskBytes]

def createServer (s : Site) (userId : Uuid) (mounts : List MountRequest) (volumeId : Option Uuid) (planDiskBytes : Int)
    (fault : Option String) : Except String Site := do
  let sizes := newSizes mounts volumeId planDiskBytes
  let s ← reserve s userId sizes.sum
  let s ← stopping fault s
  return (sizes.map some).foldl (addVolume userId) s

/-- New mounts of a server there is; where it has no disk limit, the volumes made have none. -/
def updateServer (s : Site) (userId : Uuid) (mounts : List MountRequest) (diskLimit : Option Int)
    (fault : Option String) : Except String Site := do
  let s ← reserve s userId ((unnamed mounts).map fun m => sizeOr m.maxSizeBytes (diskLimit.getD 0)).sum
  let s ← stopping fault s
  return ((unnamed mounts).map fun m => diskLimit.map (sizeOr m.maxSizeBytes)).foldl (addVolume userId) s

def validateMaxSize (volume : VolumeRow) (maxSizeBytes : Option Int) : Option String :=
  match maxSizeBytes, volume.sizeBytes with
  | some limit, some size =>
    if limit < size then
      some ("Cannot set volume limit (" ++ toString limit ++ " bytes) below current volume size (" ++ toString size ++
        " bytes). Free up " ++ toString (size - limit) ++ " bytes first.")
    else none
  | _, _ => none

def resize (s : Site) (volumeId : Uuid) (maxSizeBytes : Option Int) : Site :=
  match maxSizeBytes with
  | some limit => { s with volumes := s.volumes.modify volumeId (fun v => { v with maxSizeBytes := some limit }) fun _ => rfl }
  | none => s

def updateVolume (s : Site) (volumeId : Uuid) (accessRefusal : Option String) (maxSizeBytes : Option Int)
    (statusRefusal : Option String) : Except String Site :=
  match s.volumes.find volumeId with
  | none => .error "Volume not found"
  | some volume => do
    let s ← stopping accessRefusal s
    let s ← stopping (validateMaxSize volume maxSizeBytes) s
    let s ←
      match maxSizeBytes with
      | some limit => checkVolumeCreationAllowed s volume.ownerId (some limit) (some volumeId)
      | none => .ok s
    let s ← stopping statusRefusal s
    return resize s volumeId maxSizeBytes

/-- The administrator's update looks at the volume's size only. -/
def adminUpdateVolume (s : Site) (volumeId : Uuid) (maxSizeBytes : Option Int) : Except String Site :=
  match s.volumes.find volumeId with
  | none => .error "Volume not found"
  | some volume => do
    let s ← stopping (validateMaxSize volume maxSizeBytes) s
    return resize s volumeId maxSizeBytes

inductive Event
  | createVolume (userId : Uuid) (isAdmin : Bool) (maxSizeBytes : Option Int) (fault : Option String)
  | createServer (userId : Uuid) (mounts : List MountRequest) (volumeId : Option Uuid) (planDiskBytes : Int)
    (fault : Option String)
  | updateServer (userId : Uuid) (mounts : List MountRequest) (diskLimit : Option Int) (fault : Option String)
  | updateVolume (volumeId : Uuid) (accessRefusal : Option String) (maxSizeBytes : Option Int)
    (statusRefusal : Option String)
  | adminUpdateVolume (volumeId : Uuid) (maxSizeBytes : Option Int)
  | deleteVolume (volumeId : Uuid)
  | measure (volumeId : Uuid) (sizeBytes : Int)

def attempt (s : Site) : Event → Except String Site
  | .createVolume userId isAdmin maxSizeBytes fault => createVolume s userId isAdmin maxSizeBytes fault
  | .createServer userId mounts volumeId planDiskBytes fault => createServer s userId mounts volumeId planDiskBytes fault
  | .updateServer userId mounts diskLimit fault => updateServer s userId mounts diskLimit fault
  | .updateVolume volumeId accessRefusal maxSizeBytes statusRefusal =>
    updateVolume s volumeId accessRefusal maxSizeBytes statusRefusal
  | .adminUpdateVolume volumeId maxSizeBytes => adminUpdateVolume s volumeId maxSizeBytes
  | .deleteVolume volumeId => .ok { s with volumes := s.volumes.erase volumeId }
  | .measure volumeId sizeBytes =>
    .ok { s with volumes := s.volumes.modify volumeId (fun v => { v with sizeBytes := some sizeBytes }) fun _ => rfl }

def step : Step Site Event := fun s event => (attempt s event).toOption

def limitOf (userId : Uuid) (v : VolumeRow) : Int := if v.ownerId = userId then v.maxSizeBytes.getD 0 else 0

structure Within (s : Site) : Prop where
  total : ∀ userId, s.volumes.total (limitOf userId) ≤ s.maxDiskMb userId * mebibyte
  positive : ∀ v ∈ s.volumes.rows, ∀ limit ∈ v.maxSizeBytes, 0 < limit

def Whole (size : Int) : Prop := 0 < size ∧ mebibyte ∣ size

/-- Sizes asked for are whole, and what an administrator sets is what the owner could. -/
def Guarded (s : Site) : Event → Prop
  | .createVolume _ _ maxSizeBytes _ => ∀ size ∈ maxSizeBytes, Whole size
  | .createServer _ mounts volumeId planDiskBytes _ => ∀ size ∈ newSizes mounts volumeId planDiskBytes, Whole size
  | .updateServer _ mounts diskLimit _ => ∀ bytes ∈ diskLimit, ∀ m ∈ unnamed mounts, Whole (sizeOr m.maxSizeBytes bytes)
  | .updateVolume _ _ maxSizeBytes _ => ∀ size ∈ maxSizeBytes, Whole size
  | .adminUpdateVolume volumeId maxSizeBytes =>
    ∀ size ∈ maxSizeBytes, Whole size ∧
      ∀ volume ∈ s.volumes.find volumeId, diskRefusal s volume.ownerId (some size) (some volumeId) = none
  | .deleteVolume _ => True
  | .measure _ _ => True

structure Tidy (s : Site) : Prop where
  whole : ∀ v ∈ s.volumes.rows, ∀ limit ∈ v.maxSizeBytes, Whole limit
  fresh : ∀ v ∈ s.volumes.rows, v.id < s.nextId

def Fits (s : Site) : Prop := ∀ userId, s.volumes.total (limitOf userId) ≤ s.maxDiskMb userId * mebibyte

section Usage

variable {s s' : Site} {userId : Uuid}

theorem Whole.ediv_mul {size : Int} (h : Whole size) : size / mebibyte * mebibyte = size := Int.ediv_mul_cancel h.2

/-- Of whole limits nothing is lost when they are added up in mebibytes. -/
theorem sum_floor (userId : Uuid) {rows : List VolumeRow} (h : ∀ v ∈ rows, ∀ limit ∈ v.maxSizeBytes, Whole limit) :
    ((rows.filter fun v => v.ownerId = userId).map fun v => v.maxSizeBytes.getD 0 / mebibyte).sum * mebibyte =
      (rows.map (limitOf userId)).sum := by
  induction rows with
  | nil => rfl
  | cons v rows ih =>
      obtain ⟨hv, hrows⟩ := List.forall_mem_cons.mp h
      have hfloor : v.maxSizeBytes.getD 0 / mebibyte * mebibyte = v.maxSizeBytes.getD 0 := by
        cases hlimit : v.maxSizeBytes with
        | none => rfl
        | some limit => exact (hv limit hlimit).ediv_mul
      rw [List.map_cons, List.sum_cons, limitOf]
      by_cases howner : v.ownerId = userId
      · rw [List.filter_cons_of_pos (by simpa using howner), List.map_cons, List.sum_cons, add_mul, ih hrows, hfloor,
          if_pos howner]
      · rw [List.filter_cons_of_neg (by simpa using howner), ih hrows, if_neg howner, zero_add]

theorem usage_none (h : Tidy s) : volumeUsageMb s userId none * mebibyte = s.volumes.total (limitOf userId) := by
  rw [volumeUsageMb, Table.total, ← sum_floor userId h.whole]
  simp

theorem usage_some (h : Tidy s) (volumeId : Uuid) :
    volumeUsageMb s userId (some volumeId) * mebibyte = (s.volumes.erase volumeId).total (limitOf userId) := by
  have hwhole : ∀ v ∈ (s.volumes.erase volumeId).rows, ∀ limit ∈ v.maxSizeBytes, Whole limit :=
    fun v hv => h.whole v (List.mem_of_mem_filter hv)
  rw [volumeUsageMb, Table.total, ← sum_floor userId hwhole, Table.erase, Table.filter, List.filter_filter]
  simp

theorem maxDiskMb_getOrCreate (s : Site) (userId other : Uuid) :
    (getOrCreateUserQuota s userId).maxDiskMb other = s.maxDiskMb other := by
  rw [getOrCreateUserQuota, Site.maxDiskMb]
  dsimp only
  by_cases h : other = userId
  · rw [h, Function.update_self, Option.getD_some]
  · rw [Function.update_of_ne h, Site.maxDiskMb]

theorem Tidy.getOrCreate (h : Tidy s) (userId : Uuid) : Tidy (getOrCreateUserQuota s userId) := ⟨h.whole, h.fresh⟩

theorem Fits.getOrCreate (h : Fits s) (userId : Uuid) : Fits (getOrCreateUserQuota s userId) := by
  intro other
  rw [maxDiskMb_getOrCreate]
  exact h other

theorem diskRefusal_eq_none {requested : Option Int} {exclude : Option Uuid}
    (h : diskRefusal s userId requested exclude = none) :
    volumeUsageMb s userId exclude + sizeOr requested (1024 * mebibyte) / mebibyte ≤ s.maxDiskMb userId := by
  rw [diskRefusal] at h
  split at h
  · cases h
  next hle => exact not_lt.mp hle

theorem check_ok {requested : Option Int} {exclude : Option Uuid}
    (h : checkVolumeCreationAllowed s userId requested exclude = .ok s') :
    s' = getOrCreateUserQuota s userId ∧
      diskRefusal (getOrCreateUserQuota s userId) userId requested exclude = none := by
  rw [checkVolumeCreationAllowed] at h
  split at h
  · cases h
  next hrefusal =>
    cases h
    exact ⟨rfl, hrefusal⟩

theorem stopping_ok {fault : Option String} (h : stopping fault s = .ok s') : s' = s := by
  cases fault with
  | some detail => cases h
  | none =>
      cases h
      rfl

theorem sizeOr_some {size fallback : Int} (h : Whole size) : sizeOr (some size) fallback = size := if_neg h.1.ne'

end Usage

section Steps

variable {s s' : Site} {userId : Uuid}

theorem find_nextId (h : Tidy s) : s.volumes.find s.nextId = none :=
  Table.find_eq_none_iff.mpr fun v hv => (h.fresh v hv).ne

theorem total_addVolume (h : Tidy s) (ownerId userId : Uuid) (size : Option Int) :
    (addVolume ownerId s size).volumes.total (limitOf userId) =
      s.volumes.total (limitOf userId) + if ownerId = userId then size.getD 0 else 0 :=
  Table.total_insert (limitOf userId) (find_nextId h)

theorem tidy_addVolume (h : Tidy s) (ownerId : Uuid) {size : Option Int} (hsize : ∀ limit ∈ size, Whole limit) :
    Tidy (addVolume ownerId s size) := by
  constructor
  · intro v hv limit hlimit
    obtain hv | rfl := Table.mem_or_eq_of_mem_insert hv
    · exact h.whole v hv limit hlimit
    · exact hsize limit hlimit
  · intro v hv
    obtain hv | rfl := Table.mem_or_eq_of_mem_insert hv
    · exact Nat.lt_succ_of_lt (h.fresh v hv)
    · exact Nat.lt_succ_self _

theorem tidy_addVolumes (h : Tidy s) (ownerId : Uuid) {sizes : List (Option Int)}
    (hsizes : ∀ size ∈ sizes, ∀ limit ∈ size, Whole limit) : Tidy (sizes.foldl (addVolume ownerId) s) := by
  induction sizes generalizing s with
  | nil => exact h
  | cons size sizes ih =>
      obtain ⟨hsize, hsizes⟩ := List.forall_mem_cons.mp hsizes
      exact ih (tidy_addVolume h ownerId hsize) hsizes

theorem total_addVolumes (h : Tidy s) (ownerId userId : Uuid) {sizes : List (Option Int)}
    (hsizes : ∀ size ∈ sizes, ∀ limit ∈ size, Whole limit) :
    (sizes.foldl (addVolume ownerId) s).volumes.total (limitOf userId) =
      s.volumes.total (limitOf userId) + if ownerId = userId then (sizes.map fun size => size.getD 0).sum else 0 := by
  induction sizes generalizing s with
  | nil => simp
  | cons size sizes ih =>
      obtain ⟨hsize, hsizes⟩ := List.forall_mem_cons.mp hsizes
      rw [List.foldl_cons, ih (tidy_addVolume h ownerId hsize) hsizes, total_addVolume h]
      split
      · rw [List.map_cons, List.sum_cons, add_assoc]
      · rw [add_zero]

theorem maxDiskMb_addVolumes (ownerId userId : Uuid) (sizes : List (Option Int)) :
    (sizes.foldl (addVolume ownerId) s).maxDiskMb userId = s.maxDiskMb userId := by
  induction sizes generalizing s with
  | nil => rfl
  | cons size sizes ih => exact ih

theorem fits_addVolumes (h : Tidy s) (hfits : Fits s) {sizes : List (Option Int)}
    (hsizes : ∀ size ∈ sizes, ∀ limit ∈ size, Whole limit)
    (hroom : s.volumes.total (limitOf userId) + (sizes.map fun size => size.getD 0).sum ≤ s.maxDiskMb userId * mebibyte) :
    Fits (sizes.foldl (addVolume userId) s) := by
  intro other
  rw [total_addVolumes h userId other hsizes, maxDiskMb_addVolumes]
  split
  next heq =>
    rw [← heq]
    exact hroom
  · rw [add_zero]
    exact hfits other

theorem room_of_check (h : Tidy s) {requested : Int} (hne : requested ≠ 0) (hdvd : mebibyte ∣ requested)
    (hcheck : diskRefusal s userId (some requested) none = none) :
    s.volumes.total (limitOf userId) + requested ≤ s.maxDiskMb userId * mebibyte := by
  have hle := diskRefusal_eq_none hcheck
  have hsize : sizeOr (some requested) (1024 * mebibyte) = requested := if_neg hne
  rw [hsize] at hle
  calc
    s.volumes.total (limitOf userId) + requested =
        volumeUsageMb s userId none * mebibyte + requested / mebibyte * mebibyte := by
      rw [usage_none h, Int.ediv_mul_cancel hdvd]
    _ = (volumeUsageMb s userId none + requested / mebibyte) * mebibyte := (add_mul _ _ _).symm
    _ ≤ s.maxDiskMb userId * mebibyte := Int.mul_le_mul_of_nonneg_right hle (by decide)

theorem reserve_ok {newVolumeBytes : Int} (h : reserve s userId newVolumeBytes = .ok s') :
    (newVolumeBytes = 0 ∧ s' = s) ∨
      newVolumeBytes ≠ 0 ∧ s' = getOrCreateUserQuota s userId ∧
        diskRefusal (getOrCreateUserQuota s userId) userId (some newVolumeBytes) none = none := by
  rw [reserve] at h
  split at h
  next hne => exact .inr ⟨hne, check_ok h⟩
  next hzero =>
    cases h
    exact .inl ⟨not_not.mp hzero, rfl⟩

theorem kept_reserve (h : Tidy s) (hfits : Fits s) {newVolumeBytes : Int} (hreserve : reserve s userId newVolumeBytes = .ok s')
    {sizes : List (Option Int)} (hsizes : ∀ size ∈ sizes, ∀ limit ∈ size, Whole limit)
    (hsum : (sizes.map fun size => size.getD 0).sum = 0 ∨
      (sizes.map fun size => size.getD 0).sum = newVolumeBytes ∧ mebibyte ∣ newVolumeBytes) :
    Tidy (sizes.foldl (addVolume userId) s') ∧ Fits (sizes.foldl (addVolume userId) s') := by
  have hroom {t : Site} (hfits : Fits t) (hzero : (sizes.map fun size => size.getD 0).sum = 0) :
      t.volumes.total (limitOf userId) + (sizes.map fun size => size.getD 0).sum ≤ t.maxDiskMb userId * mebibyte := by
    rw [hzero, add_zero]
    exact hfits userId
  obtain ⟨hzero, rfl⟩ | ⟨hne, rfl, hcheck⟩ := reserve_ok hreserve
  · have hnothing : (sizes.map fun size => size.getD 0).sum = 0 := hsum.elim id fun h => h.1.trans hzero
    exact ⟨tidy_addVolumes h userId hsizes, fits_addVolumes h hfits hsizes (hroom hfits hnothing)⟩
  · have ht := h.getOrCreate userId
    have hf := hfits.getOrCreate userId
    refine ⟨tidy_addVolumes ht userId hsizes, fits_addVolumes ht hf hsizes ?_⟩
    obtain hnothing | ⟨heq, hdvd⟩ := hsum
    · exact hroom hf hnothing
    · rw [heq]
      exact room_of_check ht hne hdvd hcheck

theorem kept_createVolume (h : Tidy s) (hfits : Fits s) {isAdmin : Bool} {maxSizeBytes : Option Int} {fault : Option String}
    (hsize : ∀ size ∈ maxSizeBytes, Whole size) (hok : createVolume s userId isAdmin maxSizeBytes fault = .ok s') :
    Tidy s' ∧ Fits s' := by
  rw [createVolume] at hok
  split at hok
  · cases hok
  · obtain ⟨t, hcheck, hrest⟩ := Program.ok_of_bind hok
    obtain ⟨u, hstop, hmade⟩ := Program.ok_of_bind hrest
    obtain rfl := stopping_ok hstop
    obtain ⟨rfl, hrefusal⟩ := check_ok hcheck
    cases hmade
    have ht := h.getOrCreate userId
    have hf := hfits.getOrCreate userId
    have hsizes : ∀ size ∈ [maxSizeBytes], ∀ limit ∈ size, Whole limit := List.forall_mem_singleton.mpr hsize
    have hadded : Fits ([maxSizeBytes].foldl (addVolume userId) (getOrCreateUserQuota s userId)) := by
      apply fits_addVolumes ht hf hsizes
      rw [List.map_singleton, List.sum_singleton]
      cases maxSizeBytes with
      | none =>
          rw [Option.getD_none, add_zero]
          exact hf userId
      | some size => exact room_of_check ht (hsize size rfl).1.ne' (hsize size rfl).2 hrefusal
    exact ⟨tidy_addVolume ht userId hsize, hadded⟩

theorem kept_createServer (h : Tidy s) (hfits : Fits s) {mounts : List MountRequest} {volumeId : Option Uuid}
    {planDiskBytes : Int} {fault : Option String} (hsizes : ∀ size ∈ newSizes mounts volumeId planDiskBytes, Whole size)
    (hok : createServer s userId mounts volumeId planDiskBytes fault = .ok s') : Tidy s' ∧ Fits s' := by
  obtain ⟨t, hreserve, hrest⟩ := Program.ok_of_bind hok
  obtain ⟨u, hstop, hmade⟩ := Program.ok_of_bind hrest
  obtain rfl := stopping_ok hstop
  cases hmade
  apply kept_reserve h hfits hreserve
  · intro size hsize limit hlimit
    obtain ⟨n, hn, rfl⟩ := List.mem_map.mp hsize
    cases hlimit
    exact hsizes limit hn
  · refine .inr ⟨?_, List.dvd_sum fun size hsize => (hsizes size hsize).2⟩
    rw [List.map_map]
    exact congrArg List.sum (List.map_id _)

theorem kept_updateServer (h : Tidy s) (hfits : Fits s) {mounts : List MountRequest} {diskLimit : Option Int}
    {fault : Option String} (hsizes : ∀ bytes ∈ diskLimit, ∀ m ∈ unnamed mounts, Whole (sizeOr m.maxSizeBytes bytes))
    (hok : updateServer s userId mounts diskLimit fault = .ok s') : Tidy s' ∧ Fits s' := by
  obtain ⟨t, hreserve, hrest⟩ := Program.ok_of_bind hok
  obtain ⟨u, hstop, hmade⟩ := Program.ok_of_bind hrest
  obtain rfl := stopping_ok hstop
  cases hmade
  apply kept_reserve h hfits hreserve
  · intro size hsize limit hlimit
    obtain ⟨m, hm, rfl⟩ := List.mem_map.mp hsize
    obtain ⟨bytes, hbytes, rfl⟩ := Option.map_eq_some_iff.mp hlimit
    exact hsizes bytes hbytes m hm
  · rw [List.map_map]
    cases diskLimit with
    | none =>
        left
        apply List.sum_eq_zero
        intro n hn
        obtain ⟨m, -, rfl⟩ := List.mem_map.mp hn
        rfl
    | some bytes =>
        refine .inr ⟨rfl, List.dvd_sum fun size hsize => ?_⟩
        obtain ⟨m, hm, rfl⟩ := List.mem_map.mp hsize
        exact (hsizes bytes rfl m hm).2

theorem kept_resize (h : Tidy s) (hfits : Fits s) {volume : VolumeRow} {volumeId : Uuid} {size : Int}
    (hfind : s.volumes.find volumeId = some volume) (hwhole : Whole size)
    (hcheck : diskRefusal s volume.ownerId (some size) (some volumeId) = none) :
    Tidy (resize s volumeId (some size)) ∧ Fits (resize s volumeId (some size)) := by
  refine ⟨⟨fun v hv limit hlimit => ?_, fun v hv => ?_⟩, fun other => ?_⟩
  · obtain ⟨r, hr, rfl⟩ := List.mem_map.mp hv
    split at hlimit
    · cases hlimit
      exact hwhole
    · exact h.whole r hr limit hlimit
  · obtain ⟨r, hr, rfl⟩ := List.mem_map.mp hv
    split
    · exact h.fresh r hr
    · exact h.fresh r hr
  · have hmodify := Table.total_modify (fun v => { v with maxSizeBytes := some size }) (fun _ => rfl) (limitOf other) hfind
    have hle := diskRefusal_eq_none hcheck
    rw [sizeOr_some hwhole] at hle
    refine hmodify.trans_le ?_
    by_cases howner : volume.ownerId = other
    · subst howner
      have hnew : limitOf volume.ownerId { volume with maxSizeBytes := some size } = size := if_pos rfl
      calc
        s.volumes.total (limitOf volume.ownerId) +
              (limitOf volume.ownerId { volume with maxSizeBytes := some size } - limitOf volume.ownerId volume) =
            (s.volumes.erase volumeId).total (limitOf volume.ownerId) + size := by
          rw [hnew, Table.total_erase (limitOf volume.ownerId) hfind]
          abel
        _ = volumeUsageMb s volume.ownerId (some volumeId) * mebibyte + size / mebibyte * mebibyte := by
          rw [usage_some h, hwhole.ediv_mul]
        _ = (volumeUsageMb s volume.ownerId (some volumeId) + size / mebibyte) * mebibyte := (add_mul _ _ _).symm
        _ ≤ s.maxDiskMb volume.ownerId * mebibyte := Int.mul_le_mul_of_nonneg_right hle (by decide)
    · have hsame : limitOf other { volume with maxSizeBytes := some size } - limitOf other volume = 0 := by
        rw [limitOf, limitOf, if_neg howner, if_neg howner, sub_zero]
      rw [hsame, add_zero]
      exact hfits other

theorem kept_updateVolume (h : Tidy s) (hfits : Fits s) {volumeId : Uuid} {accessRefusal statusRefusal : Option String}
    {maxSizeBytes : Option Int} (hsize : ∀ size ∈ maxSizeBytes, Whole size)
    (hok : updateVolume s volumeId accessRefusal maxSizeBytes statusRefusal = .ok s') : Tidy s' ∧ Fits s' := by
  rw [updateVolume] at hok
  split at hok
  · cases hok
  next volume hfind =>
    obtain ⟨t, haccess, hrest⟩ := Program.ok_of_bind hok
    obtain rfl := stopping_ok haccess
    obtain ⟨u, hvalid, hchecked⟩ := Program.ok_of_bind hrest
    obtain rfl := stopping_ok hvalid
    cases maxSizeBytes with
    | none =>
        obtain ⟨v, hsame, hlast⟩ := Program.ok_of_bind hchecked
        cases hsame
        obtain ⟨w, hstatus, hmade⟩ := Program.ok_of_bind hlast
        obtain rfl := stopping_ok hstatus
        cases hmade
        exact ⟨h, hfits⟩
    | some size =>
        obtain ⟨v, hcheck, hlast⟩ := Program.ok_of_bind hchecked
        obtain ⟨w, hstatus, hmade⟩ := Program.ok_of_bind hlast
        obtain rfl := stopping_ok hstatus
        cases hmade
        obtain ⟨rfl, hrefusal⟩ := check_ok hcheck
        exact kept_resize (h.getOrCreate _) (hfits.getOrCreate _) hfind (hsize size rfl) hrefusal

theorem kept_adminUpdateVolume (h : Tidy s) (hfits : Fits s) {volumeId : Uuid} {maxSizeBytes : Option Int}
    (hguard : Guarded s (.adminUpdateVolume volumeId maxSizeBytes))
    (hok : adminUpdateVolume s volumeId maxSizeBytes = .ok s') : Tidy s' ∧ Fits s' := by
  rw [adminUpdateVolume] at hok
  split at hok
  · cases hok
  next volume hfind =>
    obtain ⟨t, hvalid, hmade⟩ := Program.ok_of_bind hok
    obtain rfl := stopping_ok hvalid
    cases hmade
    cases maxSizeBytes with
    | none => exact ⟨h, hfits⟩
    | some size =>
        obtain ⟨hwhole, hfree⟩ := hguard size rfl
        exact kept_resize h hfits hfind hwhole (hfree volume hfind)

theorem limitOf_nonneg (h : Tidy s) (userId : Uuid) : ∀ v ∈ s.volumes.rows, 0 ≤ limitOf userId v := by
  intro v hv
  rw [limitOf]
  split
  · cases hlimit : v.maxSizeBytes with
    | none => exact le_rfl
    | some limit => exact (h.whole v hv limit hlimit).1.le
  · exact le_rfl

theorem kept_deleteVolume (h : Tidy s) (hfits : Fits s) (volumeId : Uuid) :
    Tidy { s with volumes := s.volumes.erase volumeId } ∧ Fits { s with volumes := s.volumes.erase volumeId } := by
  refine ⟨⟨fun v hv => h.whole v (List.mem_of_mem_filter hv), fun v hv => h.fresh v (List.mem_of_mem_filter hv)⟩,
    fun userId => ?_⟩
  have hsublist : ((s.volumes.erase volumeId).rows.map (limitOf userId)).Sublist (s.volumes.rows.map (limitOf userId)) :=
    List.filter_sublist.map _
  calc
    (s.volumes.erase volumeId).total (limitOf userId) ≤ s.volumes.total (limitOf userId) :=
      hsublist.sum_le_sum (List.forall_mem_map.mpr (limitOf_nonneg h userId))
    _ ≤ s.maxDiskMb userId * mebibyte := hfits userId

theorem kept_measure (h : Tidy s) (hfits : Fits s) (volumeId : Uuid) (sizeBytes : Int)
    (hok : attempt s (.measure volumeId sizeBytes) = .ok s') : Tidy s' ∧ Fits s' := by
  cases hok
  refine ⟨⟨fun v hv limit hlimit => ?_, fun v hv => ?_⟩, fun userId => ?_⟩
  · obtain ⟨r, hr, rfl⟩ := List.mem_map.mp hv
    split at hlimit <;> exact h.whole r hr limit hlimit
  · obtain ⟨r, hr, rfl⟩ := List.mem_map.mp hv
    split <;> exact h.fresh r hr
  · exact (Table.total_modify_of_eq volumeId (fun v : VolumeRow => { v with sizeBytes := some sizeBytes }) (fun _ => rfl)
      fun _ _ => rfl).trans_le (hfits userId)

theorem kept_step {event : Event} (hs : Tidy s ∧ Fits s) (hguard : Guarded s event) (hstep : step s event = some s') :
    Tidy s' ∧ Fits s' := by
  obtain ⟨h, hfits⟩ := hs
  have hok := Program.ok_of_toOption hstep
  cases event with
  | createVolume => exact kept_createVolume h hfits hguard hok
  | createServer => exact kept_createServer h hfits hguard hok
  | updateServer => exact kept_updateServer h hfits hguard hok
  | updateVolume => exact kept_updateVolume h hfits hguard hok
  | adminUpdateVolume => exact kept_adminUpdateVolume h hfits hguard hok
  | deleteVolume volumeId =>
      cases hok
      exact kept_deleteVolume h hfits volumeId
  | measure volumeId sizeBytes => exact kept_measure h hfits volumeId sizeBytes hok

end Steps

/-- Where only whole sizes are asked for, disk quotas hold through every run. -/
theorem within_of_guarded (s : Site) (htidy : Tidy s) (hfits : Fits s) (events : List Event)
    (h : AllSteps step Guarded s events) : AllStates step Within s events :=
  (allStates_of_allSteps (fun _ _ _ => kept_step) ⟨htidy, hfits⟩ h).mono fun _ hs =>
    ⟨hs.2, fun v hv limit hlimit => (hs.1.whole v hv limit hlimit).1⟩

def site : Site := ⟨Table.empty VolumeRow.id, fun _ => none, 102400, 0⟩

theorem tidy_site : Tidy site where
  whole _ hv := by cases hv
  fresh _ hv := by cases hv

theorem fits_site : Fits site := by
  intro userId
  have hlimit : (0 : Int) ≤ 102400 * mebibyte := by decide
  exact hlimit

theorem forall_whole {n : Int} (h : Whole n) : ∀ size ∈ some n, Whole size := by
  rintro size ⟨⟩
  exact h

/-- Volumes of two users, who both come to have all of their 100 GiB. -/
theorem within_gibibytes :
    AllStates step Within site
      [.createVolume 1 false (some 1073741824) none, .createVolume 2 false (some 107374182400) none,
        .createVolume 1 false (some 64424509440) none, .updateVolume 0 none (some 42949672960) none, .deleteVolume 1] := by
  apply within_of_guarded site tidy_site fits_site
  apply AllSteps.cons rfl (forall_whole ⟨by decide, by decide⟩)
  apply AllSteps.cons rfl (forall_whole ⟨by decide, by decide⟩)
  apply AllSteps.cons rfl (forall_whole ⟨by decide, by decide⟩)
  apply AllSteps.cons rfl (forall_whole ⟨by decide, by decide⟩)
  apply AllSteps.cons rfl trivial
  trivial

/-- What rounding down drops is enough to pass the quota, and a limit need not be one. -/
theorem quota_passed :
    (¬ AllStates step Within site
      [.createVolume 1 false (some 53687615488) none, .createVolume 1 false (some 53687615488) none]) ∧
      ¬ AllStates step Within site [.createVolume 1 false (some (-1)) none] := by
  constructor
  · intro h
    have hrun := h.mono fun s hs => hs.total 1
    revert hrun
    decide
  · intro h
    have hrun := h.mono fun s hs => fun v (hv : v ∈ s.volumes.rows) => show 0 < v.maxSizeBytes.getD 1 by
      cases hlimit : v.maxSizeBytes with
      | none => decide
      | some limit => exact hs.positive v hv limit hlimit
    revert hrun
    decide

end NukeLab.VolumeQuota
