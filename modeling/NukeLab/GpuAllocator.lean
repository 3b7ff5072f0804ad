import NukeLab.State

namespace NukeLab.GpuAllocator

open Program Records State

def reconcileGrace : Int := 15 * minute

def enabled (settings : Settings) : Bool := settings.gpuDeviceList.length > 0

def availableIn (pool : List Device) (rows : List GpuAllocation) : List Device :=
  pool.filter fun device => device ∉ rows.map GpuAllocation.device

def devicesOf (rows : List GpuAllocation) (serverId : Uuid) : List Device :=
  (rows.filter fun row => row.serverId = serverId).map GpuAllocation.device

def newRows (serverId firstId : Uuid) (devices : List Device) (now : Instant) : List GpuAllocation :=
  devices.mapIdx fun i device => { id := firstId + i, serverId := serverId, device := device, createdAt := now }

/-- The insert and its commit: refused when a device is already reserved, which
is what the unique constraint on the device column sees. -/
def insertRows (rows : List GpuAllocation) (serverId firstId : Uuid) (devices : List Device) (now : Instant) :
    Option (List GpuAllocation) :=
  if devices.Nodup ∧ ∀ device ∈ devices, device ∉ rows.map GpuAllocation.device then
    some (rows ++ newRows serverId firstId devices now)
  else none

def withoutServer (rows : List GpuAllocation) (serverId : Uuid) : List GpuAllocation :=
  rows.filter fun row => row.serverId ≠ serverId

/-- A row reconcile takes for stale, given the servers it looked up. -/
def stale (now : Instant) (server? : Uuid → Option Server) (row : GpuAllocation) : Bool :=
  decide (row.createdAt < now - reconcileGrace) &&
    match server? row.serverId with
    | none => true
    | some server => !server.status.active || server.allocatedGpu == 0

def allocate (serverId : Uuid) (count : Int) : Handler (Option (List Device)) := do
  let w ← get
  if count ≤ 0 ∨ ¬ enabled w.settings then return some []
  let devices := (availableIn w.settings.gpuDeviceList w.gpuAllocations).take count.toNat
  if devices.length < count then return none
  match insertRows w.gpuAllocations serverId w.nextUuid devices w.now with
  | none => return none
  | some rows =>
    set { w with gpuAllocations := rows, nextUuid := w.nextUuid + devices.length }
    return some devices

def devicesFor (serverId : Uuid) : Handler (List Device) := do
  return devicesOf (← get).gpuAllocations serverId

def release (serverId : Uuid) : Handler Unit :=
  modify fun w => { w with gpuAllocations := withoutServer w.gpuAllocations serverId }

def reconcile : Handler Unit :=
  modify fun w =>
    { w with gpuAllocations := w.gpuAllocations.filter fun row => ¬ stale w.now w.servers.find row }

def ensureGpuDevices (serverId : Uuid) (gpuCount : Int) : Handler (Option (List Device)) := do
  let w ← get
  if ¬ enabled w.settings ∨ gpuCount ≤ 0 then return none
  let devices ← devicesFor serverId
  if devices ≠ [] then return some devices
  match ← allocate serverId gpuCount with
  | none =>
    throw (.http 429 "No GPUs available on the host (all devices are in use). Please try again later.")
  | some devices => return some devices

theorem length_newRows (serverId firstId : Uuid) (devices : List Device) (now : Instant) :
    (newRows serverId firstId devices now).length = devices.length := List.length_mapIdx

theorem serverId_of_mem_newRows {serverId firstId : Uuid} {devices : List Device} {now : Instant}
    {row : GpuAllocation} (h : row ∈ newRows serverId firstId devices now) : row.serverId = serverId := by
  obtain ⟨i, hi, rfl⟩ := List.mem_mapIdx.mp h
  rfl

def taken (w : World) (count : Int) : List Device :=
  (availableIn w.settings.gpuDeviceList w.gpuAllocations).take count.toNat

def allocatable (w : World) (count : Int) : Bool :=
  decide (count ≤ (taken w count).length) && decide (taken w count).Nodup

def allocated (w : World) (serverId : Uuid) (count : Int) : World :=
  { w with
    gpuAllocations := w.gpuAllocations ++ newRows serverId w.nextUuid (taken w count) w.now
    nextUuid := w.nextUuid + (taken w count).length }

theorem insertRows_taken {w : World} {count : Int} (serverId firstId : Uuid) (hnodup : (taken w count).Nodup) :
    insertRows w.gpuAllocations serverId firstId (taken w count) w.now =
      some (w.gpuAllocations ++ newRows serverId firstId (taken w count) w.now) := by
  refine if_pos ⟨hnodup, fun device hdevice => ?_⟩
  have h := (List.mem_filter.mp (List.mem_of_mem_take hdevice)).2
  simpa only [decide_eq_true_eq] using h

theorem allocate_run (w : World) (serverId : Uuid) {count : Int} (hcount : 0 < count)
    (henabled : enabled w.settings = true) :
    (allocate serverId count).run w =
      if allocatable w count then .ok (some (taken w count)) (allocated w serverId count) else .ok none w := by
  have hstart : ¬ (count ≤ 0 ∨ ¬ enabled w.settings) := by simp [hcount, henabled]
  by_cases hshort : ((taken w count).length : Int) < count
  · rw [allocatable, decide_eq_false (not_le.mpr hshort)]
    simp only [taken] at hshort
    simp only [allocate, EStateM.run_bind, EStateM.run_get, if_neg hstart, if_pos hshort, EStateM.run_pure,
      Bool.false_and, Bool.false_eq_true, if_false]
  by_cases hnodup : (taken w count).Nodup
  · have hinsert := insertRows_taken serverId w.nextUuid hnodup
    rw [allocatable, decide_eq_true (not_lt.mp hshort), decide_eq_true hnodup]
    simp only [taken] at hshort hinsert
    simp only [allocate, EStateM.run_bind, EStateM.run_get, if_neg hstart, if_neg hshort, hinsert, EStateM.run_set,
      EStateM.run_pure, Bool.and_self, if_true, allocated, taken]
  · have hnone : insertRows w.gpuAllocations serverId w.nextUuid (taken w count) w.now = none :=
      if_neg fun h => hnodup h.1
    rw [allocatable, decide_eq_false hnodup]
    simp only [taken] at hshort hnone
    simp only [allocate, EStateM.run_bind, EStateM.run_get, if_neg hstart, if_neg hshort, hnone, EStateM.run_pure,
      Bool.and_false, Bool.false_eq_true, if_false]

end NukeLab.GpuAllocator
