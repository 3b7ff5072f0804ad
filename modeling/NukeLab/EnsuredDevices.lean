import NukeLab.GpuReservation

namespace NukeLab.EnsuredDevices

open Program Tables Interleaving Records State GpuAllocator GpuReservation

variable {gpuDevices : String} {answer : Answer} {serverId : Uuid} {gpuCount : Int} {s : Reservations}

def noGpus : Raise :=
  .http 429 "No GPUs available on the host (all devices are in use). Please try again later."

def dataError : Raise := .exception "DataError"

/-- The devices forwarded to the spawner, and the table afterwards. -/
def ensureGpuDevices (gpuDevices : String) (answer : Answer) (serverId : Uuid) (gpuCount : Int) (s : Reservations) :
    Except Raise (Option (List Device)) × Reservations :=
  if gpuDeviceList gpuDevices = [] ∨ gpuCount ≤ 0 then (.ok none, s)
  else if devicesOf s.allocations.rows serverId ≠ [] then (.ok (some (devicesOf s.allocations.rows serverId)), s)
  else
    match alone (advance gpuDevices) answer 2 s (.allocate serverId gpuCount) with
    | (t, .returned (some devices)) => (.ok (some devices), t)
    | (t, .returned none) => (.error noGpus, t)
    | (t, _) => (.error dataError, t)

/-- What a spawn for so many devices relies on; the server then holds what it was given and nothing else. -/
def AsCounted (gpuDevices : String) (serverId : Uuid) (gpuCount : Int) (s : Reservations) :
    Except Raise (Option (List Device)) × Reservations → Prop
  | (.ok devices, t) =>
    ((devices.getD []).length : Int) = gpuCount ∧ (devices.getD []).Nodup ∧
      (∀ device ∈ devices.getD [], device ∈ gpuDeviceList gpuDevices) ∧
      devicesOf t.allocations.rows serverId = devices.getD []
  | (.error _, t) => t.allocations = s.allocations

theorem nodup_devicesOf (t : Table GpuAllocation.device) (serverId : Uuid) : (devicesOf t.rows serverId).Nodup :=
  t.nodup.sublist (List.filter_sublist.map GpuAllocation.device)

theorem devicesOf_append (rows extra : List GpuAllocation) :
    devicesOf (rows ++ extra) serverId = devicesOf rows serverId ++ devicesOf extra serverId := by
  simp only [devicesOf, List.filter_append, List.map_append]

theorem devicesOf_newRows (firstId : Uuid) (devices : List Device) (now : Instant) :
    devicesOf (newRows serverId firstId devices now) serverId = devices := by
  have hall : (newRows serverId firstId devices now).filter (fun row => row.serverId = serverId) =
      newRows serverId firstId devices now := by
    apply List.filter_eq_self.mpr
    intro row hrow
    exact decide_eq_true (serverId_of_mem_newRows hrow)
  rw [devicesOf, hall, devices_newRows]

theorem inserted_asCounted {devices : List Device} {now : Instant} {t : Table GpuAllocation.device} (nextUuid : Uuid)
    (hnone : devicesOf s.allocations.rows serverId = [])
    (hcount : (devices.length : Int) = gpuCount) (hpool : ∀ device ∈ devices, device ∈ gpuDeviceList gpuDevices)
    (h : insertEach s.allocations (newRows serverId s.nextUuid devices now) = .ok t) :
    AsCounted gpuDevices serverId gpuCount s (.ok (some devices), ⟨t, nextUuid⟩) := by
  obtain ⟨hnodup, -, -⟩ := granted_of_insertEach h nextUuid
  refine ⟨hcount, hnodup, hpool, ?_⟩
  change devicesOf t.rows serverId = devices
  rw [rows_of_insertEach h, devicesOf_append, hnone, devicesOf_newRows, List.nil_append]

theorem asCounted_of_none (hpool : gpuDeviceList gpuDevices ≠ []) (hcount : 0 < gpuCount)
    (hnone : devicesOf s.allocations.rows serverId = []) :
    AsCounted gpuDevices serverId gpuCount s (ensureGpuDevices gpuDevices answer serverId gpuCount s) := by
  have hstart : ¬ (gpuCount ≤ 0 ∨ (gpuDeviceList gpuDevices).length = 0) := by
    rw [List.length_eq_zero_iff]
    exact not_or.mpr ⟨not_le.mpr hcount, hpool⟩
  have hneeds : ¬ (gpuDeviceList gpuDevices = [] ∨ gpuCount ≤ 0) := not_or.mpr ⟨hpool, not_le.mpr hcount⟩
  rw [ensureGpuDevices, if_neg hneeds, if_neg (not_not.mpr hnone)]
  simp only [alone, advance, if_neg hstart]
  generalize hdevices : (availableIn (gpuDeviceList gpuDevices) s.allocations.rows).take gpuCount.toNat = devices
  by_cases hshort : (devices.length : Int) < gpuCount
  · simp only [if_pos hshort]
    rfl
  simp only [if_neg hshort]
  cases hinsert : insertEach s.allocations (newRows serverId s.nextUuid devices answer.now) with
  | ok t =>
      have hle : devices.length ≤ gpuCount.toNat := hdevices ▸ List.length_take_le _ _
      have hlength : (devices.length : Int) = gpuCount := by omega
      exact inserted_asCounted _ hnone hlength (fun device h => mem_pool_of_taken (hdevices ▸ h)) hinsert
  | error refusal => cases refusal <;> rfl

theorem ensureGpuDevices_held (hpool : gpuDeviceList gpuDevices ≠ []) (hcount : 0 < gpuCount)
    (hheld : devicesOf s.allocations.rows serverId ≠ []) :
    ensureGpuDevices gpuDevices answer serverId gpuCount s =
      (.ok (some (devicesOf s.allocations.rows serverId)), s) := by
  rw [ensureGpuDevices, if_neg (not_or.mpr ⟨hpool, not_le.mpr hcount⟩), if_pos hheld]

theorem ensureGpuDevices_idle (hcount : gpuCount ≤ 0) :
    ensureGpuDevices gpuDevices answer serverId gpuCount s = (.ok none, s) := if_pos (Or.inr hcount)

/-- The devices held before are none, or as many as are counted now and all in the pool. -/
theorem asCounted_iff (hpool : gpuDeviceList gpuDevices ≠ []) (answer : Answer) (serverId : Uuid) (gpuCount : Int)
    (s : Reservations) :
    AsCounted gpuDevices serverId gpuCount s (ensureGpuDevices gpuDevices answer serverId gpuCount s) ↔
      0 ≤ gpuCount ∧ (devicesOf s.allocations.rows serverId = [] ∨
        ((devicesOf s.allocations.rows serverId).length : Int) = gpuCount ∧
          ∀ device ∈ devicesOf s.allocations.rows serverId, device ∈ gpuDeviceList gpuDevices) := by
  by_cases hcount : gpuCount ≤ 0
  · rw [ensureGpuDevices_idle hcount]
    constructor
    · rintro ⟨hlength, -, -, hheld⟩
      exact ⟨hlength ▸ Int.natCast_nonneg _, Or.inl hheld⟩
    · rintro ⟨hsome, hheld⟩
      obtain rfl := le_antisymm hcount hsome
      have hnone : devicesOf s.allocations.rows serverId = [] := by
        rcases hheld with hnone | ⟨hlength, -⟩
        · exact hnone
        · exact List.length_eq_zero_iff.mp (Int.natCast_eq_zero.mp hlength)
      exact ⟨rfl, List.nodup_nil, List.forall_mem_nil _, hnone⟩
  have hcount := not_le.mp hcount
  by_cases hnone : devicesOf s.allocations.rows serverId = []
  · exact iff_of_true (asCounted_of_none hpool hcount hnone) ⟨le_of_lt hcount, Or.inl hnone⟩
  · rw [ensureGpuDevices_held hpool hcount hnone]
    constructor
    · rintro ⟨hlength, -, hmem, -⟩
      exact ⟨le_of_lt hcount, Or.inr ⟨hlength, hmem⟩⟩
    · rintro ⟨-, hnone' | ⟨hlength, hmem⟩⟩
      · exact absurd hnone' hnone
      · exact ⟨hlength, nodup_devicesOf s.allocations serverId, hmem, rfl⟩

theorem nothing_held_asCounted : gpuDeviceList "gpu=0,gpu=1" ≠ [] ∧
    AsCounted "gpu=0,gpu=1" 5 2 ⟨Table.empty _, 9⟩
      (ensureGpuDevices "gpu=0,gpu=1" ⟨0, fun _ => none⟩ 5 2 ⟨Table.empty _, 9⟩) :=
  have hpool : gpuDeviceList "gpu=0,gpu=1" ≠ [] := by decide
  ⟨hpool, (asCounted_iff hpool ⟨0, fun _ => none⟩ 5 2 ⟨Table.empty _, 9⟩).mpr ⟨by decide, Or.inl rfl⟩⟩

/-- A server that holds one device, and whose plan now has two. -/
theorem upgraded_keeps_one :
    ¬ ∀ gpuDevices answer serverId gpuCount s, gpuDeviceList gpuDevices ≠ [] →
      AsCounted gpuDevices serverId gpuCount s (ensureGpuDevices gpuDevices answer serverId gpuCount s) := by
  intro h
  obtain ⟨hlength, -⟩ := h "gpu=0,gpu=1" ⟨0, fun _ => none⟩ 5 2
    ⟨⟨[⟨1, 5, "gpu=0", 0⟩], List.nodup_singleton _⟩, 2⟩ (by decide)
  exact absurd hlength (by decide)

/-- Where every name fits its column, this is what the handler does. -/
theorem ensureGpuDevices_run (w : World) (hpool : w.settings.gpuDeviceList = gpuDeviceList gpuDevices)
    (hfits : ∀ device ∈ gpuDeviceList gpuDevices, device.length ≤ deviceWidth)
    (hunique : (w.gpuAllocations.map GpuAllocation.device).Nodup) :
    ∃ t u, (ensureGpuDevices gpuDevices ⟨w.now, w.servers.find⟩ serverId gpuCount
        ⟨⟨w.gpuAllocations, hunique⟩, w.nextUuid⟩).2 = u ∧ u.allocations.rows = t.gpuAllocations ∧
      (GpuAllocator.ensureGpuDevices serverId gpuCount).run w =
        match (ensureGpuDevices gpuDevices ⟨w.now, w.servers.find⟩ serverId gpuCount
          ⟨⟨w.gpuAllocations, hunique⟩, w.nextUuid⟩).1 with
        | .ok devices => .ok devices t
        | .error raise => .error raise t := by
  by_cases hneeds : gpuDeviceList gpuDevices = [] ∨ gpuCount ≤ 0
  · have hneeds' : ¬ enabled w.settings ∨ gpuCount ≤ 0 := hneeds.imp_left fun h => by simp [enabled, hpool, h]
    refine ⟨w, _, rfl, ?_, ?_⟩
    · rw [ensureGpuDevices, if_pos hneeds]
    · simp only [GpuAllocator.ensureGpuDevices, EStateM.run_bind, EStateM.run_get, if_pos hneeds', EStateM.run_pure,
        ensureGpuDevices, if_pos hneeds]
  have hneeds' : ¬ (¬ enabled w.settings ∨ gpuCount ≤ 0) := by
    rw [enabled, hpool, decide_eq_true_iff, Nat.not_lt, Nat.le_zero, List.length_eq_zero_iff]
    exact hneeds
  by_cases hheld : devicesOf w.gpuAllocations serverId ≠ []
  · refine ⟨w, _, rfl, ?_, ?_⟩
    · rw [ensureGpuDevices, if_neg hneeds, if_pos hheld]
    · simp only [GpuAllocator.ensureGpuDevices, devicesFor, EStateM.run_bind, EStateM.run_get, if_neg hneeds',
        EStateM.run_pure, if_pos hheld, ensureGpuDevices, if_neg hneeds]
  obtain ⟨reply, t, u, hrun, halone, hrows⟩ := allocate_alone gpuDevices w hpool hfits hunique serverId gpuCount
  refine ⟨t, u, ?_, hrows, ?_⟩
  · simp only [ensureGpuDevices, if_neg hneeds, if_neg hheld, halone]
    cases reply <;> rfl
  · simp only [GpuAllocator.ensureGpuDevices, devicesFor, EStateM.run_bind, EStateM.run_get, if_neg hneeds',
      EStateM.run_pure, if_neg hheld, ensureGpuDevices, if_neg hneeds, halone, hrun]
    cases reply <;> rfl

end NukeLab.EnsuredDevices
