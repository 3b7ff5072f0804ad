import NukeLab.Double
import NukeLab.GpuAllocator

namespace NukeLab.Quota

open Tables Quantities Records State GpuAllocator

def serverUsage (s : Server) : Usage := ⟨s.allocatedCpu, s.allocatedMemory, s.allocatedGpu, 1⟩

def planUsage (plan : ServerPlan) : Usage := ⟨plan.cpuLimit, plan.memoryLimit, plan.gpuLimit, 1⟩

def mebibyte : Int := 1024 * 1024

def activeServers (w : World) (userId : Uuid) (exclude : Option Uuid) : List Server :=
  w.servers.rows.filter fun s => s.userId = userId ∧ s.status.active ∧ some s.id ≠ exclude

def diskUsageMb (volumes : List Volume) (userId : Uuid) : Int :=
  ((volumes.filter fun v => v.ownerId = userId).map fun v => v.maxSizeBytes.getD 0 / mebibyte).sum

def newQuota (limits : QuotaLimits) : ResourceQuota := { limits with usage := 0, usageDiskMb := 0 }

def quotaOf (w : World) (userId : Uuid) : ResourceQuota :=
  (w.quotas userId).getD (newQuota w.settings.quotaDefaults)

def saveQuota (userId : Uuid) (quota : ResourceQuota) : Handler Unit :=
  modify fun w => { w with quotas := Function.update w.quotas userId (some quota) }

def getOrCreateUserQuota (userId : Uuid) : Handler ResourceQuota := do
  let quota := quotaOf (← get) userId
  saveQuota userId quota
  return quota

def shares (w : World) (userId : Uuid) (exclude : Option Uuid) : List Usage :=
  (activeServers w userId exclude).map serverUsage

def recalculated (w : World) (userId : Uuid) (exclude : Option Uuid) : Usage := Usage.sum (shares w userId exclude)

def counted (userId : Uuid) (s : Server) : Usage := if s.userId = userId ∧ s.status.active then serverUsage s else 0

theorem counted_of_active {userId : Uuid} {s : Server} (h : s.userId = userId ∧ s.status.active) :
    counted userId s = serverUsage s := if_pos h

theorem counted_of_not {userId : Uuid} {s : Server} (h : ¬ (s.userId = userId ∧ s.status.active)) :
    counted userId s = 0 := if_neg h

theorem serverUsage_ne_zero (s : Server) : serverUsage s ≠ 0 := fun h => absurd (congrArg Usage.servers h) Int.one_ne_zero

theorem shares_eq_filter (w : World) (userId : Uuid) (exclude : Option Uuid) :
    shares w userId exclude =
      ((w.servers.rows.filter fun s => some s.id ≠ exclude).map (counted userId)).filter (· ≠ 0) := by
  simp only [shares, activeServers]
  induction w.servers.rows with
  | nil => rfl
  | cons s rows ih =>
      by_cases hexcluded : some s.id = exclude
      · rw [List.filter_cons_of_neg (by simp [hexcluded]), ih, List.filter_cons_of_neg (by simp [hexcluded])]
      by_cases h : s.userId = userId ∧ s.status.active
      · rw [List.filter_cons_of_pos (by simp [h, hexcluded]), List.map_cons, ih, List.filter_cons_of_pos (by simpa using hexcluded),
          List.map_cons, counted_of_active h, List.filter_cons_of_pos (by simpa using serverUsage_ne_zero s)]
      · rw [List.filter_cons_of_neg (by simpa [hexcluded] using h), ih, List.filter_cons_of_pos (by simpa using hexcluded), List.map_cons,
          counted_of_not h, List.filter_cons_of_neg (by simp)]

theorem shares_eq (w : World) (userId : Uuid) :
    shares w userId none = (w.servers.rows.map (counted userId)).filter (· ≠ 0) := by
  simp only [shares_eq_filter, ne_eq, reduceCtorEq, not_false_eq_true, decide_true, List.filter_true]

theorem shares_congr {w w' : World} {userId : Uuid}
    (h : w'.servers.rows.map (counted userId) = w.servers.rows.map (counted userId)) :
    shares w' userId none = shares w userId none := by
  rw [shares_eq, shares_eq, h]

theorem recalculated_congr {w w' : World} {userId : Uuid}
    (h : w'.servers.rows.map (counted userId) = w.servers.rows.map (counted userId)) :
    recalculated w' userId none = recalculated w userId none :=
  congrArg Usage.sum (shares_congr h)

theorem shares_sublist (w : World) (userId : Uuid) (exclude : Option Uuid) :
    (shares w userId exclude).Sublist (shares w userId none) := by
  refine List.Sublist.map serverUsage (List.monotone_filter_right _ fun s hs => ?_)
  simp only [decide_eq_true_eq] at hs ⊢
  exact ⟨hs.1, hs.2.1, by simp⟩

theorem sum_filter_ne_zero (usages : List Usage) : (usages.filter (· ≠ 0)).sum = usages.sum := by
  induction usages with
  | nil => rfl
  | cons usage usages ih =>
      by_cases h : usage = 0
      · rw [List.filter_cons_of_neg (by simpa using h), ih, h, List.sum_cons, zero_add]
      · rw [List.filter_cons_of_pos (by simpa using h), List.sum_cons, ih, List.sum_cons]

theorem sum_shares_others {w : World} {s : Server} (userId : Uuid) (hfind : w.servers.find s.id = some s) :
    (shares w userId (some s.id)).sum = (shares w userId none).sum - counted userId s := by
  have herase := Table.total_erase (counted userId) hfind
  simp only [Table.total, Table.erase, Table.filter] at herase
  rw [shares_eq_filter, shares_eq, sum_filter_ne_zero, sum_filter_ne_zero, ← herase]
  simp only [ne_eq, Option.some.injEq]

theorem shares_others_of_idle {w : World} {s : Server} {userId : Uuid} (hfind : w.servers.find s.id = some s)
    (hidle : counted userId s = 0) : shares w userId (some s.id) = shares w userId none := by
  rw [shares_eq_filter, shares_eq, List.filter_map, List.filter_map, List.filter_filter]
  congr 1
  refine List.filter_congr fun r hr => ?_
  by_cases hid : r.id = s.id
  · obtain rfl := Table.eq_of_mem_of_key hr (Table.mem_of_find hfind) hid
    simp [hidle]
  · simp [hid]

theorem counted_stopped {userId : Uuid} {s : Server} (h : s.status = .stopped) : counted userId s = 0 := by
  rw [counted, if_neg]
  simp [h, ServerStatus.active]

def recalculateUsage (userId : Uuid) (exclude : Option Uuid) : Handler ResourceQuota := do
  if enabled (← get).settings then reconcile
  let quota ← getOrCreateUserQuota userId
  let w ← get
  let quota :=
    { quota with usage := recalculated w userId exclude, usageDiskMb := diskUsageMb w.volumes userId }
  saveQuota userId quota
  return quota

/-- What recalculating a user's usage leaves: no stale device row, and the
counters as the servers have them. -/
def recalculatedWorld (w : World) (userId : Uuid) (exclude : Option Uuid) : World :=
  { w with
    gpuAllocations :=
      if enabled w.settings then w.gpuAllocations.filter fun row => ¬ stale w.now w.servers.find row
      else w.gpuAllocations
    quotas := Function.update w.quotas userId
      (some { quotaOf w userId with
        usage := recalculated w userId exclude, usageDiskMb := diskUsageMb w.volumes userId }) }

theorem recalculateUsage_run (w : World) (userId : Uuid) (exclude : Option Uuid) :
    (recalculateUsage userId exclude).run w =
      .ok (quotaOf (recalculatedWorld w userId exclude) userId) (recalculatedWorld w userId exclude) := by
  cases he : enabled w.settings <;>
    simp only [recalculateUsage, reconcile, getOrCreateUserQuota, saveQuota, EStateM.run_bind, EStateM.run_get,
      EStateM.run_modify, EStateM.run_pure, he, if_true, Bool.false_eq_true, if_false, recalculatedWorld, quotaOf,
      Function.update_self, Option.getD_some, Function.update_idem, recalculated, shares, activeServers]

/-- Why a spawn is refused, with the values its message quotes. -/
inductive SpawnRefusal
  | planNotFound
  | serverLimit (maxServers : Int)
  | planLimit (planName : String) (maxServersPerUser : Int)
  | cpuLimit (needed available limit used : ℚ)
  | memoryLimit (needed available limit used : Int)
  | gpuLimit (needed available limit used : Int)
  | gpuPool (poolSize : Nat)

def formatMemory (mb : Int) : String :=
  if mb ≥ 1024 * 1024 then Double.fixed (Double.div mb (1024 * 1024)) ++ " TB"
  else if mb ≥ 1024 then Double.fixed (Double.div mb 1024) ++ " GB"
  else toString mb ++ " MB"

def SpawnRefusal.reason : SpawnRefusal → String
  | .planNotFound => "Plan not found"
  | .serverLimit maxServers => "Maximum server limit reached (" ++ toString maxServers ++ ")"
  | .planLimit planName maxServersPerUser =>
    "Plan limit reached for " ++ planName ++ " (max " ++ toString maxServersPerUser ++ ")"
  | .cpuLimit needed available limit used =>
    "CPU limit exceeded. This plan needs " ++ Double.repr needed ++ " cores, but you only have " ++
      Double.fixed available ++ " cores available (limit: " ++ Double.repr limit ++ " cores, currently using: " ++
      Double.repr used ++ " cores)."
  | .memoryLimit needed available limit used =>
    "Memory limit exceeded. This plan needs " ++ formatMemory needed ++ ", but you only have " ++
      formatMemory available ++ " available (limit: " ++ formatMemory limit ++ ", currently using: " ++
      formatMemory used ++ ")."
  | .gpuLimit needed available limit used =>
    "GPU limit exceeded. This plan needs " ++ toString needed ++ " GPU(s), but you only have " ++
      toString available ++ " available (limit: " ++ toString limit ++ " GPU(s), currently using: " ++
      toString used ++ ")."
  | .gpuPool poolSize => "No GPUs available on the host (all " ++ toString poolSize ++ " in use)"

def planServerCount (w : World) (userId planId : Uuid) : Int :=
  (w.servers.rows.filter fun s => s.userId = userId ∧ s.planId = some planId ∧ s.status.active).length

/-- The checks of a spawn in their order, on usage just recalculated. -/
def spawnRefusal (w : World) (quota : ResourceQuota) (userId planId : Uuid) (exclude : Option Uuid) :
    Option SpawnRefusal :=
  match w.plans planId with
  | none => some .planNotFound
  | some plan =>
    if quota.usage.servers ≥ quota.maxServersTotal then some (.serverLimit quota.maxServersTotal)
    else if planServerCount w userId planId ≥ plan.maxServersPerUser then
      some (.planLimit plan.name plan.maxServersPerUser)
    else if Binary64.nearest (quota.usage.cpu + plan.cpuLimit) > quota.maxCpuTotal then
      some (.cpuLimit plan.cpuLimit (max 0 (Binary64.nearest (quota.maxCpuTotal - quota.usage.cpu))) quota.maxCpuTotal
        quota.usage.cpu)
    else if quota.usage.memoryMb + plan.memoryLimit > quota.maxMemoryTotal then
      some (.memoryLimit plan.memoryLimit (max 0 (quota.maxMemoryTotal - quota.usage.memoryMb))
        quota.maxMemoryTotal quota.usage.memoryMb)
    else if quota.usage.gpu + plan.gpuLimit > quota.maxGpuTotal then
      some (.gpuLimit plan.gpuLimit (max 0 (quota.maxGpuTotal - quota.usage.gpu)) quota.maxGpuTotal quota.usage.gpu)
    else if plan.gpuLimit > 0 ∧ enabled w.settings ∧
        ((availableIn w.settings.gpuDeviceList w.gpuAllocations).length +
          (match exclude with
            | some serverId => (devicesOf w.gpuAllocations serverId).length
            | none => 0) : Int) < plan.gpuLimit then
      some (.gpuPool w.settings.gpuDeviceList.length)
    else none

def checkSpawnAllowed (userId planId : Uuid) (exclude : Option Uuid) : Handler (Option SpawnRefusal) := do
  let quota ← recalculateUsage userId exclude
  return spawnRefusal (← get) quota userId planId exclude

theorem checkSpawnAllowed_run_excluding (w : World) (userId planId : Uuid) (exclude : Option Uuid) :
    (checkSpawnAllowed userId planId exclude).run w =
      .ok (spawnRefusal (recalculatedWorld w userId exclude) (quotaOf (recalculatedWorld w userId exclude) userId) userId
        planId exclude) (recalculatedWorld w userId exclude) := by
  rw [checkSpawnAllowed, EStateM.run_bind, recalculateUsage_run]
  rfl

theorem checkSpawnAllowed_run (w : World) (userId planId : Uuid) :
    (checkSpawnAllowed userId planId none).run w =
      .ok (spawnRefusal (recalculatedWorld w userId none) (quotaOf (recalculatedWorld w userId none) userId) userId
        planId none) (recalculatedWorld w userId none) :=
  checkSpawnAllowed_run_excluding w userId planId none

structure DiskRefusal where
  needed : Int
  available : Int
  limit : Int
  used : Int

def DiskRefusal.reason (refusal : DiskRefusal) : String :=
  "Disk quota exceeded. Volume needs " ++ formatMemory refusal.needed ++ ", but you only have " ++
    formatMemory refusal.available ++ " available (limit: " ++ formatMemory refusal.limit ++
    ", currently using: " ++ formatMemory refusal.used ++ ")."

def diskRefusal (w : World) (quota : ResourceQuota) (userId : Uuid) (requestedSizeBytes : Int) :
    Option DiskRefusal :=
  let used := diskUsageMb w.volumes userId
  let requestedMb := (if requestedSizeBytes = 0 then 1024 * mebibyte else requestedSizeBytes) / mebibyte
  if used + requestedMb > quota.maxDiskTotal then
    some ⟨requestedMb, max 0 (quota.maxDiskTotal - used), quota.maxDiskTotal, used⟩
  else none

def checkVolumeCreationAllowed (userId : Uuid) (requestedSizeBytes : Int) : Handler (Option DiskRefusal) := do
  let quota ← getOrCreateUserQuota userId
  return diskRefusal (← get) quota userId requestedSizeBytes

/-- The counters move by the plan's limits; a plan that is gone moves nothing. -/
def adjustUsage (move : Usage → Usage → Usage) (userId planId : Uuid) : Handler ResourceQuota := do
  let quota ← getOrCreateUserQuota userId
  match (← get).plans planId with
  | none => return quota
  | some plan =>
    let quota := { quota with usage := move quota.usage (planUsage plan) }
    saveQuota userId quota
    return quota

def incrementUsage (userId planId : Uuid) : Handler ResourceQuota := adjustUsage Usage.plus userId planId

def decrementUsage (userId planId : Uuid) : Handler ResourceQuota := adjustUsage Usage.monus userId planId

theorem quotaOf_update_self (w : World) (userId : Uuid) (quota : ResourceQuota) :
    quotaOf { w with quotas := Function.update w.quotas userId (some quota) } userId = quota := by
  simp only [quotaOf, Function.update_self, Option.getD_some]

def movedBy (move : Usage → Usage → Usage) (plan : Option ServerPlan) (usage : Usage) : Usage :=
  match plan with
  | some plan => move usage (planUsage plan)
  | none => usage

/-- What moving the usage counters does: only that user's quota row changes. -/
theorem adjustUsage_run (move : Usage → Usage → Usage) (userId planId : Uuid) (w : World) :
    ∃ quota, (adjustUsage move userId planId).run w =
        .ok quota { w with quotas := Function.update w.quotas userId (some quota) } ∧
      quota.usage = movedBy move (w.plans planId) (quotaOf w userId).usage := by
  cases hp : w.plans planId with
  | none =>
      refine ⟨quotaOf w userId, ?_, rfl⟩
      simp only [adjustUsage, getOrCreateUserQuota, saveQuota, EStateM.run_bind, EStateM.run_get,
        EStateM.run_modify, EStateM.run_pure, hp]
  | some plan =>
      refine ⟨{ quotaOf w userId with usage := move (quotaOf w userId).usage (planUsage plan) }, ?_, rfl⟩
      simp only [adjustUsage, getOrCreateUserQuota, saveQuota, EStateM.run_bind, EStateM.run_get,
        EStateM.run_modify, EStateM.run_pure, hp, Function.update_idem]

def totalCpu : ℚ := 34

def totalMemoryMb : Int := 68 * 1024

def totalDiskMb : Int := 2000 * 1024

structure Resources where
  cpu : ℚ
  memoryMb : Int
  diskMb : Int

def allocatedResources (w : World) : Resources :=
  let servers := w.servers.rows.filter fun s => s.status.active
  { cpu := Binary64.sum (servers.map Server.allocatedCpu)
    memoryMb := (servers.map Server.allocatedMemory).sum
    diskMb := (servers.map Server.allocatedDisk).sum }

def availableResources (w : World) : Resources :=
  let allocated := allocatedResources w
  { cpu := max 0 (Binary64.nearest (totalCpu - allocated.cpu))
    memoryMb := max 0 (totalMemoryMb - allocated.memoryMb)
    diskMb := max 0 (totalDiskMb - allocated.diskMb) }

def canFit (w : World) (planId : Uuid) : Bool :=
  match w.plans planId with
  | none => false
  | some plan =>
    let available := availableResources w
    available.cpu ≥ plan.cpuLimit && available.memoryMb ≥ plan.memoryLimit && available.diskMb ≥ plan.diskLimit

end NukeLab.Quota
