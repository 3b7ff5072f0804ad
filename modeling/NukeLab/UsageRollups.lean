import Mathlib.Algebra.GroupWithZero.Nat
import Mathlib.Data.Finset.Sort
import NukeLab.DailyRollups
import NukeLab.GroupMeans

namespace NukeLab.UsageRollups

open Records Tables DailyRollups GroupMeans

structure Server where
  id : Uuid
  userId : Uuid

/-- A rollup of a server's day, its averages not rounded to their columns. -/
structure DailyServerMetric where
  serverId : Uuid
  date : Int
  avgCpu : Option ℚ
  peakCpu : Option ℚ
  avgMemory : Option ℚ
  peakMemory : Option ℚ
  avgNetworkRx : Option ℚ
  avgNetworkTx : Option ℚ
  avgDiskRead : Option ℚ
  avgDiskWrite : Option ℚ
  avgGpu : Option ℚ
  peakGpu : Option ℚ
  dataPoints : Nat

def DailyServerMetric.key (row : DailyServerMetric) : Uuid × Int := (row.serverId, row.date)

def serverDay (s : Sample) : Uuid × Int := (s.serverId, s.date)

def bytes (column : Sample → Option Int) (s : Sample) : Option ℚ := (column s).map fun n => (n : ℚ)

/-- What `rollup_server_metrics` works out for a server and a day, before the integer
columns cut off fractions. -/
def rollupDay (raw : List Sample) (pair : Uuid × Int) : DailyServerMetric :=
  let rows := rowsOf raw pair
  { serverId := pair.1
    date := pair.2
    avgCpu := avg (rows.map Sample.cpuPercent)
    peakCpu := peak (rows.map Sample.cpuPercent)
    avgMemory := avg (rows.map Sample.memoryPercent)
    peakMemory := peak (rows.map Sample.memoryPercent)
    avgNetworkRx := avg (rows.map (bytes Sample.networkRxBytes))
    avgNetworkTx := avg (rows.map (bytes Sample.networkTxBytes))
    avgDiskRead := avg (rows.map (bytes Sample.diskReadBytes))
    avgDiskWrite := avg (rows.map (bytes Sample.diskWriteBytes))
    avgGpu := avg (rows.map Sample.gpuPercent)
    peakGpu := peak (rows.map Sample.gpuPercent)
    dataPoints := rows.length }

/-- The rollups of all the samples of a window of days, whatever there is of other days. -/
structure Rollups (raw : List Sample) (first last : Int) where
  rows : List DailyServerMetric
  unique : (rows.map DailyServerMetric.key).Nodup
  computed : ∀ row ∈ rows, first ≤ row.date → row.date ≤ last → row = rollupDay raw row.key ∧ ∃ s ∈ raw, serverDay s = row.key
  complete : ∀ s ∈ raw, first ≤ s.date → s.date ≤ last → serverDay s ∈ rows.map DailyServerMetric.key

structure DailyUsage where
  date : Int
  avgCpu : ℚ
  peakCpu : ℚ
  avgMemory : ℚ
  peakMemory : ℚ
  avgNetworkRx : ℚ
  avgNetworkTx : ℚ
  avgDiskRead : ℚ
  avgDiskWrite : ℚ
  avgGpu : ℚ
  peakGpu : ℚ
  dataPoints : Nat

structure PeakStats where
  peakCpu : ℚ
  peakMemory : ℚ
  peakGpu : ℚ
  overallAvgCpu : ℚ
  overallAvgMemory : ℚ

structure Usage where
  dailyUsage : List DailyUsage
  peakStats : PeakStats
  activeDays : Nat

def orZero (value : Option ℚ) : ℚ := value.getD 0

section Queries

variable {α : Type} (servers : Table Server.id) (userId : Uuid)

def groupByDate (date : α → Int) (rows : List α) : List (Int × List α) :=
  ((rows.map date).toFinset.sort (· ≤ ·)).map fun d => (d, rows.filter fun row => date row = d)

def ownedBy (serverId : Uuid) : Bool := (servers.find serverId).any fun server => server.userId = userId

def rawDay (date : Int) (rows : List Sample) : DailyUsage where
  date := date
  avgCpu := orZero (avg (rows.map Sample.cpuPercent))
  peakCpu := orZero (peak (rows.map Sample.cpuPercent))
  avgMemory := orZero (avg (rows.map Sample.memoryPercent))
  peakMemory := orZero (peak (rows.map Sample.memoryPercent))
  avgNetworkRx := orZero (avg (rows.map (bytes Sample.networkRxBytes)))
  avgNetworkTx := orZero (avg (rows.map (bytes Sample.networkTxBytes)))
  avgDiskRead := orZero (avg (rows.map (bytes Sample.diskReadBytes)))
  avgDiskWrite := orZero (avg (rows.map (bytes Sample.diskWriteBytes)))
  avgGpu := orZero (avg (rows.map Sample.gpuPercent))
  peakGpu := orZero (peak (rows.map Sample.gpuPercent))
  dataPoints := rows.length

def rawStats (rows : List Sample) : PeakStats where
  peakCpu := orZero (peak (rows.map Sample.cpuPercent))
  peakMemory := orZero (peak (rows.map Sample.memoryPercent))
  peakGpu := orZero (peak (rows.map Sample.gpuPercent))
  overallAvgCpu := orZero (avg (rows.map Sample.cpuPercent))
  overallAvgMemory := orZero (avg (rows.map Sample.memoryPercent))

def getUserUsageFromRaw (raw : List Sample) (since until_ : Instant) : Usage :=
  let rows := raw.filter fun s => ownedBy servers userId s.serverId ∧ since ≤ s.collectedAt ∧ s.collectedAt ≤ until_
  let dailyData := groupByDate Sample.date rows
  ⟨dailyData.map fun group => rawDay group.1 group.2, rawStats rows, dailyData.length⟩

def rolledUpDay (date : Int) (rows : List DailyServerMetric) : DailyUsage where
  date := date
  avgCpu := orZero (avg (rows.map DailyServerMetric.avgCpu))
  peakCpu := orZero (peak (rows.map DailyServerMetric.peakCpu))
  avgMemory := orZero (avg (rows.map DailyServerMetric.avgMemory))
  peakMemory := orZero (peak (rows.map DailyServerMetric.peakMemory))
  avgNetworkRx := orZero (avg (rows.map DailyServerMetric.avgNetworkRx))
  avgNetworkTx := orZero (avg (rows.map DailyServerMetric.avgNetworkTx))
  avgDiskRead := orZero (avg (rows.map DailyServerMetric.avgDiskRead))
  avgDiskWrite := orZero (avg (rows.map DailyServerMetric.avgDiskWrite))
  avgGpu := orZero (avg (rows.map DailyServerMetric.avgGpu))
  peakGpu := orZero (peak (rows.map DailyServerMetric.peakGpu))
  dataPoints := (rows.map DailyServerMetric.dataPoints).sum

def rolledUpStats (rows : List DailyServerMetric) : PeakStats where
  peakCpu := orZero (peak (rows.map DailyServerMetric.peakCpu))
  peakMemory := orZero (peak (rows.map DailyServerMetric.peakMemory))
  peakGpu := orZero (peak (rows.map DailyServerMetric.peakGpu))
  overallAvgCpu := orZero (avg (rows.map DailyServerMetric.avgCpu))
  overallAvgMemory := orZero (avg (rows.map DailyServerMetric.avgMemory))

def getUserUsageFromRollups (daily : List DailyServerMetric) (since until_ : Instant) : Usage :=
  let rows := daily.filter fun row => ownedBy servers userId row.serverId ∧ since / day ≤ row.date ∧ row.date ≤ until_ / day
  let dailyData := groupByDate DailyServerMetric.date rows
  ⟨dailyData.map fun group => rolledUpDay group.1 group.2, rolledUpStats rows, dailyData.length⟩

end Queries

def averagedDaily : List (Sample → Option ℚ) :=
  [Sample.cpuPercent, Sample.memoryPercent, bytes Sample.networkRxBytes, bytes Sample.networkTxBytes,
    bytes Sample.diskReadBytes, bytes Sample.diskWriteBytes, Sample.gpuPercent]

def averagedOverall : List (Sample → Option ℚ) := [Sample.cpuPercent, Sample.memoryPercent]

def readings (field : Sample → Option ℚ) (rows : List Sample) : List (List ℚ) :=
  ((rows.map serverDay).dedup.map fun pair => (rowsOf rows pair).filterMap field).filter fun values => values ≠ []

section Conditions

variable (servers : Table Server.id) (userId : Uuid) (raw : List Sample) (first last : Int)

def samplesOf : List Sample := raw.filter fun s => ownedBy servers userId s.serverId ∧ first ≤ s.date ∧ s.date ≤ last

/-- On each day, the servers with more readings have neither the larger averages nor the
smaller; and so for all the days together. -/
structure Uncorrelated : Prop where
  daily : ∀ date, ∀ field ∈ averagedDaily,
    Balanced (readings field ((samplesOf servers userId raw first last).filter fun s => s.date = date))
  overall : ∀ field ∈ averagedOverall, Balanced (readings field (samplesOf servers userId raw first last))

end Conditions

section Aggregates

variable {values values' : List (Option ℚ)} {groups : List (List (Option ℚ))}

theorem avg_of_nil (h : values.filterMap id = []) : avg values = none := if_pos h

theorem avg_of_ne_nil (h : values.filterMap id ≠ []) : avg values = some (mean (values.filterMap id)) := if_neg h

theorem orZero_avg (values : List (Option ℚ)) : orZero (avg values) = mean (values.filterMap id) := by
  by_cases h : values.filterMap id = []
  · rw [avg_of_nil h, h, mean_nil]
    rfl
  · rw [avg_of_ne_nil h]
    rfl

theorem avg_perm (h : values.Perm values') : orZero (avg values) = orZero (avg values') := by
  rw [orZero_avg, orZero_avg]
  exact mean_perm (h.filterMap id)

theorem peak_eq_some_iff {a : ℚ} : peak values = some a ↔ some a ∈ values ∧ ∀ b, some b ∈ values → b ≤ a := by
  rw [peak, List.max?_eq_some_iff]
  simp

theorem peak_perm (h : values.Perm values') : peak values = peak values' := by
  ext a
  simp only [peak_eq_some_iff, h.mem_iff]

theorem exists_peak {a : ℚ} (h : some a ∈ values) : ∃ b, peak values = some b := by
  rw [← Option.isSome_iff_exists, peak, List.isSome_max?_iff]
  exact List.ne_nil_of_mem (List.mem_filterMap.mpr ⟨some a, h, rfl⟩)

theorem peak_peaks (groups : List (List (Option ℚ))) : peak (groups.map peak) = peak groups.flatten := by
  ext a
  rw [peak_eq_some_iff, peak_eq_some_iff]
  constructor
  · rintro ⟨hmem, hle⟩
    obtain ⟨g, hg, ha⟩ := List.mem_map.mp hmem
    refine ⟨List.mem_flatten.mpr ⟨g, hg, (peak_eq_some_iff.mp ha).1⟩, ?_⟩
    intro b hb
    obtain ⟨g', hg', hb⟩ := List.mem_flatten.mp hb
    obtain ⟨c, hc⟩ := exists_peak hb
    exact ((peak_eq_some_iff.mp hc).2 b hb).trans (hle c (List.mem_map.mpr ⟨g', hg', hc⟩))
  · rintro ⟨hmem, hle⟩
    obtain ⟨g, hg, ha⟩ := List.mem_flatten.mp hmem
    constructor
    · apply List.mem_map.mpr
      refine ⟨g, hg, peak_eq_some_iff.mpr ⟨ha, ?_⟩⟩
      exact fun b hb => hle b (List.mem_flatten.mpr ⟨g, hg, hb⟩)
    · intro b hb
      obtain ⟨g', hg', hb⟩ := List.mem_map.mp hb
      exact hle b (List.mem_flatten.mpr ⟨g', hg', (peak_eq_some_iff.mp hb).1⟩)

def present (groups : List (List (Option ℚ))) : List (List ℚ) :=
  (groups.map fun g => g.filterMap id).filter fun values => values ≠ []

theorem present_ne : ∀ values ∈ present groups, values ≠ [] := fun _ hvalues => of_decide_eq_true (List.mem_filter.mp hvalues).2

theorem means_present (groups : List (List (Option ℚ))) : (groups.map avg).filterMap id = (present groups).map mean := by
  induction groups with
  | nil => rfl
  | cons g groups ih =>
      rw [present] at ih ⊢
      by_cases hg : g.filterMap id = []
      · rw [List.map_cons, avg_of_nil hg, List.filterMap_cons_none (f := id) rfl, ih, List.map_cons, hg, List.filter_cons_of_neg (by simp)]
      · rw [List.map_cons, avg_of_ne_nil hg, List.filterMap_cons_some (f := id) rfl, ih, List.map_cons,
          List.filter_cons_of_pos (by simpa using hg), List.map_cons]

theorem flatten_present (groups : List (List (Option ℚ))) : groups.flatten.filterMap id = (present groups).flatten := by
  induction groups with
  | nil => rfl
  | cons g groups ih =>
      rw [present] at ih ⊢
      by_cases hg : g.filterMap id = []
      · rw [List.flatten_cons, List.filterMap_append, ih, List.map_cons, hg, List.filter_cons_of_neg (by simp), List.nil_append]
      · rw [List.flatten_cons, List.filterMap_append, ih, List.map_cons, List.filter_cons_of_pos (by simpa using hg),
          List.flatten_cons]

theorem avg_avgs_iff (groups : List (List (Option ℚ))) :
    orZero (avg (groups.map avg)) = orZero (avg groups.flatten) ↔ Balanced (present groups) := by
  rw [orZero_avg, orZero_avg, means_present, flatten_present]
  exact mean_means_iff present_ne

end Aggregates

section Groups

variable {raw : List Sample} {first last : Int} {p : Uuid × Int → Bool}

def parts (rows : List Sample) : List (List Sample) := (rows.map serverDay).dedup.map (rowsOf rows)

theorem rowsOf_filter (p : Uuid × Int → Bool) {pair : Uuid × Int} (h : p pair) :
    rowsOf (raw.filter fun s => p (serverDay s)) pair = rowsOf raw pair := by
  rw [rowsOf, rowsOf, List.filter_filter]
  apply List.filter_congr
  intro s _
  by_cases hs : s.serverId = pair.1 ∧ s.date = pair.2
  · have hpair : serverDay s = pair := Prod.ext hs.1 hs.2
    simp [hs, hpair, h]
  · simp [hs]

theorem parts_flatten (rows : List Sample) : (parts rows).flatten.Perm rows := by
  have hrows : ∀ pair, rowsOf rows pair = rows.filter fun s => serverDay s = pair := by
    intro pair
    apply List.filter_congr
    intro s _
    simp only [serverDay, Prod.ext_iff]
  rw [parts, ← List.flatMap_def, funext hrows]
  apply perm_fibers serverDay (List.nodup_dedup _)
  exact fun s hs => List.mem_dedup.mpr (List.mem_map_of_mem hs)

theorem readings_eq (field : Sample → Option ℚ) (rows : List Sample) :
    readings field rows = present ((parts rows).map fun part => part.map field) := by
  simp only [readings, present, parts, List.map_map, Function.comp_def, List.filterMap_map, id]

theorem rows_perm (table : Rollups raw first last) (hwindow : ∀ pair, p pair → first ≤ pair.2 ∧ pair.2 ≤ last) :
    (table.rows.filter fun row => p row.key).Perm
      (((raw.filter fun s => p (serverDay s)).map serverDay).dedup.map (rollupDay raw)) := by
  have hrow : ∀ row ∈ table.rows.filter fun row => p row.key, row = rollupDay raw row.key ∧ ∃ s ∈ raw, serverDay s = row.key := by
    intro row hrow
    obtain ⟨hmem, hp⟩ := List.mem_filter.mp hrow
    obtain ⟨hfirst, hlast⟩ := hwindow row.key hp
    exact table.computed row hmem hfirst hlast
  have hkeys : ((table.rows.filter fun row => p row.key).map DailyServerMetric.key).Perm
      ((raw.filter fun s => p (serverDay s)).map serverDay).dedup := by
    apply (List.perm_ext_iff_of_nodup (table.unique.sublist (List.filter_sublist.map _)) (List.nodup_dedup _)).mpr
    intro pair
    rw [List.mem_dedup]
    constructor
    · intro hpair
      obtain ⟨row, hmem, rfl⟩ := List.mem_map.mp hpair
      obtain ⟨-, s, hs, hsame⟩ := hrow row hmem
      refine List.mem_map.mpr ⟨s, List.mem_filter.mpr ⟨hs, ?_⟩, hsame⟩
      exact hsame ▸ (List.mem_filter.mp hmem).2
    · intro hpair
      obtain ⟨s, hs, rfl⟩ := List.mem_map.mp hpair
      obtain ⟨hs, hp⟩ := List.mem_filter.mp hs
      obtain ⟨hfirst, hlast⟩ := hwindow (serverDay s) hp
      obtain ⟨row, hmem, hsame⟩ := List.mem_map.mp (table.complete s hs hfirst hlast)
      exact List.mem_map.mpr ⟨row, List.mem_filter.mpr ⟨hmem, hsame ▸ hp⟩, hsame⟩
  have hrows : table.rows.filter (fun row => p row.key) =
      ((table.rows.filter fun row => p row.key).map DailyServerMetric.key).map (rollupDay raw) := by
    rw [List.map_map]
    apply (List.map_id _).symm.trans
    exact List.map_congr_left fun row hmem => (hrow row hmem).1
  rw [hrows]
  exact hkeys.map _

theorem column_perm {β : Type} (col : DailyServerMetric → β) (g : List Sample → β) (table : Rollups raw first last)
    (hwindow : ∀ pair, p pair → first ≤ pair.2 ∧ pair.2 ≤ last)
    (hcol : ∀ pair, col (rollupDay raw pair) = g (rowsOf raw pair)) :
    ((table.rows.filter fun row => p row.key).map col).Perm ((parts (raw.filter fun s => p (serverDay s))).map g) := by
  have hparts : (((raw.filter fun s => p (serverDay s)).map serverDay).dedup.map (rollupDay raw)).map col =
      (parts (raw.filter fun s => p (serverDay s))).map g := by
    rw [parts, List.map_map, List.map_map]
    apply List.map_congr_left
    intro pair hpair
    obtain ⟨s, hs, rfl⟩ := List.mem_map.mp (List.mem_dedup.mp hpair)
    simp only [Function.comp, hcol, rowsOf_filter p (List.mem_filter.mp hs).2]
  exact hparts ▸ (rows_perm table hwindow).map col

theorem fields_perm {γ : Type} (field : Sample → γ) (rows : List Sample) :
    ((parts rows).map fun part => part.map field).flatten.Perm (rows.map field) := by
  rw [← List.map_flatten]
  exact (parts_flatten rows).map field

theorem avg_column_iff (table : Rollups raw first last) (hwindow : ∀ pair, p pair → first ≤ pair.2 ∧ pair.2 ≤ last)
    (col : DailyServerMetric → Option ℚ) (field : Sample → Option ℚ)
    (hcol : ∀ pair, col (rollupDay raw pair) = avg ((rowsOf raw pair).map field)) :
    orZero (avg ((table.rows.filter fun row => p row.key).map col)) =
        orZero (avg ((raw.filter fun s => p (serverDay s)).map field)) ↔
      Balanced (readings field (raw.filter fun s => p (serverDay s))) := by
  have hrolled := column_perm col (fun rows => avg (rows.map field)) table hwindow hcol
  have hmap : ((parts (raw.filter fun s => p (serverDay s))).map fun part => avg (part.map field)) =
      ((parts (raw.filter fun s => p (serverDay s))).map fun part => part.map field).map avg := by
    rw [List.map_map]
    rfl
  rw [avg_perm hrolled, hmap, ← avg_perm (fields_perm field _), readings_eq]
  exact avg_avgs_iff _

theorem peak_column (table : Rollups raw first last) (hwindow : ∀ pair, p pair → first ≤ pair.2 ∧ pair.2 ≤ last)
    (col : DailyServerMetric → Option ℚ) (field : Sample → Option ℚ)
    (hcol : ∀ pair, col (rollupDay raw pair) = peak ((rowsOf raw pair).map field)) :
    peak ((table.rows.filter fun row => p row.key).map col) = peak ((raw.filter fun s => p (serverDay s)).map field) := by
  have hrolled := column_perm col (fun rows => peak (rows.map field)) table hwindow hcol
  have hmap : ((parts (raw.filter fun s => p (serverDay s))).map fun part => peak (part.map field)) =
      ((parts (raw.filter fun s => p (serverDay s))).map fun part => part.map field).map peak := by
    rw [List.map_map]
    rfl
  rw [peak_perm hrolled, hmap, peak_peaks]
  exact peak_perm (fields_perm field _)

theorem count_column (table : Rollups raw first last) (hwindow : ∀ pair, p pair → first ≤ pair.2 ∧ pair.2 ≤ last) :
    ((table.rows.filter fun row => p row.key).map DailyServerMetric.dataPoints).sum =
      (raw.filter fun s => p (serverDay s)).length := by
  have hrolled := column_perm DailyServerMetric.dataPoints List.length table hwindow fun _ => rfl
  rw [hrolled.sum_eq, ← List.length_flatten]
  exact (parts_flatten _).length_eq

theorem day_eq_iff (date : Int) (table : Rollups raw first last) (hwindow : ∀ pair, p pair → first ≤ pair.2 ∧ pair.2 ≤ last) :
    rolledUpDay date (table.rows.filter fun row => p row.key) = rawDay date (raw.filter fun s => p (serverDay s)) ↔
      ∀ field ∈ averagedDaily, Balanced (readings field (raw.filter fun s => p (serverDay s))) := by
  simp only [averagedDaily, rolledUpDay, rawDay, DailyUsage.mk.injEq, true_and, count_column table hwindow, and_true, List.forall_mem_cons,
    List.not_mem_nil, false_implies, implies_true,
    peak_column table hwindow DailyServerMetric.peakCpu Sample.cpuPercent fun _ => rfl,
    peak_column table hwindow DailyServerMetric.peakMemory Sample.memoryPercent fun _ => rfl,
    peak_column table hwindow DailyServerMetric.peakGpu Sample.gpuPercent fun _ => rfl,
    avg_column_iff table hwindow DailyServerMetric.avgCpu Sample.cpuPercent fun _ => rfl,
    avg_column_iff table hwindow DailyServerMetric.avgMemory Sample.memoryPercent fun _ => rfl,
    avg_column_iff table hwindow DailyServerMetric.avgNetworkRx (bytes Sample.networkRxBytes) fun _ => rfl,
    avg_column_iff table hwindow DailyServerMetric.avgNetworkTx (bytes Sample.networkTxBytes) fun _ => rfl,
    avg_column_iff table hwindow DailyServerMetric.avgDiskRead (bytes Sample.diskReadBytes) fun _ => rfl,
    avg_column_iff table hwindow DailyServerMetric.avgDiskWrite (bytes Sample.diskWriteBytes) fun _ => rfl,
    avg_column_iff table hwindow DailyServerMetric.avgGpu Sample.gpuPercent fun _ => rfl]

theorem stats_eq_iff (table : Rollups raw first last) (hwindow : ∀ pair, p pair → first ≤ pair.2 ∧ pair.2 ≤ last) :
    rolledUpStats (table.rows.filter fun row => p row.key) = rawStats (raw.filter fun s => p (serverDay s)) ↔
      ∀ field ∈ averagedOverall, Balanced (readings field (raw.filter fun s => p (serverDay s))) := by
  simp only [averagedOverall, rolledUpStats, rawStats, PeakStats.mk.injEq, true_and, and_true, List.forall_mem_cons,
    List.not_mem_nil, false_implies, implies_true,
    peak_column table hwindow DailyServerMetric.peakCpu Sample.cpuPercent fun _ => rfl,
    peak_column table hwindow DailyServerMetric.peakMemory Sample.memoryPercent fun _ => rfl,
    peak_column table hwindow DailyServerMetric.peakGpu Sample.gpuPercent fun _ => rfl,
    avg_column_iff table hwindow DailyServerMetric.avgCpu Sample.cpuPercent fun _ => rfl,
    avg_column_iff table hwindow DailyServerMetric.avgMemory Sample.memoryPercent fun _ => rfl]

theorem days_eq (table : Rollups raw first last) (hwindow : ∀ pair, p pair → first ≤ pair.2 ∧ pair.2 ≤ last) :
    ((table.rows.filter fun row => p row.key).map DailyServerMetric.date).toFinset =
      ((raw.filter fun s => p (serverDay s)).map Sample.date).toFinset := by
  rw [List.toFinset_eq_of_perm _ _ ((rows_perm table hwindow).map DailyServerMetric.date)]
  ext date
  simp [rollupDay, serverDay]

theorem groupByDate_map {α β : Type} (date : α → Int) (rows : List α) (f : Int → List α → β) :
    (groupByDate date rows).map (fun group => f group.1 group.2) =
      ((rows.map date).toFinset.sort (· ≤ ·)).map fun d => f d (rows.filter fun row => date row = d) := by
  rw [groupByDate, List.map_map]
  rfl

theorem readings_nil (field : Sample → Option ℚ) : readings field [] = [] := rfl

theorem balanced_nil : Balanced ([] : List (List ℚ)) := rfl

theorem days_eq_iff (table : Rollups raw first last) (hwindow : ∀ pair, p pair → first ≤ pair.2 ∧ pair.2 ≤ last) :
    (groupByDate DailyServerMetric.date (table.rows.filter fun row => p row.key)).map (fun group => rolledUpDay group.1 group.2) =
        (groupByDate Sample.date (raw.filter fun s => p (serverDay s))).map (fun group => rawDay group.1 group.2) ↔
      ∀ date, ∀ field ∈ averagedDaily,
        Balanced (readings field ((raw.filter fun s => p (serverDay s)).filter fun s => s.date = date)) := by
  have hday : ∀ date, rolledUpDay date ((table.rows.filter fun row => p row.key).filter fun row => row.date = date) =
        rawDay date ((raw.filter fun s => p (serverDay s)).filter fun s => s.date = date) ↔
      ∀ field ∈ averagedDaily,
        Balanced (readings field ((raw.filter fun s => p (serverDay s)).filter fun s => s.date = date)) := by
    intro date
    rw [List.filter_filter, List.filter_filter]
    apply day_eq_iff (p := fun pair => decide (pair.2 = date) && p pair) date table
    intro pair hpair
    exact hwindow pair (Bool.and_eq_true_iff.mp hpair).2
  rw [groupByDate_map, groupByDate_map, days_eq table hwindow, List.map_inj_left]
  constructor
  · intro h date
    by_cases hdate : date ∈ ((raw.filter fun s => p (serverDay s)).map Sample.date).toFinset.sort (· ≤ ·)
    · exact (hday date).mp (h date hdate)
    · intro field _
      have hempty : ((raw.filter fun s => p (serverDay s)).filter fun s => s.date = date) = [] := by
        apply List.filter_eq_nil_iff.mpr
        intro s hs hsame
        apply hdate
        rw [Finset.mem_sort, List.mem_toFinset]
        exact List.mem_map.mpr ⟨s, hs, of_decide_eq_true hsame⟩
      rw [hempty, readings_nil]
      exact balanced_nil
  · exact fun h date _ => (hday date).mpr (h date)

end Groups

section Windows

variable {servers : Table Server.id} {userId : Uuid} {raw : List Sample} {first last : Int}

theorem first_day (first : Int) : first * day / day = first := Int.mul_ediv_cancel _ day_pos.ne'

theorem last_day (last : Int) : ((last + 1) * day - 1) / day = last := by
  have hrest : (day - 1) / day = 0 := by decide
  rw [add_mul, one_mul, add_sub_assoc, Int.add_comm, Int.add_mul_ediv_right _ _ day_pos.ne', hrest, zero_add]

theorem collected_iff (t first last : Int) :
    first * day ≤ t ∧ t ≤ (last + 1) * day - 1 ↔ first ≤ t / day ∧ t / day ≤ last := by
  rw [Int.le_ediv_iff_mul_le day_pos, ← Int.lt_add_one_iff (a := t / day), Int.ediv_lt_iff_lt_mul day_pos, Int.le_sub_one_iff]

end Windows

def rollUp (raw : List Sample) (first last : Int) : Rollups raw first last where
  rows := ((raw.filter fun s => first ≤ s.date ∧ s.date ≤ last).map serverDay).dedup.map (rollupDay raw)
  unique := by
    have hkeys : DailyServerMetric.key ∘ rollupDay raw = id := rfl
    rw [List.map_map, hkeys, List.map_id]
    exact List.nodup_dedup _
  computed := by
    intro row hrow _ _
    obtain ⟨pair, hpair, rfl⟩ := List.mem_map.mp hrow
    obtain ⟨s, hs, rfl⟩ := List.mem_map.mp (List.mem_dedup.mp hpair)
    exact ⟨rfl, s, (List.mem_filter.mp hs).1, rfl⟩
  complete := by
    intro s hs hfirst hlast
    apply List.mem_map.mpr
    refine ⟨rollupDay raw (serverDay s), List.mem_map_of_mem (List.mem_dedup.mpr (List.mem_map_of_mem ?_)), rfl⟩
    exact List.mem_filter.mpr ⟨hs, decide_eq_true ⟨hfirst, hlast⟩⟩

/-- The two queries of a window of whole days agree exactly where, on each of the days
and in the window, each average is of servers with readings in balance. -/
theorem rollups_agree_iff (servers : Table Server.id) (userId : Uuid) (raw : List Sample) (first last : Int)
    (table : Rollups raw first last) :
    getUserUsageFromRollups servers userId table.rows (first * day) ((last + 1) * day - 1) =
        getUserUsageFromRaw servers userId raw (first * day) ((last + 1) * day - 1) ↔
      Uncorrelated servers userId raw first last := by
  let p : Uuid × Int → Bool := fun pair => decide (ownedBy servers userId pair.1 ∧ first ≤ pair.2 ∧ pair.2 ≤ last)
  have hwindow : ∀ pair, p pair → first ≤ pair.2 ∧ pair.2 ≤ last := fun pair hpair => (of_decide_eq_true hpair).2
  have hsamples : samplesOf servers userId raw first last = raw.filter fun s => p (serverDay s) := rfl
  have hraw : (raw.filter fun s => ownedBy servers userId s.serverId ∧ first * day ≤ s.collectedAt ∧
      s.collectedAt ≤ (last + 1) * day - 1) = raw.filter fun s => p (serverDay s) := by
    apply List.filter_congr
    intro s _
    simp only [collected_iff]
    rfl
  have hrolled : (table.rows.filter fun row => ownedBy servers userId row.serverId ∧ first * day / day ≤ row.date ∧
      row.date ≤ ((last + 1) * day - 1) / day) = table.rows.filter fun row => p row.key := by
    rw [first_day, last_day]
    rfl
  have hdays := days_eq_iff table hwindow
  have hstats := stats_eq_iff table hwindow
  simp only [getUserUsageFromRollups, getUserUsageFromRaw, hraw, hrolled, Usage.mk.injEq]
  constructor
  · rintro ⟨hdaily, hpeak, -⟩
    exact ⟨hdays.mp hdaily, hstats.mp hpeak⟩
  · rintro ⟨hdaily, hoverall⟩
    refine ⟨hdays.mpr hdaily, hstats.mpr hoverall, ?_⟩
    simpa using congrArg List.length (hdays.mpr hdaily)

def twoServers : Table Server.id := ⟨[⟨1, 7⟩, ⟨2, 7⟩], by decide⟩

def cpuSample (serverId : Uuid) (cpuPercent : ℚ) (collectedAt : Instant) : Sample :=
  ⟨serverId, some cpuPercent, none, none, none, none, none, none, collectedAt⟩

/-- Of one server a reading of ten per cent, and of the other two of forty, are reported
as twenty-five per cent from the rollups. -/
theorem averages_of_averages :
    ¬ ∀ (servers : Table Server.id) (userId : Uuid) (raw : List Sample) (first last : Int) (table : Rollups raw first last),
      getUserUsageFromRollups servers userId table.rows (first * day) ((last + 1) * day - 1) =
        getUserUsageFromRaw servers userId raw (first * day) ((last + 1) * day - 1) := by
  intro h
  have hcpu := congrArg (fun usage => usage.peakStats.overallAvgCpu)
    (h twoServers 7 [cpuSample 1 10 0, cpuSample 2 40 0, cpuSample 2 40 minute] 0 0 (rollUp _ 0 0))
  revert hcpu
  decide +kernel

end NukeLab.UsageRollups
