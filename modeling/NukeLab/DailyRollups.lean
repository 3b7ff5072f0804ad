import Mathlib.Data.List.Dedup
import Mathlib.Data.List.Induction
import Mathlib.Tactic.Linarith
import NukeLab.RetentionPolicy

namespace NukeLab.DailyRollups

open Records RetentionPolicy

/-- A row of the raw metrics, with the columns that the rollup reads. -/
structure Sample where
  serverId : Uuid
  cpuPercent : Option ℚ
  memoryPercent : Option ℚ
  networkRxBytes : Option Int
  networkTxBytes : Option Int
  diskReadBytes : Option Int
  diskWriteBytes : Option Int
  gpuPercent : Option ℚ
  collectedAt : Instant

def Sample.date (s : Sample) : Int := s.collectedAt / day

structure DailyMetric where
  avgCpu : Option ℚ
  peakCpu : Option ℚ
  avgMemory : Option ℚ
  peakMemory : Option ℚ
  avgNetworkRx : Option Int
  avgNetworkTx : Option Int
  avgDiskRead : Option Int
  avgDiskWrite : Option Int
  avgGpu : Option ℚ
  peakGpu : Option ℚ
  dataPoints : Nat

structure Store where
  raw : List Sample
  daily : Uuid × Int → Option DailyMetric

/-- The average of the values that are not null. -/
def avg (values : List (Option ℚ)) : Option ℚ :=
  let present := values.filterMap id
  if present = [] then none else some (present.sum / present.length)

def avgWhole (values : List (Option Int)) : Option Int :=
  (avg (values.map fun value => value.map fun n => (n : ℚ))).map fun q => q.num.tdiv q.den

def peak (values : List (Option ℚ)) : Option ℚ := (values.filterMap id).max?

def rowsOf (raw : List Sample) (pair : Uuid × Int) : List Sample :=
  raw.filter fun s => s.serverId = pair.1 ∧ s.date = pair.2

def aggregate (rows : List Sample) : DailyMetric where
  avgCpu := avg (rows.map Sample.cpuPercent)
  peakCpu := peak (rows.map Sample.cpuPercent)
  avgMemory := avg (rows.map Sample.memoryPercent)
  peakMemory := peak (rows.map Sample.memoryPercent)
  avgNetworkRx := avgWhole (rows.map Sample.networkRxBytes)
  avgNetworkTx := avgWhole (rows.map Sample.networkTxBytes)
  avgDiskRead := avgWhole (rows.map Sample.diskReadBytes)
  avgDiskWrite := avgWhole (rows.map Sample.diskWriteBytes)
  avgGpu := avg (rows.map Sample.gpuPercent)
  peakGpu := peak (rows.map Sample.gpuPercent)
  dataPoints := rows.length

/-- The date on the worker's own clock, whatever time zone that shows. -/
structure Clock where
  today : Instant → Int
  near : ∀ now, now / day - 1 ≤ today now ∧ today now ≤ now / day + 1

def utc : Clock where
  today now := now / day
  near _ := ⟨sub_le_self _ zero_le_one, le_add_of_nonneg_right zero_le_one⟩

section Jobs

variable (clock : Clock)

def startDate (now : Instant) : Int := clock.today now - 7

def InWindow (now : Instant) (date : Int) : Prop := startDate clock now ≤ date ∧ date ≤ clock.today now

instance (now : Instant) (date : Int) : Decidable (InWindow clock now date) := inferInstanceAs (Decidable (_ ∧ _))

def pairs (now : Instant) (raw : List Sample) : List (Uuid × Int) :=
  ((raw.filter fun s => InWindow clock now s.date).map fun s => (s.serverId, s.date)).dedup

/-- Every day of the window that has a sample left is written over. -/
def rollupServerMetrics (now : Instant) (store : Store) : Store :=
  { store with
    daily := (pairs clock now store.raw).foldl
      (fun daily pair => Function.update daily pair (some (aggregate (rowsOf store.raw pair)))) store.daily }

structure Retention where
  metricsDays : Int
  rollupDays : Int
  metrics_range : checkRange "metrics_retention_days" (.int metricsDays) = .ok ()
  rollup_range : checkRange "daily_rollup_retention_days" (.int rollupDays) = .ok ()

def cleanupExpiredData (retention : Retention) (now : Instant) (store : Store) : Store where
  raw := store.raw.filter fun s => ¬ s.collectedAt < now - retention.metricsDays * day
  daily := fun pair => if pair.2 < (now - retention.rollupDays * day) / day then none else store.daily pair

inductive Job
  | rollup (now : Instant)
  | cleanup (now : Instant) (retention : Retention)

def Job.now : Job → Instant
  | .rollup now => now
  | .cleanup now _ => now

def step (store : Store) : Job → Store
  | .rollup now => rollupServerMetrics clock now store
  | .cleanup now retention => cleanupExpiredData retention now store

def run (jobs : List Job) (store : Store) : Store := jobs.foldl (step clock) store

structure Schedule where
  jobs : List Job
  ordered : jobs.Pairwise fun a b => a.now ≤ b.now

def Job.keeps (t : Instant) : Job → Bool
  | .rollup _ => true
  | .cleanup now retention => ¬ t < now - retention.metricsDays * day

def Kept (jobs : List Job) (t : Instant) : Prop := jobs.all (Job.keeps t) = true

instance (jobs : List Job) (t : Instant) : Decidable (Kept jobs t) := inferInstanceAs (Decidable (_ = true))

def Job.expires (date : Int) : Job → Bool
  | .rollup _ => false
  | .cleanup now retention => date < (now - retention.rollupDays * day) / day

/-- A rollup run has written the day that is over, and no sample of the day was missing. -/
structure Written (start store : Store) (now : Instant) (pair : Uuid × Int) : Prop where
  past : (pair.2 + 1) * day ≤ now
  mem : pair ∈ pairs clock now store.raw
  present : rowsOf store.raw pair = rowsOf start.raw pair

/-- What is written of a day that is over, from all its samples, stays until it expires. -/
def Final (jobs : List Job) (start : Store) : Prop :=
  ∀ before now later after, jobs = before ++ .rollup now :: (later ++ after) → ∀ pair,
    Written clock start (run clock before start) now pair → (∀ job ∈ later, job.expires pair.2 = false) →
    (run clock later (rollupServerMetrics clock now (run clock before start))).daily pair =
      (rollupServerMetrics clock now (run clock before start)).daily pair

/-- Some of a day's times, but not all that there were, are swept after one rollup of
the day that is over and before another. -/
def Cut (jobs : List Job) : Prop :=
  ∃ before now between now' after, jobs = before ++ .rollup now :: (between ++ .rollup now' :: after) ∧
    ∃ date, (date + 1) * day ≤ now ∧ InWindow clock now date ∧ InWindow clock now' date ∧
      ∃ swept kept : Instant, swept / day = date ∧ kept / day = date ∧ Kept before swept ∧ ¬ Kept between swept ∧
        Kept (before ++ between) kept

end Jobs

section Runs

variable {clock : Clock} {store start : Store} {jobs : List Job} {pair : Uuid × Int}

theorem run_append (jobs jobs' : List Job) (store : Store) :
    run clock (jobs ++ jobs') store = run clock jobs' (run clock jobs store) := List.foldl_append

theorem kept_append (jobs jobs' : List Job) (t : Instant) : Kept (jobs ++ jobs') t ↔ Kept jobs t ∧ Kept jobs' t := by
  simp [Kept, List.all_append]

theorem raw_run (jobs : List Job) (store : Store) :
    (run clock jobs store).raw = store.raw.filter fun s => Kept jobs s.collectedAt := by
  induction jobs generalizing store with
  | nil => simp [run, Kept]
  | cons job jobs ih =>
      have hrest : (run clock (job :: jobs) store).raw =
          (step clock store job).raw.filter fun s => Kept jobs s.collectedAt := ih _
      rw [hrest]
      cases job with
      | rollup now =>
          apply List.filter_congr
          simp [Kept, Job.keeps]
      | cleanup now retention =>
          rw [step, cleanupExpiredData, List.filter_filter]
          apply List.filter_congr
          simp [Kept, Job.keeps, Bool.and_comm]

theorem foldl_update {κ β : Type} [DecidableEq κ] (f : κ → β) (keys : List κ) (table : κ → β) (key : κ) :
    (keys.foldl (fun table key => Function.update table key (f key)) table) key =
      if key ∈ keys then f key else table key := by
  induction keys generalizing table with
  | nil => simp
  | cons k keys ih =>
      rw [List.foldl_cons, ih]
      by_cases hk : key = k
      · simp [hk]
      · simp [hk]

theorem mem_pairs {now : Instant} {raw : List Sample} :
    pair ∈ pairs clock now raw ↔ InWindow clock now pair.2 ∧ rowsOf raw pair ≠ [] := by
  simp only [pairs, rowsOf, List.mem_dedup, List.mem_map, List.mem_filter, ne_eq, List.filter_eq_nil_iff, decide_eq_true_eq]
  constructor
  · rintro ⟨s, ⟨hs, hwindow⟩, rfl⟩
    exact ⟨hwindow, fun h => h s hs ⟨rfl, rfl⟩⟩
  · rintro ⟨hwindow, hsome⟩
    push Not at hsome
    obtain ⟨s, hs, hserver, hdate⟩ := hsome
    exact ⟨s, ⟨hs, hdate ▸ hwindow⟩, Prod.ext hserver hdate⟩

theorem rollup_daily (clock : Clock) (now : Instant) (store : Store) (pair : Uuid × Int) :
    (rollupServerMetrics clock now store).daily pair =
      if pair ∈ pairs clock now store.raw then some (aggregate (rowsOf store.raw pair)) else store.daily pair := by
  simp only [rollupServerMetrics, foldl_update]
  congr

theorem rowsOf_run (clock : Clock) (jobs : List Job) (store : Store) (pair : Uuid × Int) :
    rowsOf (run clock jobs store).raw pair = (rowsOf store.raw pair).filter fun s => Kept jobs s.collectedAt := by
  rw [raw_run, rowsOf, rowsOf, List.filter_filter, List.filter_filter]
  apply List.filter_congr
  simp [Bool.and_comm]

theorem kept_of_mem_rowsOf {s : Sample} (h : s ∈ rowsOf (run clock jobs store).raw pair) :
    Kept jobs s.collectedAt ∧ s.collectedAt / day = pair.2 := by
  rw [rowsOf_run] at h
  obtain ⟨hmem, hkept⟩ := List.mem_filter.mp h
  have hrow : s.serverId = pair.1 ∧ s.date = pair.2 := by simpa using (List.mem_filter.mp hmem).2
  exact ⟨by simpa using hkept, hrow.2⟩

theorem final_of_not_cut (hcut : ¬ Cut clock jobs) (start : Store) : Final clock jobs start := by
  intro before now later after hjobs pair hwritten hlive
  induction later using List.reverseRec generalizing after with
  | nil => rfl
  | append_singleton later job ih =>
      have hsame := ih (job :: after) (by rw [hjobs]; simp) fun j hj => hlive j (List.mem_append_left _ hj)
      rw [run_append]
      cases job with
      | cleanup now' retention =>
          have hkeeps := hlive (.cleanup now' retention) (by simp)
          rw [← hsame]
          exact if_neg (by simpa [Job.expires] using hkeeps)
      | rollup now' =>
          have hdaily := rollup_daily clock now'
            (run clock later (rollupServerMetrics clock now (run clock before start))) pair
          refine hdaily.trans ?_
          split
          · rename_i hmem
            obtain ⟨hwindow, hleft⟩ := mem_pairs.mp hmem
            obtain ⟨kept, hkept⟩ := List.exists_mem_of_ne_nil _ hleft
            have hrows := rowsOf_run clock later (rollupServerMetrics clock now (run clock before start)) pair
            rw [rollup_daily, if_pos hwritten.mem]
            rw [hrows] at hkept ⊢
            congr 2
            apply List.filter_eq_self.mpr
            intro swept hswept
            by_contra hgone
            refine hcut ⟨before, now, later, now', after, by rw [hjobs]; simp, pair.2, hwritten.past,
              (mem_pairs.mp hwritten.mem).1, hwindow, swept.collectedAt, kept.collectedAt, ?_⟩
            obtain ⟨hmem, hkept⟩ := List.mem_filter.mp hkept
            obtain ⟨hbefore, hdate⟩ := kept_of_mem_rowsOf hswept
            obtain ⟨hbefore', hdate'⟩ := kept_of_mem_rowsOf hmem
            exact ⟨hdate, hdate', hbefore, by simpa using hgone, (kept_append _ _ _).mpr ⟨hbefore', by simpa using hkept⟩⟩
          · exact hsame

def sampleAt (t : Instant) : Sample := ⟨0, none, none, none, none, none, none, none, t⟩

theorem rowsOf_samples (swept kept : Instant) {date : Int} (hswept : swept / day = date) (hkept : kept / day = date) :
    rowsOf [sampleAt swept, sampleAt kept] (0, date) = [sampleAt swept, sampleAt kept] := by
  simp [rowsOf, sampleAt, Sample.date, hswept, hkept]

theorem Retention.rollupDays_ge (retention : Retention) : 30 ≤ retention.rollupDays := by
  have hrange : 30 ≤ retention.rollupDays ∧ retention.rollupDays ≤ 1825 :=
    range_of_checkRange (by decide) retention.rollup_range
  exact hrange.1

theorem expires_inWindow {job : Job} {now : Instant} {date : Int} (hjob : job.now ≤ now) (hwindow : InWindow clock now date) :
    job.expires date = false := by
  cases job with
  | rollup now' => rfl
  | cleanup now' retention =>
      have hdays := retention.rollupDays_ge
      have hnear := (clock.near now).1
      have hstart : clock.today now - 7 ≤ date := hwindow.1
      have hle : now' / day ≤ now / day := Int.ediv_le_ediv (by decide) hjob
      have hcutoff : (now' - retention.rollupDays * day) / day = now' / day - retention.rollupDays :=
        Int.sub_mul_ediv_right _ _ (by decide)
      rw [Job.expires, hcutoff, decide_eq_false_iff_not]
      linarith

theorem later_of_pairwise {before between after : List Job} {now now' : Instant}
    (h : (before ++ .rollup now :: (between ++ .rollup now' :: after)).Pairwise fun a b => a.now ≤ b.now) :
    ∀ job ∈ between, job.now ≤ now' := by
  intro job hjob
  exact (List.pairwise_append.mp (List.pairwise_append.mp h).2.1.of_cons).2.2 job hjob _ List.mem_cons_self

theorem not_final_of_cut {schedule : Schedule} (hcut : Cut clock schedule.jobs) :
    ∃ start, ¬ Final clock schedule.jobs start := by
  obtain ⟨before, now, between, now', after, hjobs, date, hover, hwindow, hwindow', swept, kept, hswept, hkept, hbefore,
    hgone, hleft⟩ := hcut
  obtain ⟨hbefore', hbetween⟩ := (kept_append _ _ _).mp hleft
  let start : Store := ⟨[sampleAt swept, sampleAt kept], fun _ => none⟩
  refine ⟨start, fun hfinal => ?_⟩
  have hall : rowsOf start.raw (0, date) = [sampleAt swept, sampleAt kept] := rowsOf_samples swept kept hswept hkept
  have hpresent : rowsOf (run clock before start).raw (0, date) = [sampleAt swept, sampleAt kept] := by
    simp [rowsOf_run, hall, sampleAt, hbefore, hbefore']
  have hmem : (0, date) ∈ pairs clock now (run clock before start).raw := mem_pairs.mpr ⟨hwindow, by simp [hpresent]⟩
  have hordered := hjobs ▸ schedule.ordered
  have hlive : ∀ job ∈ between ++ [.rollup now'], job.expires date = false := by
    intro job hjob
    rcases List.mem_append.mp hjob with hjob | hjob
    · exact expires_inWindow (later_of_pairwise hordered job hjob) hwindow'
    · rw [List.mem_singleton.mp hjob]
      rfl
  have hsame := hfinal before now (between ++ [.rollup now']) after (by rw [hjobs]; simp) (0, date)
    ⟨hover, hmem, by rw [hpresent, hall]⟩ hlive
  have hrest : rowsOf (run clock between (rollupServerMetrics clock now (run clock before start))).raw (0, date) =
      [sampleAt kept] := by
    have hrows : rowsOf (rollupServerMetrics clock now (run clock before start)).raw (0, date) = _ := hpresent
    simp [rowsOf_run, hrows, sampleAt, hgone, hbetween]
  have hmem' : (0, date) ∈ pairs clock now' (run clock between (rollupServerMetrics clock now (run clock before start))).raw :=
    mem_pairs.mpr ⟨hwindow', by simp [hrest]⟩
  have hafter := rollup_daily clock now' (run clock between (rollupServerMetrics clock now (run clock before start)))
    (0, date)
  rw [if_pos hmem', hrest] at hafter
  have hfirst := rollup_daily clock now (run clock before start) (0, date)
  rw [if_pos hmem, hpresent] at hfirst
  rw [run_append, hfirst] at hsame
  exact absurd (congrArg (Option.map DailyMetric.dataPoints) (hafter.symm.trans hsame)) (by simp [aggregate])

/-- Whatever the samples, what is written of a day that is over is final just
when no part of such a day is swept between two rollups of it. -/
theorem final_iff_not_cut (clock : Clock) (schedule : Schedule) :
    (∀ start, Final clock schedule.jobs start) ↔ ¬ Cut clock schedule.jobs := by
  constructor
  · intro hfinal hcut
    obtain ⟨start, hstart⟩ := not_final_of_cut hcut
    exact hstart (hfinal start)
  · exact final_of_not_cut

/-- A retention of eight days reaches back behind every window. -/
theorem final_of_eight_days (schedule : Schedule)
    (hdays : ∀ now retention, .cleanup now retention ∈ schedule.jobs → 8 ≤ retention.metricsDays) (start : Store) :
    Final utc schedule.jobs start := by
  apply final_of_not_cut
  rintro ⟨before, now, between, now', after, hjobs, date, -, -, hwindow, swept, -, hswept, -, -, hgone, -⟩
  have hlater := later_of_pairwise (hjobs ▸ schedule.ordered)
  obtain ⟨job, hjob, hsweeps⟩ : ∃ job ∈ between, ¬ job.keeps swept = true := by
    simpa [Kept] using hgone
  cases job with
  | rollup t => exact hsweeps rfl
  | cleanup t retention =>
      have hbound := hdays t retention (by rw [hjobs]; simp [hjob])
      have ht : t ≤ now' := hlater _ hjob
      have hcut : swept + retention.metricsDays * day < t := by simpa [Job.keeps] using hsweeps
      have hstart : now' / day - 7 ≤ swept / day := hswept ▸ hwindow.1
      have hday : (0 : Int) < day := by decide
      have hswept' : swept / day * day ≤ swept := Int.ediv_mul_le _ hday.ne'
      have hnow' : now' < (now' / day + 1) * day := Int.lt_ediv_add_one_mul_self now' hday
      nlinarith

end Runs

section MinimalRetention

def sevenDays : Retention := ⟨7, 730, rfl, rfl⟩

/-- A clean-up between two rollups, all on the early morning of one day. -/
def morning : Schedule where
  jobs := [.rollup (20 * day + 3 * hour), .cleanup (20 * day + 4 * hour) sevenDays, .rollup (20 * day + 5 * hour)]
  ordered := by decide

def twoSamples : Store := ⟨[sampleAt (13 * day + hour), sampleAt (13 * day + 12 * hour)], fun _ => none⟩

theorem morning_not_final : ¬ Final utc morning.jobs twoSamples := by
  intro h
  have hsame := h [] _ [.cleanup (20 * day + 4 * hour) sevenDays, .rollup (20 * day + 5 * hour)] [] rfl (0, 13)
    ⟨by decide, by decide +kernel, rfl⟩ (by decide)
  exact absurd (congrArg (Option.map DailyMetric.dataPoints) hsame) (by decide +kernel)

end MinimalRetention

end NukeLab.DailyRollups
