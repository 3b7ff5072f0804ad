import NukeLab.Calendar
import NukeLab.Program
import NukeLab.Records

namespace NukeLab.LedgerRetention

open Records Calendar Program

structure DateTime where
  year : Int
  month : Int
  day : Int
  time : Int
  hyear : 1 ≤ year ∧ year ≤ 9999
  hmonth : 1 ≤ month ∧ month ≤ 12
  hday : 1 ≤ day ∧ day ≤ daysInMonth year month
  htime : 0 ≤ time ∧ time < Records.day

namespace DateTime

def ym (now : DateTime) : Int := monthNumber now.year now.month

def ordinal (now : DateTime) : Int := daysBeforeYear now.year + daysBeforeMonth now.year now.month + now.day

def instant (now : DateTime) : Instant := now.ordinal * Records.day + now.time

def minusDays (now : DateTime) (days : Int) : Except String Instant :=
  if days < -999999999 ∨ 999999999 < days then
    .error ("days=" ++ toString days ++ "; must have magnitude <= 999999999")
  else if now.ordinal - days < 1 ∨ 3652059 < now.ordinal - days then .error "date value out of range"
  else .ok (now.instant - days * Records.day)

def minusMonths (now : DateTime) (months : Int) : Except String (Int × Int) :=
  let year := now.year - months / 12
  let month := now.month - months % 12
  let date := if month < 1 then (year - 1, month + 12) else (year, month)
  if date.1 < 1 then .error ("year " ++ toString date.1 ++ " is out of range") else .ok date

end DateTime

def monthStart (ym : Int) : Instant := firstDay ym * Records.day

def earliest : Instant := Records.day

structure Partition where
  year : Nat
  month : Nat
  rows : List CreditTransaction
  hyear : 1 ≤ year ∧ year ≤ 9999
  hmonth : 1 ≤ month ∧ month ≤ 12
  within : ∀ t ∈ rows, monthStart (monthNumber year month) ≤ t.createdAt ∧ t.createdAt < monthStart (monthNumber year month + 1)

def Partition.ym (p : Partition) : Int := monthNumber p.year p.month

def twoDigits (n : Nat) : List Char := if n < 10 then '0' :: Nat.toDigits 10 n else Nat.toDigits 10 n

def partitionName (table : String) (year month : Nat) : List Char :=
  table.toList ++ '_' :: 'y' :: (Nat.toDigits 10 year ++ 'm' :: twoDigits month)

def Partition.name (p : Partition) : List Char := partitionName "credit_transactions" p.year p.month

def afterMark : List Char → Option (List Char)
  | '_' :: 'y' :: rest => some rest
  | _ :: rest => afterMark rest
  | [] => none

def beforeMark : List Char → List Char
  | '_' :: 'y' :: _ => []
  | c :: rest => c :: beforeMark rest
  | [] => []

def parseNat (digits : List Char) : Option Nat :=
  if digits ≠ [] ∧ digits.all Char.isDigit then some (Nat.ofDigitChars 10 digits 0) else none

def nameYm (name : List Char) : Option Int := do
  let suffix := beforeMark (← afterMark name)
  let year ← parseNat (suffix.take 4)
  let month ← parseNat ((suffix.drop 5).take 2)
  return monthNumber year month

/-- The rows of the ledger by where they are kept; those of no partition are in the
default one. -/
structure Ledger where
  partitions : List Partition
  default : List CreditTransaction
  storable : ∀ t ∈ default, earliest ≤ t.createdAt
  apart : ∀ t ∈ default, ∀ p ∈ partitions, ¬ (monthStart p.ym ≤ t.createdAt ∧ t.createdAt < monthStart (p.ym + 1))
  distinct : (partitions.map Partition.ym).Nodup

def Ledger.rows (ledger : Ledger) : List CreditTransaction := ledger.partitions.flatMap (·.rows) ++ ledger.default

def Partition.tooOld (p : Partition) (cutoffYm : Int) : Bool :=
  match nameYm p.name with
  | some partYm => partYm < cutoffYm
  | none => false

def Ledger.keepPartitions (ledger : Ledger) (keep : Partition → Bool) : Ledger where
  partitions := ledger.partitions.filter keep
  default := ledger.default
  storable := ledger.storable
  apart t ht p hp := ledger.apart t ht p (List.mem_of_mem_filter hp)
  distinct := ledger.distinct.sublist (List.filter_sublist.map _)

def dropOldPartitions (ledger : Ledger) (now : DateTime) (monthsToKeep : Int) : Except String Ledger := do
  let (year, month) ← now.minusMonths monthsToKeep
  let cutoffYm := year * 12 + month
  return ledger.keepPartitions fun p => !p.tooOld cutoffYm

def Partition.keepRows (p : Partition) (keep : CreditTransaction → Bool) : Partition where
  year := p.year
  month := p.month
  rows := p.rows.filter keep
  hyear := p.hyear
  hmonth := p.hmonth
  within t ht := p.within t (List.mem_of_mem_filter ht)

theorem Ledger.apart_keepRows (ledger : Ledger) (keep : CreditTransaction → Bool) :
    ∀ t ∈ ledger.default.filter keep, ∀ p ∈ ledger.partitions.map (·.keepRows keep),
      ¬ (monthStart p.ym ≤ t.createdAt ∧ t.createdAt < monthStart (p.ym + 1)) := by
  intro t ht p hp
  obtain ⟨q, hq, rfl⟩ := List.mem_map.mp hp
  exact ledger.apart t (List.mem_of_mem_filter ht) q hq

theorem Ledger.distinct_keepRows (ledger : Ledger) (keep : CreditTransaction → Bool) :
    ((ledger.partitions.map (·.keepRows keep)).map Partition.ym).Nodup := by
  rw [List.map_map]
  exact ledger.distinct

def Ledger.keepRows (ledger : Ledger) (keep : CreditTransaction → Bool) : Ledger where
  partitions := ledger.partitions.map (·.keepRows keep)
  default := ledger.default.filter keep
  storable t ht := ledger.storable t (List.mem_of_mem_filter ht)
  apart := ledger.apart_keepRows keep
  distinct := ledger.distinct_keepRows keep

/-- The settings of the clean-up, as the numbers their texts are. -/
structure RetentionSettings where
  cleanupEnabled : Int
  metrics : Int
  systemMetrics : Int
  healthCheck : Int
  alertHistory : Int
  activityLog : Int
  creditTransaction : Int
  notification : Int
  dailyRollup : Int
  requestMetrics : Int

/-- The cutoffs of tables other than the ledger, of which only the failures matter here. -/
def otherCutoffs (now : DateTime) : List Int → Except String Unit
  | [] => .ok ()
  | days :: rest => do
    let _ ← now.minusDays days
    otherCutoffs now rest

def monthsToKeep (days : Int) : Int := max 1 (days / 30)

/-- The clean-up's transaction, on two readings of the clock: its own, and the one by
which partitions are dropped. -/
def cleanup (settings : RetentionSettings) (now later : DateTime) (ledger : Ledger) : Except String Ledger := do
  if settings.cleanupEnabled = 0 then return ledger
  otherCutoffs now
    [settings.metrics, settings.systemMetrics, settings.healthCheck, settings.alertHistory, settings.activityLog]
  let ledger ← dropOldPartitions ledger later (monthsToKeep settings.creditTransaction)
  let cutoff ← now.minusDays settings.creditTransaction
  let ledger := ledger.keepRows fun t => ¬ t.createdAt < cutoff
  otherCutoffs now [settings.notification, settings.dailyRollup, settings.requestMetrics]
  return ledger

/-- A transaction that fails leaves the ledger as it was. -/
def cleanupExpiredData (settings : RetentionSettings) (now later : DateTime) (ledger : Ledger) : Ledger :=
  match cleanup settings now later ledger with
  | .ok ledger' => ledger'
  | .error _ => ledger

def RetentionSettings.days (settings : RetentionSettings) : List Int :=
  [settings.metrics, settings.systemMetrics, settings.healthCheck, settings.alertHistory, settings.activityLog] ++
    settings.creditTransaction :: [settings.notification, settings.dailyRollup, settings.requestMetrics]

def DateTime.Reaches (now : DateTime) (days : Int) : Prop :=
  (-999999999 ≤ days ∧ days ≤ 999999999) ∧ 1 ≤ now.ordinal - days ∧ now.ordinal - days ≤ 3652059

structure Runs (settings : RetentionSettings) (now later : DateTime) : Prop where
  enabled : settings.cleanupEnabled ≠ 0
  reaches : ∀ days ∈ settings.days, now.Reaches days
  months : 13 ≤ later.ym - monthsToKeep settings.creditTransaction

def cutoffYm (settings : RetentionSettings) (later : DateTime) : Int := later.ym - monthsToKeep settings.creditTransaction

def cutoff (settings : RetentionSettings) (now : DateTime) : Instant := now.instant - settings.creditTransaction * day

/-- No partition that ends after the rows' cutoff is dropped, unless none is dropped
at all; and a clean-up that fails had nothing to delete. -/
structure Sound (settings : RetentionSettings) (now later : DateTime) : Prop where
  covered : Runs settings now later →
    cutoffYm settings later ≤ monthNumber 1000 1 ∨ monthStart (cutoffYm settings later) ≤ cutoff settings now + 1
  harmless : ¬ Runs settings now later → cutoff settings now ≤ earliest

structure Retained (days : Int) (now : Instant) (before after : Ledger) : Prop where
  kept : ∀ t ∈ before.rows, now - t.createdAt < days * day → t ∈ after.rows
  gone : ∀ t ∈ after.rows, ¬ days * day < now - t.createdAt

theorem parseNat_toDigits (n : Nat) : parseNat (Nat.toDigits 10 n) = some n := by
  have hdigits : Nat.toDigits 10 n ≠ [] ∧ (Nat.toDigits 10 n).all Char.isDigit :=
    ⟨Nat.toDigits_ne_nil,
      List.all_eq_true.mpr fun _ hc => Nat.isDigit_of_mem_toDigits (by decide) (by decide) hc⟩
  rw [parseNat, if_pos hdigits, Nat.ofDigitChars_ten_toDigits]

theorem parseNat_twoDigits (n : Nat) : parseNat (twoDigits n) = some n := by
  rw [twoDigits]
  split
  next h =>
    rw [Nat.toDigits_of_lt_base h]
    have hdigits : ∀ d < 10, parseNat ['0', Nat.digitChar d] = some d := by decide
    exact hdigits n h
  · exact parseNat_toDigits n

theorem length_twoDigits {n : Nat} (h : n ≤ 12) : (twoDigits n).length = 2 := by
  have hlengths : ∀ n ≤ 12, (twoDigits n).length = 2 := by decide
  exact hlengths n h

theorem underscore_not_mem_twoDigits (n : Nat) : '_' ∉ twoDigits n := by
  rw [twoDigits]
  split
  · intro h
    obtain h | h := List.mem_cons.mp h
    · cases h
    · exact Nat.underscore_not_in_toDigits h
  · exact Nat.underscore_not_in_toDigits

theorem beforeMark_eq_self {cs : List Char} (h : '_' ∉ cs) : beforeMark cs = cs := by
  induction cs with
  | nil => rfl
  | cons c cs ih =>
      have hc : c ≠ '_' := fun heq => h (heq ▸ List.mem_cons_self)
      rw [beforeMark, ih fun hmem => h (List.mem_cons_of_mem _ hmem)]
      rintro rest rfl _
      exact hc rfl

theorem underscore_not_mem_suffix (year month : Nat) : '_' ∉ Nat.toDigits 10 year ++ 'm' :: twoDigits month := by
  intro h
  obtain h | h := List.mem_append.mp h
  · exact Nat.underscore_not_in_toDigits h
  · obtain h | h := List.mem_cons.mp h
    · cases h
    · exact underscore_not_mem_twoDigits month h

theorem suffix_partitionName (year month : Nat) :
    (afterMark (partitionName "credit_transactions" year month)).map beforeMark =
      some (Nat.toDigits 10 year ++ 'm' :: twoDigits month) := by
  have hafter : afterMark (partitionName "credit_transactions" year month) =
      some (Nat.toDigits 10 year ++ 'm' :: twoDigits month) := rfl
  rw [hafter, Option.map_some, beforeMark_eq_self (underscore_not_mem_suffix year month)]

theorem nameYm_of_afterMark {name : List Char} {year month : Nat}
    (hafter : afterMark name = some (Nat.toDigits 10 year ++ 'm' :: twoDigits month)) (hlow : 1000 ≤ year)
    (hhigh : year ≤ 9999) (hmonth : month ≤ 12) : nameYm name = some (monthNumber year month) := by
  have hlength : (Nat.toDigits 10 year).length = 4 := by
    have hle := (Nat.length_toDigits_le_iff (b := 10) (n := year) (k := 4) (by decide) (by decide)).mpr (by omega)
    have hlt := (Nat.length_toDigits_le_iff (b := 10) (n := year) (k := 3) (by decide) (by decide)).not.mpr (by omega)
    omega
  have htake : (Nat.toDigits 10 year ++ 'm' :: twoDigits month).take 4 = Nat.toDigits 10 year :=
    List.take_left' hlength
  have hdrop : ((Nat.toDigits 10 year ++ 'm' :: twoDigits month).drop 5).take 2 = twoDigits month := by
    have hsplit : Nat.toDigits 10 year ++ 'm' :: twoDigits month = (Nat.toDigits 10 year ++ ['m']) ++ twoDigits month := by
      simp
    rw [hsplit, List.drop_left' (by rw [List.length_append, hlength]; rfl),
      List.take_of_length_le (length_twoDigits hmonth).le]
  have hbefore := beforeMark_eq_self (underscore_not_mem_suffix year month)
  rw [nameYm, hafter]
  simp only [bind, Option.bind, hbefore, htake, hdrop, parseNat_toDigits, parseNat_twoDigits]
  rfl

theorem nameYm_name (p : Partition) (hyear : 1000 ≤ p.year) : nameYm p.name = some p.ym :=
  nameYm_of_afterMark rfl hyear p.hyear.2 p.hmonth.2

theorem nameYm_name_none (p : Partition) (hyear : p.year < 1000) : nameYm p.name = none := by
  have hlength : (Nat.toDigits 10 p.year).length ≤ 3 :=
    (Nat.length_toDigits_le_iff (b := 10) (n := p.year) (k := 3) (by decide) (by decide)).mpr hyear
  have hmem : 'm' ∈ (Nat.toDigits 10 p.year ++ 'm' :: twoDigits p.month).take 4 := by
    obtain ⟨k, hk⟩ : ∃ k, 4 - (Nat.toDigits 10 p.year).length = k + 1 := ⟨3 - (Nat.toDigits 10 p.year).length, by omega⟩
    rw [List.take_append, hk, List.take_succ_cons]
    exact List.mem_append_right _ List.mem_cons_self
  have hparse : parseNat ((Nat.toDigits 10 p.year ++ 'm' :: twoDigits p.month).take 4) = none := by
    rw [parseNat, if_neg]
    intro h
    cases List.all_eq_true.mp h.2 'm' hmem
  have hname := suffix_partitionName p.year p.month
  obtain ⟨suffix, hsuffix, hbefore⟩ := Option.map_eq_some_iff.mp hname
  rw [nameYm, Partition.name, hsuffix]
  simp only [bind, Option.bind, hbefore, hparse]

variable {settings : RetentionSettings} {now later : DateTime}

theorem minusDays_eq {days : Int} (h : now.Reaches days) : now.minusDays days = .ok (now.instant - days * day) := by
  obtain ⟨⟨hlow, hhigh⟩, hfirst, hlast⟩ := h
  rw [DateTime.minusDays, if_neg (by omega), if_neg (by omega)]

theorem reaches_of_minusDays {days : Int} {t : Instant} (h : now.minusDays days = .ok t) : now.Reaches days := by
  rw [DateTime.minusDays] at h
  split at h
  · cases h
  · split at h
    · cases h
    · constructor <;> omega

theorem otherCutoffs_eq {days : List Int} (h : ∀ d ∈ days, now.Reaches d) : otherCutoffs now days = .ok () := by
  induction days with
  | nil => rfl
  | cons d days ih =>
      rw [otherCutoffs, minusDays_eq (h d List.mem_cons_self)]
      exact ih fun d hd => h d (List.mem_cons_of_mem _ hd)

theorem reaches_of_otherCutoffs {days : List Int} (h : otherCutoffs now days = .ok ()) : ∀ d ∈ days, now.Reaches d := by
  induction days with
  | nil => exact List.forall_mem_nil _
  | cons d days ih =>
      obtain ⟨t, ht, hrest⟩ := ok_of_bind h
      exact List.forall_mem_cons.mpr ⟨reaches_of_minusDays ht, ih hrest⟩

theorem minusMonths_eq {months : Int} (h : 13 ≤ now.ym - months) :
    ∃ date, now.minusMonths months = .ok date ∧ date.1 * 12 + date.2 = now.ym - months := by
  have hmonth := now.hmonth
  simp only [DateTime.ym, monthNumber] at *
  rw [DateTime.minusMonths]
  split
  · refine ⟨_, if_neg ?_, ?_⟩ <;> dsimp only <;> omega
  · refine ⟨_, if_neg ?_, ?_⟩ <;> dsimp only <;> omega

theorem months_of_minusMonths {months : Int} {date : Int × Int} (h : now.minusMonths months = .ok date) :
    13 ≤ now.ym - months := by
  have hmonth := now.hmonth
  simp only [DateTime.ym, monthNumber] at *
  rw [DateTime.minusMonths] at h
  split at h
  · split at h
    · cases h
    · dsimp only at *
      omega
  · split at h
    · cases h
    · dsimp only at *
      omega

theorem dropOldPartitions_eq (ledger : Ledger) {months : Int} (h : 13 ≤ now.ym - months) :
    dropOldPartitions ledger now months = .ok (ledger.keepPartitions fun p => !p.tooOld (now.ym - months)) := by
  obtain ⟨date, hdate, hym⟩ := minusMonths_eq h
  rw [dropOldPartitions, hdate, ← hym]
  rfl

def cleaned (settings : RetentionSettings) (now later : DateTime) (ledger : Ledger) : Ledger :=
  (ledger.keepPartitions fun p => !p.tooOld (cutoffYm settings later)).keepRows fun t =>
    ¬ t.createdAt < cutoff settings now

theorem cleanupExpiredData_of_runs (h : Runs settings now later) (ledger : Ledger) :
    cleanupExpiredData settings now later ledger = cleaned settings now later ledger := by
  obtain ⟨hbefore, hafter⟩ := List.forall_mem_append.mp h.reaches
  obtain ⟨hledger, hafter⟩ := List.forall_mem_cons.mp hafter
  have hcleanup : cleanup settings now later ledger = .ok (cleaned settings now later ledger) := by
    rw [cleanup, if_neg h.enabled, otherCutoffs_eq hbefore, minusDays_eq hledger, otherCutoffs_eq hafter,
      dropOldPartitions_eq ledger h.months]
    rfl
  rw [cleanupExpiredData, hcleanup]

theorem cleanupExpiredData_of_not_runs (h : ¬ Runs settings now later) (ledger : Ledger) :
    cleanupExpiredData settings now later ledger = ledger := by
  rw [cleanupExpiredData]
  split
  next ledger' hcleanup =>
    rw [cleanup] at hcleanup
    split at hcleanup
    · cases hcleanup
      rfl
    next henabled =>
      obtain ⟨_, hbefore, hcleanup⟩ := ok_of_bind hcleanup
      obtain ⟨dropped, hdropped, hcleanup⟩ := ok_of_bind hcleanup
      obtain ⟨cutoff, hcutoff, hcleanup⟩ := ok_of_bind hcleanup
      obtain ⟨_, hafter, -⟩ := ok_of_bind hcleanup
      obtain ⟨date, hdate, -⟩ := ok_of_bind hdropped
      have hreaches : ∀ days ∈ settings.days, now.Reaches days :=
        List.forall_mem_append.mpr
          ⟨reaches_of_otherCutoffs hbefore,
            List.forall_mem_cons.mpr ⟨reaches_of_minusDays hcutoff, reaches_of_otherCutoffs hafter⟩⟩
      exact absurd ⟨henabled, hreaches, months_of_minusMonths hdate⟩ h
  · rfl

theorem mem_rows_cleaned {ledger : Ledger} {t : CreditTransaction} :
    t ∈ (cleaned settings now later ledger).rows ↔
      ((∃ p ∈ ledger.partitions, p.tooOld (cutoffYm settings later) = false ∧ t ∈ p.rows) ∨ t ∈ ledger.default) ∧
        cutoff settings now ≤ t.createdAt := by
  simp only [Ledger.rows, cleaned, Ledger.keepRows, Ledger.keepPartitions, Partition.keepRows, List.mem_append,
    List.mem_flatMap, List.mem_map, List.mem_filter, decide_eq_true_eq, Bool.not_eq_true', not_lt]
  constructor
  · rintro (⟨_, ⟨p, ⟨hp, hkept⟩, rfl⟩, ht⟩ | ⟨ht, hcutoff⟩)
    · rw [List.mem_filter, decide_eq_true_eq] at ht
      exact ⟨.inl ⟨p, hp, hkept, ht.1⟩, ht.2⟩
    · exact ⟨.inr ht, hcutoff⟩
  · rintro ⟨⟨p, hp, hkept, ht⟩ | ht, hcutoff⟩
    · exact .inl ⟨_, ⟨p, ⟨hp, hkept⟩, rfl⟩, List.mem_filter.mpr ⟨ht, decide_eq_true hcutoff⟩⟩
    · exact .inr ⟨ht, hcutoff⟩

theorem tooOld_iff (p : Partition) (c : Int) : p.tooOld c = true ↔ 1000 ≤ p.year ∧ p.ym < c := by
  rw [Partition.tooOld]
  by_cases hyear : 1000 ≤ p.year
  · simp [nameYm_name p hyear, hyear]
  · simp [nameYm_name_none p (not_le.mp hyear), hyear]

theorem monthStart_mono {a b : Int} (h : a ≤ b) : monthStart a ≤ monthStart b :=
  Int.mul_le_mul_of_nonneg_right (firstDay_strictMono.monotone h) (by decide)

theorem earliest_le (ledger : Ledger) : ∀ t ∈ ledger.rows, earliest ≤ t.createdAt := by
  intro t ht
  obtain ht | ht := List.mem_append.mp ht
  · obtain ⟨p, -, ht⟩ := List.mem_flatMap.mp ht
    have hfirst : earliest = monthStart 13 := by decide
    have hym : 13 ≤ monthNumber p.year p.month := by
      have hyear := p.hyear
      have hmonth := p.hmonth
      simp only [monthNumber]
      omega
    calc
      earliest = monthStart 13 := hfirst
      _ ≤ monthStart (monthNumber p.year p.month) := monthStart_mono hym
      _ ≤ t.createdAt := (p.within t ht).1
  · exact ledger.storable t ht

theorem retained_cleaned (ledger : Ledger)
    (h : cutoffYm settings later ≤ monthNumber 1000 1 ∨ monthStart (cutoffYm settings later) ≤ cutoff settings now + 1) :
    Retained settings.creditTransaction now.instant ledger (cleaned settings now later ledger) where
  kept t ht hage := by
    have hcutoff : cutoff settings now < t.createdAt := sub_lt_comm.mp hage
    apply mem_rows_cleaned.mpr
    refine ⟨?_, hcutoff.le⟩
    obtain ht | ht := List.mem_append.mp ht
    · obtain ⟨p, hp, ht⟩ := List.mem_flatMap.mp ht
      refine .inl ⟨p, hp, ?_, ht⟩
      by_contra hdropped
      obtain ⟨hyear, hym⟩ := (tooOld_iff p _).mp (Bool.eq_true_of_not_eq_false hdropped)
      have hmonth := p.hmonth
      rw [Partition.ym] at hym
      obtain hnone | hcovered := h
      · simp only [monthNumber] at hnone hym
        omega
      · have hle : t.createdAt < cutoff settings now + 1 :=
          calc
            t.createdAt < monthStart (monthNumber p.year p.month + 1) := (p.within t ht).2
            _ ≤ monthStart (cutoffYm settings later) := monthStart_mono (Int.add_one_le_iff.mpr hym)
            _ ≤ cutoff settings now + 1 := hcovered
        exact absurd hcutoff (not_lt.mpr (Int.lt_add_one_iff.mp hle))
    · exact .inr ht
  gone _ ht := not_lt.mpr (sub_le_comm.mp (mem_rows_cleaned.mp ht).2)

def rowAt (t : Instant) : CreditTransaction := ⟨0, 0, -1, 0, .dailyAllowance, "", none, none, [], t⟩

/-- The partition of a month, with one row of the month's last instant. -/
def lastInstantOf (year month : Nat) (hyear : 1 ≤ year ∧ year ≤ 9999) (hmonth : 1 ≤ month ∧ month ≤ 12) : Partition where
  year := year
  month := month
  rows := [rowAt (monthStart (monthNumber year month + 1) - 1)]
  hyear := hyear
  hmonth := hmonth
  within t ht := by
    obtain rfl := List.mem_singleton.mp ht
    have hlt : monthStart (monthNumber year month) < monthStart (monthNumber year month + 1) :=
      Int.mul_lt_mul_of_pos_right (firstDay_strictMono (Int.lt_succ _)) (by decide)
    exact ⟨Int.le_sub_one_of_lt hlt, Int.sub_one_lt_of_le le_rfl⟩

def onlyPartition (p : Partition) : Ledger where
  partitions := [p]
  default := []
  storable := List.forall_mem_nil _
  apart := List.forall_mem_nil _
  distinct := List.nodup_singleton _

def onlyEarliest : Ledger where
  partitions := []
  default := [rowAt earliest]
  storable t ht := by
    obtain rfl := List.mem_singleton.mp ht
    exact le_rfl
  apart _ _ _ hp := by cases hp
  distinct := List.nodup_nil

theorem cutoffYm_le (settings : RetentionSettings) (later : DateTime) : cutoffYm settings later < monthNumber 9999 12 := by
  have hyear := later.hyear
  have hmonth := later.hmonth
  simp only [cutoffYm, DateTime.ym, monthNumber, monthsToKeep]
  omega

theorem covered_of_retained
    (h : ∀ ledger, Retained settings.creditTransaction now.instant ledger (cleaned settings now later ledger)) :
    cutoffYm settings later ≤ monthNumber 1000 1 ∨ monthStart (cutoffYm settings later) ≤ cutoff settings now + 1 := by
  by_contra hnot
  obtain ⟨hdrops, hlate⟩ := not_or.mp hnot
  have hbelow := cutoffYm_le settings later
  have hlast := monthNumber_yearOf (cutoffYm settings later - 1)
  obtain ⟨year, hyear⟩ : ∃ year : Nat, yearOf (cutoffYm settings later - 1) = year :=
    Int.eq_ofNat_of_zero_le (by simp only [yearOf, monthNumber] at *; omega)
  obtain ⟨month, hmonth⟩ : ∃ month : Nat, monthOf (cutoffYm settings later - 1) = month :=
    Int.eq_ofNat_of_zero_le (by simp only [monthOf]; omega)
  have hyears : 1000 ≤ year ∧ year ≤ 9999 := by
    simp only [yearOf, monthNumber] at *
    omega
  have hmonths : 1 ≤ month ∧ month ≤ 12 := by
    simp only [monthOf] at *
    omega
  rw [hyear, hmonth] at hlast
  let p := lastInstantOf year month ⟨by omega, hyears.2⟩ hmonths
  have hend : monthNumber year month + 1 = cutoffYm settings later := by omega
  have hrow : rowAt (monthStart (cutoffYm settings later) - 1) ∈ p.rows := by
    rw [← hend]
    exact List.mem_singleton_self _
  have hage : now.instant - (monthStart (cutoffYm settings later) - 1) < settings.creditTransaction * day :=
    sub_lt_comm.mp (lt_sub_iff_add_lt.mpr (not_le.mp hlate))
  have hkept := (h (onlyPartition p)).kept _ (List.mem_append_left _ (List.mem_flatMap.mpr ⟨p, List.mem_singleton_self _, hrow⟩)) hage
  obtain ⟨⟨q, hq, hyoung, -⟩ | hdefault, -⟩ := mem_rows_cleaned.mp hkept
  · obtain rfl := List.mem_singleton.mp hq
    have hold : p.tooOld (cutoffYm settings later) = true := (tooOld_iff p _).mpr ⟨hyears.1, by rw [← hend]; exact Int.lt_succ _⟩
    rw [hold] at hyoung
    cases hyoung
  · cases hdefault

theorem cleanup_retains_iff (settings : RetentionSettings) (now later : DateTime) :
    (∀ ledger, Retained settings.creditTransaction now.instant ledger (cleanupExpiredData settings now later ledger)) ↔
      Sound settings now later := by
  by_cases hruns : Runs settings now later
  · simp only [cleanupExpiredData_of_runs hruns]
    exact ⟨fun h => ⟨fun _ => covered_of_retained h, fun hnot => absurd hruns hnot⟩,
      fun h ledger => retained_cleaned ledger (h.covered hruns)⟩
  · simp only [cleanupExpiredData_of_not_runs hruns]
    constructor
    · intro h
      refine ⟨fun hrun => absurd hrun hruns, fun _ => ?_⟩
      have hgone := (h onlyEarliest).gone (rowAt earliest) (List.mem_singleton_self _)
      exact sub_le_comm.mpr (not_lt.mp hgone)
    · intro h ledger
      exact
        { kept := fun t ht _ => ht
          gone := fun t ht => not_lt.mpr (sub_le_comm.mp ((h.harmless hruns).trans (earliest_le ledger t ht))) }

theorem monthStart_ym_le (now : DateTime) : monthStart now.ym ≤ now.instant := by
  have hday := now.hday
  have htime := now.htime
  have hle : firstDay now.ym ≤ now.ordinal := by
    rw [firstDay, DateTime.ym, yearOf_monthNumber now.hmonth.1 now.hmonth.2, monthOf_monthNumber now.hmonth.1 now.hmonth.2,
      DateTime.ordinal]
    omega
  calc
    monthStart now.ym ≤ now.ordinal * day := Int.mul_le_mul_of_nonneg_right hle (by decide)
    _ ≤ now.instant := Int.le_add_of_nonneg_right htime.1

/-- The setting's default keeps the rows it says, on every date. -/
theorem covered_of_default (now : DateTime) (h : settings.creditTransaction = 730) :
    monthStart (cutoffYm settings now) ≤ cutoff settings now + 1 := by
  have hmonths : cutoffYm settings now = now.ym - 12 - 12 := by
    simp only [cutoffYm, monthsToKeep, h]
    omega
  have hdays : firstDay (cutoffYm settings now) ≤ firstDay now.ym - 730 := by
    have hlast := firstDay_sub_twelve now.ym
    have hfirst := firstDay_sub_twelve (now.ym - 12)
    rw [hmonths]
    omega
  calc
    monthStart (cutoffYm settings now) ≤ (firstDay now.ym - 730) * day := Int.mul_le_mul_of_nonneg_right hdays (by decide)
    _ = monthStart now.ym - 730 * day := Int.sub_mul _ _ _
    _ ≤ now.instant - 730 * day := Int.sub_le_sub_right (monthStart_ym_le now) _
    _ = cutoff settings now := by rw [cutoff, h]
    _ ≤ cutoff settings now + 1 := Int.le_add_one le_rfl

def thirtyDays : RetentionSettings := ⟨1, 30, 90, 30, 90, 365, 30, 30, 730, 30⟩

/-- Midnight of the first of March 2025. -/
def march : DateTime where
  year := 2025
  month := 3
  day := 1
  time := 0
  hyear := by decide
  hmonth := by decide
  hday := by decide
  htime := by decide

/-- On the first of March, thirty days reach back to the thirtieth of January, and all
of January is dropped. -/
theorem january_lost :
    ¬ ∀ (settings : RetentionSettings) (now : DateTime) (ledger : Ledger), 0 < settings.creditTransaction →
      Retained settings.creditTransaction now.instant ledger (cleanupExpiredData settings now now ledger) := by
  intro h
  let january := onlyPartition (lastInstantOf 2025 1 (by decide) (by decide))
  have hrow : rowAt (monthStart (monthNumber 2025 1 + 1) - 1) ∈ january.rows := List.mem_singleton_self _
  have hafter : (cleanupExpiredData thirtyDays march march january).rows = [] := rfl
  have hkept := (h thirtyDays march january (by decide)).kept _ hrow (by decide)
  rw [hafter] at hkept
  cases hkept

end NukeLab.LedgerRetention
