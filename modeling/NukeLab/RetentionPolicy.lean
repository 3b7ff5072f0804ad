import NukeLab.DockerNames
import NukeLab.Texts
import NukeLab.LedgerRetention

namespace NukeLab.RetentionPolicy

open Program Records IntTexts LedgerRetention

/-- A number as a request may carry it, other than an integer. -/
inductive FloatValue
  | finite (value : ℚ)
  | infinite
  | nan

inductive Json
  | null
  | bool (value : Bool)
  | int (value : Int)
  | float (value : FloatValue)
  | text (value : String)
  | array (items : List Json)
  | object (entries : List (String × Json))

inductive IntError
  /-- a `ValueError` or a `TypeError` -/
  | refused
  | overflow

namespace Json

/-- `bool` of a value. -/
def truthy : Json → Bool
  | null => false
  | bool value => value
  | int value => value ≠ 0
  | float (.finite value) => value ≠ 0
  | float _ => true
  | text value => value ≠ ""
  | array items => ¬ items.isEmpty
  | object entries => ¬ entries.isEmpty

/-- `int` of a value, a float towards zero. -/
def toInt : Json → Except IntError Int
  | bool value => .ok (if value then 1 else 0)
  | int value => .ok value
  | float (.finite value) => .ok (value.num.tdiv value.den)
  | float .infinite => .error .overflow
  | float .nan => .error .refused
  | text value =>
    match int10 value with
    | some n => .ok n
    | none => .error .refused
  | null | array _ | object _ => .error .refused

end Json

inductive Value
  | bool (value : Bool)
  | int (value : Int)
  deriving DecidableEq

abbrev Policy := List (String × Value)

def defaultRetentionPolicies : Policy :=
  [("metrics_retention_days", .int 30), ("system_metrics_retention_days", .int 90),
    ("health_check_retention_days", .int 30), ("alert_history_retention_days", .int 90),
    ("activity_log_retention_days", .int 365), ("notification_retention_days", .int 30),
    ("daily_rollup_retention_days", .int 730), ("cleanup_enabled", .bool true), ("cleanup_run_hour", .int 4)]

def validationRanges : List (String × (Int × Int)) :=
  [("metrics_retention_days", (7, 365)), ("system_metrics_retention_days", (7, 730)),
    ("health_check_retention_days", (7, 365)), ("alert_history_retention_days", (7, 730)),
    ("activity_log_retention_days", (30, 1825)), ("notification_retention_days", (7, 365)),
    ("daily_rollup_retention_days", (30, 1825)), ("cleanup_run_hour", (0, 23))]

/-- The rows of the settings table; a row's value may be null. -/
abbrev Settings := String → Option (Option String)

/-- What a policy update raises. -/
inductive PolicyError
  | valueError (text : String)
  | overflowError (text : String)

def isTrue (text : String) : Bool := text.toList.flatMap DockerNames.lower = "true".toList

def strValue : Value → String
  | .bool true => "True"
  | .bool false => "False"
  | .int value => toString value

section Policies

def reported (settings : Settings) (key : String) (default : Value) : Value :=
  match settings key with
  | none => default
  | some row =>
    match default with
    | .bool value =>
      match row with
      | none => .bool value
      | some text => .bool (if text = "" then value else isTrue text)
    | .int value => .int ((row.bind int10).getD value)

def getPolicy (settings : Settings) : Policy :=
  defaultRetentionPolicies.map fun entry => (entry.1, reported settings entry.1 entry.2)

def flag : Json → Bool
  | .text value => isTrue value
  | value => value.truthy

-- How a message shows a value.
variable (shown : Json → String)

def convert (key : String) (default : Value) (value : Json) : Except PolicyError Value :=
  match default with
  | .bool _ => .ok (.bool (flag value))
  | .int _ =>
    match value.toInt with
    | .ok n => .ok (.int n)
    | .error .refused => .error (.valueError ("Invalid integer value for " ++ key ++ ": " ++ shown value))
    | .error .overflow => .error (.overflowError "cannot convert float infinity to integer")

def checkRange (key : String) (value : Value) : Except PolicyError Unit :=
  match validationRanges.lookup key, value with
  | some (low, high), .int n =>
    if low ≤ n ∧ n ≤ high then .ok ()
    else .error (.valueError (key ++ " must be between " ++ toString low ++ " and " ++ toString high))
  | _, _ => .ok ()

def validate : List (String × Json) → Except PolicyError Policy
  | [] => .ok []
  | (key, value) :: updates =>
    match defaultRetentionPolicies.lookup key with
    | none => .error (.valueError ("Unknown retention setting: " ++ key))
    | some default => do
      let value ← convert shown key default value
      checkRange key value
      let validated ← validate updates
      return (key, value) :: validated

def persist (settings : Settings) (validated : Policy) : Settings :=
  validated.foldl (fun settings entry => Function.update settings entry.1 (some (some (strValue entry.2)))) settings

def setPolicy (settings : Settings) (updates : List (String × Json)) : Except PolicyError (Settings × Policy) := do
  let validated ← validate shown updates
  let settings := persist settings validated
  return (settings, getPolicy settings)

end Policies

section Cleanup

def getRetentionDays (settings : Settings) (key : String) (default : Int) : Int :=
  match settings key with
  | some (some text) => if text = "" then default else (int10 text).getD default
  | _ => default

def readSettings (settings : Settings) : RetentionSettings where
  cleanupEnabled := getRetentionDays settings "cleanup_enabled" 1
  metrics := getRetentionDays settings "metrics_retention_days" 30
  systemMetrics := getRetentionDays settings "system_metrics_retention_days" 90
  healthCheck := getRetentionDays settings "health_check_retention_days" 30
  alertHistory := getRetentionDays settings "alert_history_retention_days" 90
  activityLog := getRetentionDays settings "activity_log_retention_days" 365
  creditTransaction := getRetentionDays settings "credit_transaction_retention_days" 730
  notification := getRetentionDays settings "notification_retention_days" 30
  dailyRollup := getRetentionDays settings "daily_rollup_retention_days" 730
  requestMetrics := getRetentionDays settings "request_metrics_retention_days" 30

structure Tables where
  serverMetrics : List Instant
  systemMetrics : List Instant
  healthChecks : List Instant
  alertHistory : List Instant
  activityLogs : List Instant
  ledger : Ledger
  notifications : List Instant
  /-- by the number of the day -/
  dailyRollups : List Int
  requestMetrics : List Instant

def since (cutoff : Instant) (rows : List Instant) : List Instant := rows.filter fun t => ¬ t < cutoff

def sweep (limits : RetentionSettings) (now later : DateTime) (tables : Tables) : Except String Tables := do
  let serverMetrics := since (← now.minusDays limits.metrics) tables.serverMetrics
  let systemMetrics := since (← now.minusDays limits.systemMetrics) tables.systemMetrics
  let healthChecks := since (← now.minusDays limits.healthCheck) tables.healthChecks
  let alertHistory := since (← now.minusDays limits.alertHistory) tables.alertHistory
  let activityLogs := since (← now.minusDays limits.activityLog) tables.activityLogs
  let ledger ← dropOldPartitions tables.ledger later (monthsToKeep limits.creditTransaction)
  let cutoff ← now.minusDays limits.creditTransaction
  let notifications := since (← now.minusDays limits.notification) tables.notifications
  let rollupCutoff ← now.minusDays limits.dailyRollup
  let requestMetrics := since (← now.minusDays limits.requestMetrics) tables.requestMetrics
  return { serverMetrics, systemMetrics, healthChecks, alertHistory, activityLogs, notifications, requestMetrics
           ledger := ledger.keepRows fun t => ¬ t.createdAt < cutoff
           dailyRollups := tables.dailyRollups.filter fun date => ¬ date < rollupCutoff / day }

/-- How a run ends, with the rows of each table before and after it. -/
inductive Report
  | disabled
  | complete (before after : Tables)
  | failed (text : String)

/-- A run that fails deletes nothing. -/
def cleanup (limits : RetentionSettings) (now later : DateTime) (tables : Tables) : Report × Tables :=
  if limits.cleanupEnabled = 0 then (.disabled, tables)
  else
    match sweep limits now later tables with
    | .ok after => (.complete tables after, after)
    | .error text => (.failed text, tables)

def cleanupExpiredData (settings : Settings) : DateTime → DateTime → Tables → Report × Tables :=
  cleanup (readSettings settings)

end Cleanup

/-- The limits by which a clean-up acts on what is reported. The two settings that
are no part of the policy are read as they are. -/
def limitsOf (policy : Policy) (settings : Settings) : RetentionSettings :=
  let days (key : String) : Int :=
    match policy.lookup key with
    | some (.int n) => n
    | _ => 0
  { cleanupEnabled := if policy.lookup "cleanup_enabled" = some (.bool true) then 1 else 0
    metrics := days "metrics_retention_days"
    systemMetrics := days "system_metrics_retention_days"
    healthCheck := days "health_check_retention_days"
    alertHistory := days "alert_history_retention_days"
    activityLog := days "activity_log_retention_days"
    creditTransaction := getRetentionDays settings "credit_transaction_retention_days" 730
    notification := days "notification_retention_days"
    dailyRollup := days "daily_rollup_retention_days"
    requestMetrics := getRetentionDays settings "request_metrics_retention_days" 30 }

/-- Every run of the clean-up leaves of the tables what one by the reported values leaves. -/
def ActsAsReported (settings : Settings) : Prop :=
  ∀ now later tables, (cleanupExpiredData settings now later tables).2 =
    (cleanup (limitsOf (getPolicy settings) settings) now later tables).2

section Runs

variable (shown : Json → String)

def accepted (updates : List (String × Json)) : Bool :=
  match validate shown updates with
  | .ok _ => true
  | .error _ => false

def update (settings : Settings) (updates : List (String × Json)) : Settings :=
  match setPolicy shown settings updates with
  | .ok (settings', _) => settings'
  | .error _ => settings

def after (history : List (List (String × Json))) : Settings := history.foldl (update shown) fun _ => none

def switches (updates : List (String × Json)) : List Bool :=
  (updates.filter fun entry => entry.1 = "cleanup_enabled").map fun entry => flag entry.2

def lastSwitch (history : List (List (String × Json))) : Option Bool :=
  ((history.filter (accepted shown)).flatMap switches).getLast?

inductive Writes : String × Value → Prop
  | switch (value : Bool) : Writes ("cleanup_enabled", .bool value)
  | days {key : String} {low high n : Int} (hkey : validationRanges.lookup key = some (low, high)) (hlow : low ≤ n)
      (hhigh : n ≤ high) : Writes (key, .int n)

/-- What the updates leave in the settings, the switch having been asked last to be as it is. -/
structure Stored (settings : Settings) (switch : Option Bool) : Prop where
  switch : settings "cleanup_enabled" = switch.map fun value => some (strValue (.bool value))
  days : ∀ key low high, validationRanges.lookup key = some (low, high) →
    settings key = none ∨ ∃ n, low ≤ n ∧ n ≤ high ∧ settings key = some (some (strValue (.int n)))

end Runs

variable {shown : Json → String}

theorem mem_of_lookup {key : String} {value : Value} (h : defaultRetentionPolicies.lookup key = some value) :
    (key, value) ∈ defaultRetentionPolicies := by
  obtain ⟨before, rest, hsplit, -⟩ := List.lookup_eq_some_iff.mp h
  rw [hsplit]
  simp

theorem range_of_checkRange {key : String} {low high n : Int} (hrange : validationRanges.lookup key = some (low, high))
    (hcheck : checkRange key (.int n) = .ok ()) : low ≤ n ∧ n ≤ high := by
  unfold checkRange at hcheck
  rw [hrange] at hcheck
  dsimp only at hcheck
  split at hcheck
  · assumption
  · cases hcheck

theorem writes_of_checked {key : String} {default value : Value} {given : Json}
    (hdefault : defaultRetentionPolicies.lookup key = some default) (hconvert : convert shown key default given = .ok value)
    (hcheck : checkRange key value = .ok ()) :
    Writes (key, value) ∧ (key = "cleanup_enabled" → value = .bool (flag given)) := by
  have hkey : key = "cleanup_enabled" ∧ default = .bool true ∨
      key ≠ "cleanup_enabled" ∧ (∃ n, default = .int n) ∧ ∃ range, validationRanges.lookup key = some range := by
    have hmem := mem_of_lookup hdefault
    simp only [defaultRetentionPolicies, List.mem_cons, Prod.mk.injEq, List.not_mem_nil, or_false] at hmem
    rcases hmem with ⟨rfl, rfl⟩ | ⟨rfl, rfl⟩ | ⟨rfl, rfl⟩ | ⟨rfl, rfl⟩ | ⟨rfl, rfl⟩ | ⟨rfl, rfl⟩ | ⟨rfl, rfl⟩ | ⟨rfl, rfl⟩ |
      ⟨rfl, rfl⟩
    all_goals first | exact .inl ⟨rfl, rfl⟩ | exact .inr ⟨by decide, ⟨_, rfl⟩, _, rfl⟩
  rcases hkey with ⟨rfl, rfl⟩ | ⟨hkey, ⟨n, rfl⟩, ⟨low, high⟩, hrange⟩
  · cases hconvert
    exact ⟨.switch _, fun _ => rfl⟩
  · refine ⟨?_, fun h => absurd h hkey⟩
    rw [convert] at hconvert
    split at hconvert
    · cases hconvert
      obtain ⟨hlow, hhigh⟩ := range_of_checkRange hrange hcheck
      exact .days hrange hlow hhigh
    · cases hconvert
    · cases hconvert

def switchesOf (validated : Policy) : List Bool :=
  validated.filterMap fun entry => match entry.2 with
    | .bool value => some value
    | .int _ => none

theorem validate_ok {updates : List (String × Json)} {validated : Policy} (h : validate shown updates = .ok validated) :
    (∀ entry ∈ validated, Writes entry) ∧ switchesOf validated = switches updates := by
  induction updates generalizing validated with
  | nil =>
      cases h
      exact ⟨List.forall_mem_nil _, rfl⟩
  | cons first updates ih =>
      obtain ⟨key, given⟩ := first
      rw [validate] at h
      split at h
      · cases h
      · rename_i default hdefault
        obtain ⟨value, hconvert, h⟩ := ok_of_bind h
        obtain ⟨⟨⟩, hcheck, h⟩ := ok_of_bind h
        obtain ⟨rest, hrest, h⟩ := ok_of_bind h
        cases h
        obtain ⟨hwrites, hswitches⟩ := ih hrest
        obtain ⟨hfirst, hflag⟩ := writes_of_checked hdefault hconvert hcheck
        refine ⟨List.forall_mem_cons.mpr ⟨hfirst, hwrites⟩, ?_⟩
        cases hfirst with
        | switch value =>
            cases hflag rfl
            exact congrArg (flag given :: ·) hswitches
        | days hkey hlow hhigh =>
            have hne : key ≠ "cleanup_enabled" := by
              rintro rfl
              cases hkey
            simp only [switches, List.filter_cons, hne, decide_false, Bool.false_eq_true, if_false]
            exact hswitches

theorem stored_update {settings : Settings} {switch : Option Bool} (h : Stored settings switch) {entry : String × Value}
    (hentry : Writes entry) :
    Stored (Function.update settings entry.1 (some (some (strValue entry.2)))) ((switchesOf [entry]).getLast?.or switch) := by
  cases hentry with
  | switch value =>
      refine ⟨Function.update_self _ _ _, fun key low high hkey => ?_⟩
      have hne : key ≠ "cleanup_enabled" := by
        rintro rfl
        cases hkey
      rw [Function.update_of_ne hne]
      exact h.days key low high hkey
  | @days key low high n hkey hlow hhigh =>
      have hne : "cleanup_enabled" ≠ key := by
        rintro rfl
        cases hkey
      refine ⟨(Function.update_of_ne hne _ _).trans h.switch, fun key' low' high' hkey' => ?_⟩
      by_cases hsame : key' = key
      · subst hsame
        cases hkey.symm.trans hkey'
        exact .inr ⟨n, hlow, hhigh, Function.update_self _ _ _⟩
      · rw [Function.update_of_ne hsame]
        exact h.days key' low' high' hkey'

theorem stored_persist {settings : Settings} {switch : Option Bool} (h : Stored settings switch) {validated : Policy}
    (hvalidated : ∀ entry ∈ validated, Writes entry) :
    Stored (persist settings validated) ((switchesOf validated).getLast?.or switch) := by
  induction validated generalizing settings switch with
  | nil => exact h
  | cons entry validated ih =>
      obtain ⟨hentry, hrest⟩ := List.forall_mem_cons.mp hvalidated
      have hstep := ih (stored_update h hentry) hrest
      have hswitches : switchesOf (entry :: validated) = switchesOf [entry] ++ switchesOf validated := by
        rw [switchesOf, switchesOf, switchesOf, ← List.filterMap_append, List.singleton_append]
      rw [hswitches, List.getLast?_append, Option.or_assoc]
      exact hstep

theorem stored_of_update {settings : Settings} {switch : Option Bool} (h : Stored settings switch)
    (updates : List (String × Json)) :
    Stored (update shown settings updates)
      ((if accepted shown updates then (switches updates).getLast? else none).or switch) := by
  rw [update, setPolicy, accepted]
  cases hvalidate : validate shown updates with
  | error e => exact h
  | ok validated =>
      obtain ⟨hwrites, hswitches⟩ := validate_ok hvalidate
      rw [← hswitches]
      exact stored_persist h hwrites

theorem lastSwitch_cons (updates : List (String × Json)) (history : List (List (String × Json))) :
    lastSwitch shown (updates :: history) =
      (lastSwitch shown history).or (if accepted shown updates then (switches updates).getLast? else none) := by
  cases haccepted : accepted shown updates with
  | true => simp [lastSwitch, haccepted, List.getLast?_append]
  | false => simp [lastSwitch, haccepted]

theorem stored_run (history : List (List (String × Json))) {settings : Settings} {switch : Option Bool}
    (h : Stored settings switch) :
    Stored (history.foldl (update shown) settings) ((lastSwitch shown history).or switch) := by
  induction history generalizing settings switch with
  | nil => exact h
  | cons updates history ih =>
      rw [lastSwitch_cons, Option.or_assoc]
      exact ih (stored_of_update h updates)

theorem stored_after (history : List (List (String × Json))) : Stored (after shown history) (lastSwitch shown history) := by
  have hfresh : Stored (fun _ => none) none := ⟨rfl, fun _ _ _ _ => .inl rfl⟩
  have hrun : Stored (after shown history) ((lastSwitch shown history).or none) := stored_run history hfresh
  rwa [Option.or_none] at hrun

section Readers

variable {settings : Settings} {switch : Option Bool}

theorem strValue_int {n : Int} (hlow : 0 ≤ n) (hhigh : n < 10 ^ 4) :
    strValue (.int n) ≠ "" ∧ int10 (strValue (.int n)) = some n := by
  obtain ⟨m, rfl⟩ := Int.eq_ofNat_of_zero_le hlow
  have hread : int10 (toString m) = some (m : Int) := int10_toString (by exact_mod_cast hhigh)
  refine ⟨fun h => ?_, hread⟩
  have htext : toString m = "" := h
  rw [htext] at hread
  cases hread

theorem reported_days (h : Stored settings switch) {key : String} {low high : Int}
    (hkey : validationRanges.lookup key = some (low, high)) (hlow : 0 ≤ low) (hhigh : high < 10 ^ 4) (default : Int) :
    reported settings key (.int default) = .int (getRetentionDays settings key default) := by
  rw [reported, getRetentionDays]
  rcases h.days key low high hkey with hnone | ⟨n, hn, hn', hrow⟩
  · rw [hnone]
  · obtain ⟨hne, hread⟩ := strValue_int (hlow.trans hn) (hn'.trans_lt hhigh)
    rw [hrow]
    simp only [Option.bind_some, hread, Option.getD_some, if_neg hne]

theorem switch_unread (h : Stored settings switch) : getRetentionDays settings "cleanup_enabled" 1 = 1 := by
  rw [getRetentionDays, h.switch]
  rcases switch with _ | value
  · rfl
  · cases value <;> decide

theorem reported_switch (h : Stored settings switch) :
    reported settings "cleanup_enabled" (.bool true) = .bool (switch.getD true) := by
  rw [reported, h.switch]
  rcases switch with _ | value
  · rfl
  · cases value <;> decide

theorem limitsOf_getPolicy (h : Stored settings switch) :
    limitsOf (getPolicy settings) settings =
      { readSettings settings with cleanupEnabled := if switch.getD true then 1 else 0 } := by
  have hdays {key : String} {low high : Int} (hkey : validationRanges.lookup key = some (low, high))
      (hbounds : 0 ≤ low ∧ high < 10 ^ 4) (default : Int) := reported_days h hkey hbounds.1 hbounds.2 default
  have hpolicy : getPolicy settings =
      [("metrics_retention_days", .int (readSettings settings).metrics),
        ("system_metrics_retention_days", .int (readSettings settings).systemMetrics),
        ("health_check_retention_days", .int (readSettings settings).healthCheck),
        ("alert_history_retention_days", .int (readSettings settings).alertHistory),
        ("activity_log_retention_days", .int (readSettings settings).activityLog),
        ("notification_retention_days", .int (readSettings settings).notification),
        ("daily_rollup_retention_days", .int (readSettings settings).dailyRollup),
        ("cleanup_enabled", .bool (switch.getD true)),
        ("cleanup_run_hour", .int (getRetentionDays settings "cleanup_run_hour" 4))] := by
    rw [getPolicy, defaultRetentionPolicies]
    simp only [List.map_cons, List.map_nil, reported_switch h]
    rw [hdays rfl (by decide), hdays rfl (by decide), hdays rfl (by decide), hdays rfl (by decide), hdays rfl (by decide),
      hdays rfl (by decide), hdays rfl (by decide), hdays rfl (by decide)]
    rfl
  rw [limitsOf, hpolicy]
  cases switch.getD true <;> rfl

theorem days_within (h : Stored settings switch) {key : String} {low high default : Int}
    (hkey : validationRanges.lookup key = some (low, high)) (hbounds : 0 ≤ low ∧ high < 10 ^ 4)
    (hdefault : low ≤ default ∧ default ≤ high) :
    low ≤ getRetentionDays settings key default ∧ getRetentionDays settings key default ≤ high := by
  rw [getRetentionDays]
  rcases h.days key low high hkey with hnone | ⟨n, hn, hn', hrow⟩
  · rw [hnone]
    exact hdefault
  · obtain ⟨hne, hread⟩ := strValue_int (hbounds.1.trans hn) (hn'.trans_lt hbounds.2)
    rw [hrow]
    simp only [hread, Option.getD_some, if_neg hne]
    exact ⟨hn, hn'⟩

end Readers

def Later (settings settings' : Settings) : Prop :=
  ∀ key ∈ defaultRetentionPolicies.map Prod.fst, settings' key = settings key

theorem stored_later {settings settings' : Settings} {switch : Option Bool} (h : Stored settings switch)
    (hlater : Later settings settings') : Stored settings' switch := by
  have hkeys : ∀ entry ∈ validationRanges, entry.1 ∈ defaultRetentionPolicies.map Prod.fst := by decide
  refine ⟨(hlater _ (by decide)).trans h.switch, fun key low high hkey => ?_⟩
  obtain ⟨before, rest, hsplit, -⟩ := List.lookup_eq_some_iff.mp hkey
  have hmem : (key, (low, high)) ∈ validationRanges := by rw [hsplit]; simp
  rw [hlater key (hkeys _ hmem)]
  exact h.days key low high hkey

theorem sweep_serverMetrics {limits : RetentionSettings} {now later : DateTime} (tables : Tables)
    (hreaches : ∀ days ∈ limits.days, now.Reaches days) (hmonths : 13 ≤ later.ym - monthsToKeep limits.creditTransaction) :
    ∃ after, sweep limits now later tables = .ok after ∧
      after.serverMetrics = since (now.instant - limits.metrics * day) tables.serverMetrics := by
  have hminus : ∀ days ∈ limits.days, now.minusDays days = .ok (now.instant - days * day) :=
    fun days hdays => minusDays_eq (hreaches days hdays)
  simp only [RetentionSettings.days, List.cons_append, List.nil_append, List.forall_mem_cons] at hminus
  obtain ⟨h1, h2, h3, h4, h5, h6, h7, h8, h9, -⟩ := hminus
  rw [sweep, h1, h2, h3, h4, h5, h6, h7, h8, h9, dropOldPartitions_eq tables.ledger hmonths]
  exact ⟨_, rfl, rfl⟩

theorem newYear_year : (1 : Int) ≤ 2026 ∧ (2026 : Int) ≤ 9999 := by decide

theorem newYear_month : (1 : Int) ≤ 1 ∧ (1 : Int) ≤ 12 := by decide

theorem newYear_day : (1 : Int) ≤ 1 ∧ (1 : Int) ≤ Calendar.daysInMonth 2026 1 := by decide

theorem newYear_time : (0 : Int) ≤ 0 ∧ (0 : Int) < Records.day := by decide

def newYear : DateTime := ⟨2026, 1, 1, 0, newYear_year, newYear_month, newYear_day, newYear_time⟩

theorem nothing_storable : ∀ t ∈ ([] : List CreditTransaction), earliest ≤ t.createdAt := List.forall_mem_nil _

theorem nothing_apart : ∀ t ∈ ([] : List CreditTransaction), ∀ p ∈ ([] : List Partition),
    ¬ (monthStart p.ym ≤ t.createdAt ∧ t.createdAt < monthStart (p.ym + 1)) := List.forall_mem_nil _

theorem nothing_distinct : (([] : List Partition).map Partition.ym).Nodup := List.nodup_nil

def oneSample : Tables := ⟨[0], [], [], [], [], ⟨[], [], nothing_storable, nothing_apart, nothing_distinct⟩, [], [], []⟩

theorem acts_as_reported {settings : Settings} {switch : Option Bool} (h : Stored settings switch)
    (hswitch : switch ≠ some false) : ActsAsReported settings := by
  intro now later tables
  have hgiven : switch.getD true = true := by
    rcases switch with _ | _ | _
    · rfl
    · exact absurd rfl hswitch
    · rfl
  have hlimits : limitsOf (getPolicy settings) settings = readSettings settings := by
    rw [limitsOf_getPolicy h, hgiven, if_pos rfl, ← switch_unread h]
    rfl
  rw [cleanupExpiredData, hlimits]

theorem newYear_reaches {days : Int} (hlow : 0 ≤ days) (hhigh : days ≤ 1825) : newYear.Reaches days := by
  have hordinal : newYear.ordinal = 739617 := rfl
  refine ⟨⟨by omega, by omega⟩, ?_, ?_⟩ <;> rw [hordinal] <;> omega

theorem deletes_switched_off {settings : Settings} (h : Stored settings (some false))
    (hcredit : settings "credit_transaction_retention_days" = none)
    (hrequest : settings "request_metrics_retention_days" = none) : ¬ ActsAsReported settings := by
  intro hacts
  have hreported : limitsOf (getPolicy settings) settings = { readSettings settings with cleanupEnabled := 0 } :=
    limitsOf_getPolicy h
  have hcredit' : (readSettings settings).creditTransaction = 730 := by
    show getRetentionDays settings _ _ = _
    rw [getRetentionDays, hcredit]
  have hrequest' : (readSettings settings).requestMetrics = 30 := by
    show getRetentionDays settings _ _ = _
    rw [getRetentionDays, hrequest]
  have hbounds : ∀ days ∈ (readSettings settings).days, 0 ≤ days ∧ days ≤ 1825 := by
    have hdays {key : String} {low high default : Int} (hkey : validationRanges.lookup key = some (low, high))
        (hb : 0 ≤ low ∧ high < 10 ^ 4) (hd : low ≤ default ∧ default ≤ high) (hmax : high ≤ 1825) :
        0 ≤ getRetentionDays settings key default ∧ getRetentionDays settings key default ≤ 1825 := by
      obtain ⟨hlow, hhigh⟩ := days_within h hkey hb hd
      exact ⟨hb.1.trans hlow, hhigh.trans hmax⟩
    simp only [RetentionSettings.days, List.cons_append, List.nil_append, List.forall_mem_cons]
    refine ⟨hdays rfl (by decide) (by decide) (by decide), hdays rfl (by decide) (by decide) (by decide),
      hdays rfl (by decide) (by decide) (by decide), hdays rfl (by decide) (by decide) (by decide),
      hdays rfl (by decide) (by decide) (by decide), ?_, hdays rfl (by decide) (by decide) (by decide),
      hdays rfl (by decide) (by decide) (by decide), ?_⟩
    · rw [hcredit']
      decide
    · rw [hrequest']
      decide
  have hreaches : ∀ days ∈ (readSettings settings).days, newYear.Reaches days :=
    fun days hdays => newYear_reaches (hbounds days hdays).1 (hbounds days hdays).2
  have hmonths : 13 ≤ newYear.ym - monthsToKeep (readSettings settings).creditTransaction := by
    rw [hcredit']
    decide
  obtain ⟨after, hsweep, hafter⟩ := sweep_serverMetrics oneSample hreaches hmonths
  have hrun := hacts newYear newYear oneSample
  have henabled : (readSettings settings).cleanupEnabled ≠ 0 := by
    rw [readSettings, switch_unread h]
    exact one_ne_zero
  rw [cleanupExpiredData, cleanup, if_neg henabled, hsweep, hreported, cleanup, if_pos rfl] at hrun
  have hmetrics : after.serverMetrics = [0] := congrArg Tables.serverMetrics (id hrun : after = oneSample)
  have hcutoff : (readSettings settings).metrics * day < newYear.instant := by
    have hmax := (hbounds _ List.mem_cons_self).2
    have hinstant : newYear.instant = 739617 * day := rfl
    rw [hinstant]
    exact mul_lt_mul_of_pos_right (by omega) (by decide)
  have hgone : since (newYear.instant - (readSettings settings).metrics * day) oneSample.serverMetrics = [] := by
    simp [since, oneSample, hcutoff]
  cases hgone.symm.trans (hafter.symm.trans hmetrics)

/-- The clean-up acts on what is reported exactly while it was not last asked to be off. -/
theorem acts_as_reported_iff (shown : Json → String) (history : List (List (String × Json))) :
    (∀ settings, Later (after shown history) settings → ActsAsReported settings) ↔ lastSwitch shown history ≠ some false := by
  constructor
  · intro h hoff
    have hstored : Stored (after shown history) (some false) := hoff ▸ stored_after history
    let settings : Settings := fun key =>
      if key ∈ defaultRetentionPolicies.map Prod.fst then after shown history key else none
    have hlater : Later (after shown history) settings := fun key hkey => if_pos hkey
    exact deletes_switched_off (stored_later hstored hlater) (if_neg (by decide)) (if_neg (by decide)) (h settings hlater)
  · exact fun hon settings hlater => acts_as_reported (stored_later (stored_after history) hlater) hon

def switchedOff : List (List (String × Json)) := [[("cleanup_enabled", .bool false)]]

/-- The policy says that nothing is deleted, and the clean-up deletes. -/
theorem switch_ignored :
    (getPolicy (after (fun _ => "") switchedOff)).lookup "cleanup_enabled" = some (.bool false) ∧
      (cleanupExpiredData (after (fun _ => "") switchedOff) newYear newYear oneSample).2.serverMetrics = [] :=
  ⟨rfl, rfl⟩

end NukeLab.RetentionPolicy
