import Mathlib.Data.List.Sort
import Mathlib.Tactic.Linarith
import NukeLab.Machine
import NukeLab.Program
import NukeLab.Queries
import NukeLab.Records

namespace NukeLab.AlertLifecycle

open Machine Program Queries Records

structure AlertRule where
  id : Uuid
  metricType : String
  operator : String
  threshold : Rat
  scope : String
  targetId : Option Uuid
  durationSeconds : Int
  cooldownSeconds : Int

structure ServerMetric where
  serverId : Uuid
  cpuPercent : Option Rat
  memoryPercent : Option Rat
  diskReadBytes : Option Int
  gpuPercent : Option Rat
  pids : Option Int
  collectedAt : Instant

structure AlertHistory where
  id : Uuid
  ruleId : Uuid
  serverId : Uuid
  metricValue : Rat
  threshold : Rat
  status : String
  firedAt : Instant
  resolvedAt : Option Instant
  resolvedValue : Option Rat

structure Site where
  now : Instant
  metrics : List ServerMetric
  /-- never deleted, and numbered as they are created -/
  alerts : List AlertHistory

def AlertRule.evaluate (rule : AlertRule) (value : Rat) : Bool :=
  if rule.operator = ">" then rule.threshold < value
  else if rule.operator = "<" then value < rule.threshold
  else if rule.operator = ">=" then rule.threshold ≤ value
  else if rule.operator = "<=" then value ≤ rule.threshold
  else if rule.operator = "==" then value = rule.threshold
  else if rule.operator = "!=" then value ≠ rule.threshold
  else false

def extractMetricValue (metric : ServerMetric) (metricType : String) : Option Rat :=
  if metricType = "cpu" then metric.cpuPercent
  else if metricType = "memory" then metric.memoryPercent
  else if metricType = "disk" then metric.diskReadBytes.map Int.cast
  else if metricType = "gpu" then metric.gpuPercent
  else if metricType = "pids" then metric.pids.map Int.cast
  else none

def newestFirst (metrics : List ServerMetric) : List ServerMetric :=
  metrics.insertionSort fun a b => b.collectedAt ≤ a.collectedAt

def getMetricsForRule (serversOf : Uuid → List Uuid) (rule : AlertRule) (s : Site) : List ServerMetric :=
  match rule.targetId with
  | some targetId =>
    if rule.scope = "server" then ((newestFirst s.metrics).filter fun m => m.serverId = targetId).take 1
    else if rule.scope = "user" then (newestFirst s.metrics).filter fun m => m.serverId ∈ serversOf targetId
    else (newestFirst s.metrics).take 100
  | none => (newestFirst s.metrics).take 100

def AlertHistory.isOpen (alert : AlertHistory) : Prop := alert.status = "fired" ∨ alert.status = "acknowledged"

instance (alert : AlertHistory) : Decidable alert.isOpen := inferInstanceAs (Decidable (_ ∨ _))

def openAlerts (s : Site) (ruleId serverId : Uuid) : List AlertHistory :=
  s.alerts.filter fun a => a.ruleId = ruleId ∧ a.serverId = serverId ∧ a.isOpen

def fire (rule : AlertRule) (metric : ServerMetric) (value : Rat) (s : Site) : Site :=
  { s with
    alerts := s.alerts ++
      [⟨s.alerts.length, rule.id, metric.serverId, value, rule.threshold, "fired", s.now, none, none⟩] }

def updateAlert (alertId : Uuid) (update : AlertHistory → AlertHistory) (s : Site) : Site :=
  { s with alerts := s.alerts.map fun a => if a.id = alertId then update a else a }

def acknowledgeAlert (alertId : Uuid) (s : Site) : Site :=
  updateAlert alertId (fun a => { a with status := "acknowledged" }) s

def resolveAlert (alertId : Uuid) (resolvedValue : Option Rat) (s : Site) : Site :=
  updateAlert alertId (fun a =>
    { a with
      status := "resolved"
      resolvedAt := some s.now
      resolvedValue := resolvedValue.or a.resolvedValue }) s

def handleBreach (rule : AlertRule) (metric : ServerMetric) (value : Rat) : EStateM QueryError Site Unit := do
  let s ← get
  let cooldownTime := s.now - rule.cooldownSeconds * second
  let recentAlert ← scalarOneOrNone
    ((openAlerts s rule.id metric.serverId).filter fun a => cooldownTime ≤ a.firedAt)
  if recentAlert.isSome then pure () else modify (fire rule metric value)

def checkResolution (rule : AlertRule) (metric : ServerMetric) (value : Rat) : EStateM QueryError Site Unit := do
  let s ← get
  let activeAlert ← scalarOneOrNone (openAlerts s rule.id metric.serverId)
  match activeAlert with
  | some alert => modify (resolveAlert alert.id (some value))
  | none => pure ()

def evaluateMetric (rule : AlertRule) (metric : ServerMetric) : EStateM QueryError Site Unit :=
  match extractMetricValue metric rule.metricType with
  | none => pure ()
  | some value => if rule.evaluate value then handleBreach rule metric value else checkResolution rule metric value

def evaluateMetrics (rule : AlertRule) : List ServerMetric → List Nat → EStateM QueryError Site Unit
  | [], _ => pure ()
  | metric :: metrics, elapsed => do
    modify fun s => { s with now := s.now + elapsed.headD 0 }
    evaluateMetric rule metric
    evaluateMetrics rule metrics elapsed.tail

def evaluateRule (serversOf : Uuid → List Uuid) (rule : AlertRule) (elapsed : List Nat) :
    EStateM QueryError Site Unit := do
  let s ← get
  evaluateMetrics rule (getMetricsForRule serversOf rule s) elapsed

inductive Event
  | collect (metric : ServerMetric)
  /-- The rule is evaluated as it then is. -/
  | evaluate (rule : AlertRule) (elapsed : List Nat)
  | acknowledge (alertId : Uuid)
  | resolve (alertId : Uuid)
  | wait (duration : Nat)

/-- The active rules are evaluated one after the other; what one raises is caught. -/
def step (serversOf : Uuid → List Uuid) : Step Site Event := fun s event =>
  match event with
  | .collect metric => some { s with metrics := s.metrics ++ [metric] }
  | .evaluate rule elapsed => some (final (evaluateRule serversOf rule elapsed) s)
  | .acknowledge alertId => some (acknowledgeAlert alertId s)
  | .resolve alertId => some (resolveAlert alertId none s)
  | .wait duration => some { s with now := s.now + duration }

def firedAlerts (s : Site) (ruleId serverId : Uuid) : List AlertHistory :=
  s.alerts.filter fun a => a.ruleId = ruleId ∧ a.serverId = serverId ∧ a.status = "fired"

def OneFired (s : Site) : Prop := ∀ ruleId serverId, (firedAlerts s ruleId serverId).length ≤ 1

def AlertRule.breaches (rule : AlertRule) (metric : ServerMetric) : Bool :=
  (extractMetricValue metric rule.metricType).any rule.evaluate

def AlertRule.passes (rule : AlertRule) (metric : ServerMetric) : Bool :=
  (extractMetricValue metric rule.metricType).any fun value => !rule.evaluate value

def samplesOf (s : Site) (serverId : Uuid) : List ServerMetric := s.metrics.filter fun m => m.serverId = serverId

/-- At every time of the span there is a sample to go by, and the latest one breaches the rule. -/
def HeldThroughout (rule : AlertRule) (samples : List ServerMetric) (start stop : Instant) : Prop :=
  ∀ t, start ≤ t → t ≤ stop → (∃ m ∈ samples, m.collectedAt ≤ t) ∧ ∀ m ∈ samples, m.collectedAt ≤ t →
    (∀ l ∈ samples, l.collectedAt ≤ t → l.collectedAt ≤ m.collectedAt) → rule.breaches m = true

def latestRead (metrics : List ServerMetric) (serverId : Uuid) : Option ServerMetric :=
  metrics.find? fun m => m.serverId = serverId

/-- An evaluation does not raise, leaves no alert fired that its latest sample
passes, and fires only where the condition has held for the rule's duration. -/
def Lawful (serversOf : Uuid → List Uuid) (s : Site) : Event → Prop
  | .evaluate rule elapsed =>
    let t := final (evaluateRule serversOf rule elapsed) s
    raised (evaluateRule serversOf rule elapsed) s = none ∧
      (∀ serverId m, latestRead (getMetricsForRule serversOf rule s) serverId = some m → rule.passes m = true →
        firedAlerts t rule.id serverId = []) ∧
      ∀ a ∈ t.alerts.drop s.alerts.length,
        HeldThroughout rule (samplesOf s a.serverId) (a.firedAt - rule.durationSeconds * second) a.firedAt
  | _ => True

/-- The samples go back for the rule's duration, and all that count since then breach the rule. -/
def Sustained (rule : AlertRule) (samples : List ServerMetric) (now : Instant) : Prop :=
  (∃ m ∈ samples, m.collectedAt ≤ now - rule.durationSeconds * second) ∧
    ∀ m ∈ samples, (∀ l ∈ samples, l.collectedAt ≤ now - rule.durationSeconds * second → l.collectedAt ≤ m.collectedAt) →
      rule.breaches m = true

/-- What the alerts and samples are to be like for a breaching sample that an
evaluation reads: no open alert leaves its cooldown, the latest sample does not
pass, and where none is open all along the breach has lasted. -/
structure Settled (rule : AlertRule) (metrics : List ServerMetric) (stop : Instant) (s : Site) (m : ServerMetric) :
    Prop where
  recent : ∀ a ∈ openAlerts s rule.id m.serverId, stop - rule.cooldownSeconds * second ≤ a.firedAt
  latest : ∀ l ∈ latestRead metrics m.serverId, rule.passes l = false
  sustained : (openAlerts s rule.id m.serverId = [] ∨ ∃ l ∈ metrics, l.serverId = m.serverId ∧ rule.passes l = true) →
    Sustained rule (samplesOf s m.serverId) s.now

def breaching (rule : AlertRule) (metrics : List ServerMetric) : List Uuid :=
  (metrics.filter fun m => rule.breaches m).map ServerMetric.serverId

/-- What is open stays in its cooldown and what is acknowledged is open. -/
def Steady (serversOf : Uuid → List Uuid) (s : Site) : Event → Prop
  | .evaluate rule elapsed =>
    let metrics := getMetricsForRule serversOf rule s
    let stop := s.now + (elapsed.sum : Int)
    (∀ m ∈ metrics, rule.breaches m = true → Settled rule metrics stop s m) ∧
      ((breaching rule metrics).Nodup ∨ stop - rule.cooldownSeconds * second ≤ s.now)
  | .acknowledge alertId => ∀ a ∈ s.alerts, a.id = alertId → a.isOpen
  | _ => True

instance (rule : AlertRule) (samples : List ServerMetric) (now : Instant) : Decidable (Sustained rule samples now) :=
  inferInstanceAs (Decidable (_ ∧ _))

instance (rule : AlertRule) (metrics : List ServerMetric) (stop : Instant) (s : Site) (m : ServerMetric) :
    Decidable (Settled rule metrics stop s m) :=
  decidable_of_iff
    ((∀ a ∈ openAlerts s rule.id m.serverId, stop - rule.cooldownSeconds * second ≤ a.firedAt) ∧
      (∀ l ∈ latestRead metrics m.serverId, rule.passes l = false) ∧
      ((openAlerts s rule.id m.serverId = [] ∨ ∃ l ∈ metrics, l.serverId = m.serverId ∧ rule.passes l = true) →
        Sustained rule (samplesOf s m.serverId) s.now))
    ⟨fun h => ⟨h.1, h.2.1, h.2.2⟩, fun h => ⟨h.recent, h.latest, h.sustained⟩⟩

instance (serversOf : Uuid → List Uuid) (s : Site) : ∀ event, Decidable (Steady serversOf s event)
  | .evaluate _ _ => inferInstanceAs (Decidable (_ ∧ _))
  | .acknowledge _ => inferInstanceAs (Decidable (∀ _ ∈ s.alerts, _))
  | .collect _ | .resolve _ | .wait _ => inferInstanceAs (Decidable True)

/-- What the alerts are like all along: no two open ones of one rule and server,
and their numbers in order. -/
structure Orderly (s : Site) : Prop where
  oneOpen : ∀ ruleId serverId, (openAlerts s ruleId serverId).length ≤ 1
  numbered : s.alerts.map AlertHistory.id = List.range s.alerts.length

section Alerts

variable {s t : Site} {rule : AlertRule} {metric : ServerMetric} {ruleId serverId alertId : Uuid} {value : Rat}

theorem mem_openAlerts {a : AlertHistory} :
    a ∈ openAlerts s ruleId serverId ↔ a ∈ s.alerts ∧ a.ruleId = ruleId ∧ a.serverId = serverId ∧ a.isOpen := by
  simp [openAlerts]

theorem firedAlerts_sublist : (firedAlerts s ruleId serverId).Sublist (openAlerts s ruleId serverId) := by
  apply List.monotone_filter_right
  intro a h
  simp only [decide_eq_true_eq] at h ⊢
  exact ⟨h.1, h.2.1, .inl h.2.2⟩

theorem Orderly.oneFired (h : Orderly s) : OneFired s := fun ruleId serverId =>
  firedAlerts_sublist.length_le.trans (h.oneOpen ruleId serverId)

theorem Orderly.unique (h : Orderly s) {a b : AlertHistory} (ha : a ∈ s.alerts) (hb : b ∈ s.alerts)
    (hid : a.id = b.id) : a = b := by
  have hnodup : (s.alerts.map AlertHistory.id).Nodup := h.numbered ▸ List.nodup_range
  exact List.inj_on_of_nodup_map hnodup ha hb hid

theorem openAlerts_fire (ruleId serverId : Uuid) :
    openAlerts (fire rule metric value s) ruleId serverId =
      openAlerts s ruleId serverId ++ if rule.id = ruleId ∧ metric.serverId = serverId then
        [⟨s.alerts.length, rule.id, metric.serverId, value, rule.threshold, "fired", s.now, none, none⟩] else [] := by
  unfold openAlerts fire
  dsimp only
  rw [List.filter_append]
  by_cases h : rule.id = ruleId ∧ metric.serverId = serverId
  · simp [h, AlertHistory.isOpen]
  · rw [if_neg h]
    congr 1
    rw [List.filter_eq_nil_iff]
    intro a ha hmem
    obtain rfl := List.mem_singleton.mp ha
    simp only [decide_eq_true_eq] at hmem
    exact h ⟨hmem.1, hmem.2.1⟩

theorem Orderly.fire (h : Orderly s) (hnone : openAlerts s rule.id metric.serverId = []) :
    Orderly (fire rule metric value s) := by
  constructor
  · intro ruleId serverId
    rw [openAlerts_fire]
    split
    next hsame => simp [← hsame.1, ← hsame.2, hnone]
    next => simpa using h.oneOpen ruleId serverId
  · unfold AlertLifecycle.fire
    simp [h.numbered, List.range_succ]

theorem openAlerts_resolveAlert (alertId : Uuid) (resolvedValue : Option Rat) (ruleId serverId : Uuid) :
    openAlerts (resolveAlert alertId resolvedValue s) ruleId serverId =
      (openAlerts s ruleId serverId).filter fun a => a.id ≠ alertId := by
  unfold openAlerts resolveAlert updateAlert
  rw [List.filter_map, List.filter_filter]
  refine Eq.trans (List.map_congr_left (g := id) fun a ha => ?_) ?_
  · have hopen := (List.mem_filter.mp ha).2
    rw [Function.comp_apply] at hopen
    split at hopen
    next => simp [AlertHistory.isOpen] at hopen
    next hother => exact if_neg hother
  · rw [List.map_id]
    apply List.filter_congr
    intro a _
    rw [Function.comp_apply]
    split
    next hid => simp [hid, AlertHistory.isOpen]
    next hother => simp [hother]

theorem map_updateAlert {α : Type} {g : AlertHistory → α} {update : AlertHistory → AlertHistory}
    (hkeep : ∀ a, g (update a) = g a) : (updateAlert alertId update s).alerts.map g = s.alerts.map g := by
  unfold updateAlert
  rw [List.map_map]
  apply List.map_congr_left
  intro a _
  rw [Function.comp_apply]
  split
  · exact hkeep a
  · rfl

theorem Orderly.numbered_update (h : Orderly s) {update : AlertHistory → AlertHistory} (hkeep : ∀ a, (update a).id = a.id) :
    (updateAlert alertId update s).alerts.map AlertHistory.id = List.range (updateAlert alertId update s).alerts.length := by
  rw [map_updateAlert hkeep, h.numbered]
  simp [updateAlert]

theorem Orderly.resolve (h : Orderly s) (alertId : Uuid) (resolvedValue : Option Rat) :
    Orderly (resolveAlert alertId resolvedValue s) := by
  constructor
  · intro ruleId serverId
    rw [openAlerts_resolveAlert]
    exact (List.length_filter_le _ _).trans (h.oneOpen ruleId serverId)
  · exact h.numbered_update fun _ => rfl

theorem Orderly.acknowledge (h : Orderly s) (hopen : ∀ a ∈ s.alerts, a.id = alertId → a.isOpen) :
    Orderly (acknowledgeAlert alertId s) := by
  constructor
  · intro ruleId serverId
    have hsame : openAlerts (acknowledgeAlert alertId s) ruleId serverId =
        (openAlerts s ruleId serverId).map fun a =>
          if a.id = alertId then { a with status := "acknowledged" } else a := by
      unfold openAlerts acknowledgeAlert updateAlert
      rw [List.filter_map]
      congr 1
      apply List.filter_congr
      intro a ha
      by_cases hid : a.id = alertId
      · have hwas : a.isOpen := hopen a ha hid
        have hnow : ({ a with status := "acknowledged" } : AlertHistory).isOpen := .inr rfl
        simp only [Function.comp_apply, if_pos hid, hwas, hnow]
      · simp [hid]
    rw [hsame, List.length_map]
    exact h.oneOpen ruleId serverId
  · exact h.numbered_update fun _ => rfl

end Alerts

/-- What becomes of the alerts when a sample is looked at and nothing raises. -/
inductive Handled (rule : AlertRule) (metric : ServerMetric) (s : Site) : Site → Prop
  | unread (h : extractMetricValue metric rule.metricType = none) : Handled rule metric s s
  | cooling (h : rule.breaches metric = true) (hopen : openAlerts s rule.id metric.serverId ≠ []) : Handled rule metric s s
  | fired (value : Rat) (h : rule.breaches metric = true) (hopen : openAlerts s rule.id metric.serverId = []) :
    Handled rule metric s (fire rule metric value s)
  | calm (h : rule.passes metric = true) (hopen : openAlerts s rule.id metric.serverId = []) : Handled rule metric s s
  | resolved (value : Rat) (alert : AlertHistory) (h : rule.passes metric = true)
    (hopen : openAlerts s rule.id metric.serverId = [alert]) :
    Handled rule metric s (resolveAlert alert.id (some value) s)

section Evaluation

variable {s t : Site} {rule : AlertRule} {metric : ServerMetric}

theorem not_breaches_of_passes (h : rule.passes metric = true) : ¬ rule.breaches metric = true := by
  rw [AlertRule.passes] at h
  rw [AlertRule.breaches]
  cases hvalue : extractMetricValue metric rule.metricType with
  | none => simp
  | some value => simpa [hvalue] using h

/-- A sample is handled where no two alerts are open and, if it breaches, the open one is in its cooldown. -/
theorem evaluateMetric_run (hs : Orderly s) (hrecent : rule.breaches metric = true →
    ∀ a ∈ openAlerts s rule.id metric.serverId, s.now - rule.cooldownSeconds * second ≤ a.firedAt) :
    ∃ t, (evaluateMetric rule metric).run s = .ok () t ∧ Handled rule metric s t := by
  unfold evaluateMetric
  cases hvalue : extractMetricValue metric rule.metricType with
  | none => exact ⟨s, rfl, .unread hvalue⟩
  | some value =>
      dsimp only
      rcases empty_or_single (hs.oneOpen rule.id metric.serverId) with hopen | ⟨a, hopen⟩
      · cases hb : rule.evaluate value with
        | true =>
            have hbreaches : rule.breaches metric = true := by simp [AlertRule.breaches, hvalue, hb]
            refine ⟨_, ?_, .fired value hbreaches hopen⟩
            simp [handleBreach, hopen, scalarOneOrNone]
        | false =>
            have hpasses : rule.passes metric = true := by simp [AlertRule.passes, hvalue, hb]
            refine ⟨_, ?_, .calm hpasses hopen⟩
            simp [checkResolution, hopen, scalarOneOrNone]
      · cases hb : rule.evaluate value with
        | true =>
            have hbreaches : rule.breaches metric = true := by simp [AlertRule.breaches, hvalue, hb]
            have hcooling : s.now ≤ a.firedAt + rule.cooldownSeconds * second :=
              sub_le_iff_le_add.mp (hrecent hbreaches a (hopen ▸ List.mem_singleton_self a))
            refine ⟨_, ?_, .cooling hbreaches (hopen ▸ List.cons_ne_nil a [])⟩
            simp [handleBreach, hopen, scalarOneOrNone, hcooling]
        | false =>
            have hpasses : rule.passes metric = true := by simp [AlertRule.passes, hvalue, hb]
            refine ⟨_, ?_, .resolved value a hpasses hopen⟩
            simp [checkResolution, hopen, scalarOneOrNone]

theorem Handled.orderly (h : Handled rule metric s t) (hs : Orderly s) : Orderly t := by
  cases h with
  | unread | cooling | calm => exact hs
  | fired value _ hopen => exact hs.fire hopen
  | resolved value alert => exact hs.resolve _ _

theorem Handled.now (h : Handled rule metric s t) : t.now = s.now := by
  cases h <;> rfl

theorem Handled.others (h : Handled rule metric s t) (hs : Orderly s) {serverId : Uuid} (hne : metric.serverId ≠ serverId) :
    openAlerts t rule.id serverId = openAlerts s rule.id serverId := by
  cases h with
  | unread | cooling | calm => rfl
  | fired value _ hopen => simp [openAlerts_fire, hne]
  | resolved value alert _ hopen =>
      rw [openAlerts_resolveAlert, List.filter_eq_self]
      intro a ha
      have halert : alert ∈ openAlerts s rule.id metric.serverId := hopen ▸ List.mem_singleton_self alert
      rw [mem_openAlerts] at ha halert
      refine decide_eq_true fun hid => hne ?_
      have hsame : a = alert := hs.unique ha.1 halert.1 hid
      rw [← halert.2.2.1, ← hsame, ha.2.2.1]

theorem Handled.passed (h : Handled rule metric s t) (hpasses : rule.passes metric = true) :
    openAlerts t rule.id metric.serverId = [] := by
  cases h with
  | unread hnone => simp [AlertRule.passes, hnone] at hpasses
  | cooling hbreaches | fired value hbreaches => exact absurd hbreaches (not_breaches_of_passes hpasses)
  | calm _ hopen => exact hopen
  | resolved value alert _ hopen => simp [openAlerts_resolveAlert, hopen]

theorem Handled.still (h : Handled rule metric s t) (hbreaches : ¬ rule.breaches metric = true)
    (hopen : openAlerts s rule.id metric.serverId = []) : openAlerts t rule.id metric.serverId = [] := by
  cases h with
  | unread | cooling | calm => exact hopen
  | fired value hb => exact absurd hb hbreaches
  | resolved value alert => simp [openAlerts_resolveAlert, hopen]

theorem Handled.was_empty (h : Handled rule metric s t) (hs : Orderly s) {serverId : Uuid}
    (hempty : openAlerts t rule.id serverId = []) :
    openAlerts s rule.id serverId = [] ∨ metric.serverId = serverId ∧ rule.passes metric = true := by
  by_cases hserver : metric.serverId = serverId
  · cases h with
    | unread | cooling | calm => exact .inl hempty
    | fired value _ hopen => exact .inl (hserver ▸ hopen)
    | resolved value alert hpasses => exact .inr ⟨hserver, hpasses⟩
  · exact .inl ((h.others hs hserver).symm.trans hempty)

def AlertHistory.firing (alert : AlertHistory) : Uuid × Instant := (alert.serverId, alert.firedAt)

theorem Handled.firing (h : Handled rule metric s t) :
    t.alerts.map AlertHistory.firing = s.alerts.map AlertHistory.firing ∨
      (t.alerts.map AlertHistory.firing = s.alerts.map AlertHistory.firing ++ [(metric.serverId, s.now)] ∧
        rule.breaches metric = true ∧ openAlerts s rule.id metric.serverId = []) := by
  cases h with
  | unread | cooling | calm => exact .inl rfl
  | fired value hbreaches hopen => exact .inr ⟨List.map_append, hbreaches, hopen⟩
  | resolved value alert => exact .inl (map_updateAlert fun _ => rfl)

/-- No open alert of a server with a sample that breaches leaves its cooldown before the evaluation
stops, and neither does one that is fired while another such sample of the server is to come. -/
structure Ready (rule : AlertRule) (metrics : List ServerMetric) (stop : Instant) (s : Site) : Prop where
  recent : ∀ m ∈ metrics, rule.breaches m = true →
    ∀ a ∈ openAlerts s rule.id m.serverId, stop - rule.cooldownSeconds * second ≤ a.firedAt
  room : (breaching rule metrics).Nodup ∨ stop - rule.cooldownSeconds * second ≤ s.now

theorem breaching_cons (h : rule.breaches metric = true) (metrics : List ServerMetric) :
    breaching rule (metric :: metrics) = metric.serverId :: breaching rule metrics := by
  simp [breaching, h]

theorem mem_breaching {m : ServerMetric} {metrics : List ServerMetric} (hm : m ∈ metrics) (h : rule.breaches m = true) :
    m.serverId ∈ breaching rule metrics :=
  List.mem_map_of_mem (List.mem_filter.mpr ⟨hm, h⟩)

theorem breaching_sublist (metrics : List ServerMetric) :
    (breaching rule metrics).Sublist (breaching rule (metric :: metrics)) :=
  ((List.sublist_cons_self metric metrics).filter _).map _

theorem Ready.tail {metrics : List ServerMetric} {stop : Instant} (h : Ready rule (metric :: metrics) stop s)
    (hs : Orderly s) (hhandled : Handled rule metric s t) : Ready rule metrics stop t := by
  constructor
  · intro m hm hbreaches a ha
    by_cases hserver : metric.serverId = m.serverId
    · have hwas := h.recent m (List.mem_cons_of_mem _ hm) hbreaches
      cases hhandled with
      | unread | cooling | calm => exact hwas a ha
      | fired value hb hopen =>
          rw [openAlerts_fire, if_pos ⟨rfl, hserver⟩, ← hserver, hopen, List.nil_append, List.mem_singleton] at ha
          rcases h.room with hnodup | hroom
          · rw [breaching_cons hb, List.nodup_cons, hserver] at hnodup
            exact absurd (mem_breaching hm hbreaches) hnodup.1
          · exact ha ▸ hroom
      | resolved value alert =>
          rw [openAlerts_resolveAlert] at ha
          exact hwas a (List.mem_of_mem_filter ha)
    · rw [hhandled.others hs hserver] at ha
      exact h.recent m (List.mem_cons_of_mem _ hm) hbreaches a ha
  · rw [hhandled.now]
    exact h.room.imp_left fun hnodup => hnodup.sublist (breaching_sublist metrics)

/-- What an evaluation of these samples does that nothing raises in. -/
structure Evaluated (rule : AlertRule) (metrics : List ServerMetric) (s t : Site) : Prop where
  orderly : Orderly t
  calm : ∀ serverId, (∀ m ∈ metrics, m.serverId = serverId → ¬ rule.breaches m = true) →
    (openAlerts s rule.id serverId = [] ∨ ∃ m ∈ metrics, m.serverId = serverId ∧ rule.passes m = true) →
    openAlerts t rule.id serverId = []
  fired : ∃ new, t.alerts.map AlertHistory.firing = s.alerts.map AlertHistory.firing ++ new ∧
    ∀ f ∈ new, s.now ≤ f.2 ∧ ∃ m ∈ metrics, m.serverId = f.1 ∧ rule.breaches m = true ∧
      (openAlerts s rule.id f.1 = [] ∨ ∃ l ∈ metrics, l.serverId = f.1 ∧ rule.passes l = true)

theorem Evaluated.nil (hs : Orderly s) : Evaluated rule [] s s where
  orderly := hs
  calm _ _ hopen := hopen.resolve_right fun ⟨_, hm, _⟩ => List.not_mem_nil hm
  fired := ⟨[], (List.append_nil _).symm, fun _ hf => absurd hf List.not_mem_nil⟩

theorem Evaluated.cons {metrics : List ServerMetric} {u : Site} (hs : Orderly s) (hhandled : Handled rule metric s t)
    (h : Evaluated rule metrics t u) : Evaluated rule (metric :: metrics) s u := by
  refine ⟨h.orderly, fun serverId hcalm hopen => ?_, ?_⟩
  · apply h.calm serverId fun m hm => hcalm m (List.mem_cons_of_mem _ hm)
    rcases hopen with hopen | ⟨m, hm, hserver, hpasses⟩
    · left
      by_cases hserver : metric.serverId = serverId
      · subst hserver
        exact hhandled.still (hcalm metric List.mem_cons_self rfl) hopen
      · exact (hhandled.others hs hserver).trans hopen
    · rcases List.mem_cons.mp hm with rfl | hm
      · exact .inl (hserver ▸ hhandled.passed hpasses)
      · exact .inr ⟨m, hm, hserver, hpasses⟩
  · obtain ⟨new, hnew, hfired⟩ := h.fired
    have hlater : ∀ f ∈ new, s.now ≤ f.2 ∧ ∃ m ∈ metric :: metrics, m.serverId = f.1 ∧ rule.breaches m = true ∧
        (openAlerts s rule.id f.1 = [] ∨ ∃ l ∈ metric :: metrics, l.serverId = f.1 ∧ rule.passes l = true) := by
      intro f hf
      obtain ⟨hnow, m, hm, hserver, hbreaches, hopen⟩ := hfired f hf
      refine ⟨hhandled.now ▸ hnow, m, List.mem_cons_of_mem _ hm, hserver, hbreaches, ?_⟩
      rcases hopen with hopen | ⟨l, hl, hpasses⟩
      · exact (hhandled.was_empty hs hopen).imp_right fun hpasses => ⟨metric, List.mem_cons_self, hpasses⟩
      · exact .inr ⟨l, List.mem_cons_of_mem _ hl, hpasses⟩
    rcases hhandled.firing with hsame | ⟨hone, hbreaches, hopen⟩
    · exact ⟨new, hsame ▸ hnew, hlater⟩
    · refine ⟨(metric.serverId, s.now) :: new, ?_, fun f hf => ?_⟩
      · rw [hnew, hone, List.append_assoc, List.singleton_append]
      · rcases List.mem_cons.mp hf with rfl | hf
        · exact ⟨le_rfl, metric, List.mem_cons_self, rfl, hbreaches, .inl hopen⟩
        · exact hlater f hf

theorem Evaluated.of_later {metrics : List ServerMetric} {now : Instant} (hnow : s.now ≤ now)
    (h : Evaluated rule metrics { s with now := now } t) : Evaluated rule metrics s t := by
  obtain ⟨new, hnew, hfired⟩ := h.fired
  exact ⟨h.orderly, h.calm, new, hnew, fun f hf => ⟨hnow.trans (hfired f hf).1, (hfired f hf).2⟩⟩

theorem evaluateMetrics_run {metrics : List ServerMetric} {elapsed : List Nat} {stop : Instant} (hs : Orderly s)
    (hready : Ready rule metrics stop s) (hstop : s.now + (elapsed.sum : Int) ≤ stop) :
    ∃ t, (evaluateMetrics rule metrics elapsed).run s = .ok () t ∧ Evaluated rule metrics s t := by
  induction metrics generalizing s elapsed with
  | nil => exact ⟨s, rfl, .nil hs⟩
  | cons metric metrics ih =>
      let later : Site := { s with now := s.now + elapsed.headD 0 }
      have hsum : (elapsed.sum : Int) = elapsed.headD 0 + elapsed.tail.sum := by cases elapsed <;> simp
      have hpos : (0 : Int) ≤ elapsed.tail.sum := Int.natCast_nonneg _
      have hlater : Ready rule (metric :: metrics) stop later :=
        ⟨hready.recent, hready.room.imp_right fun hroom => hroom.trans (by simp [later])⟩
      have horderly : Orderly later := ⟨hs.oneOpen, hs.numbered⟩
      have hnow : later.now = s.now + (elapsed.headD 0 : Int) := rfl
      obtain ⟨t, hrun, hhandled⟩ := evaluateMetric_run horderly fun hbreaches a ha => by
        have hrecent := hlater.recent metric List.mem_cons_self hbreaches a ha
        linarith
      have hnext := hlater.tail horderly hhandled
      have hend : t.now + (elapsed.tail.sum : Int) ≤ stop := by
        rw [hhandled.now]
        linarith
      obtain ⟨u, hrest, hevaluated⟩ := ih (hhandled.orderly horderly) hnext hend
      refine ⟨u, ?_, (hevaluated.cons horderly hhandled).of_later (Int.le_add_of_nonneg_right (Int.natCast_nonneg _))⟩
      rw [evaluateMetrics, EStateM.run_bind]
      change EStateM.run (do evaluateMetric rule metric; evaluateMetrics rule metrics elapsed.tail) later = _
      rw [EStateM.run_bind, hrun]
      exact hrest

theorem Sustained.held {samples : List ServerMetric} {now firedAt : Instant} (h : Sustained rule samples now)
    (hnow : now ≤ firedAt) : HeldThroughout rule samples (firedAt - rule.durationSeconds * second) firedAt := by
  intro time hstart _
  have hback : now - rule.durationSeconds * second ≤ time := by linarith
  obtain ⟨⟨m, hm, hold⟩, hbreaches⟩ := h
  refine ⟨⟨m, hm, hold.trans hback⟩, fun l hl _ hlatest => hbreaches l hl fun k hk hbefore => ?_⟩
  exact hlatest k hk (hbefore.trans hback)

variable {serversOf : Uuid → List Uuid} {elapsed : List Nat}

theorem evaluateRule_run (hs : Orderly s) (hsteady : Steady serversOf s (.evaluate rule elapsed)) :
    ∃ t, (evaluateRule serversOf rule elapsed).run s = .ok () t ∧
      Evaluated rule (getMetricsForRule serversOf rule s) s t := by
  refine evaluateMetrics_run hs ⟨fun m hm hbreaches => ?_, hsteady.2⟩ le_rfl
  exact (hsteady.1 m hm hbreaches).recent

theorem Evaluated.lawful (hsteady : Steady serversOf s (.evaluate rule elapsed))
    (hrun : (evaluateRule serversOf rule elapsed).run s = .ok () t)
    (h : Evaluated rule (getMetricsForRule serversOf rule s) s t) : Lawful serversOf s (.evaluate rule elapsed) := by
  unfold Lawful
  dsimp only
  rw [final_of_ok hrun]
  refine ⟨by rw [raised, hrun], fun serverId m hlatest hpasses => ?_, fun a ha => ?_⟩
  · have hm : m ∈ getMetricsForRule serversOf rule s := List.mem_of_find?_eq_some hlatest
    have hserver : m.serverId = serverId := by simpa using List.find?_some hlatest
    have hempty : openAlerts t rule.id serverId = [] := by
      refine h.calm serverId (fun l hl hsame hbreaches => ?_) (.inr ⟨m, hm, hserver, hpasses⟩)
      have hnot := (hsteady.1 l hl hbreaches).latest m (hsame.symm ▸ hlatest)
      rw [hpasses] at hnot
      exact Bool.noConfusion hnot
    exact List.sublist_nil.mp (hempty ▸ firedAlerts_sublist)
  · obtain ⟨new, hnew, hfired⟩ := h.fired
    have hmem : a.firing ∈ new := by
      have hdrop := congrArg (List.drop s.alerts.length) hnew
      rw [← List.map_drop, List.drop_left' (by simp)] at hdrop
      exact hdrop ▸ List.mem_map_of_mem ha
    obtain ⟨hnow, m, hm, hserver, hbreaches, hopen⟩ := hfired _ hmem
    have hsettled := hsteady.1 m hm hbreaches
    rw [show a.serverId = m.serverId from hserver.symm]
    refine (hsettled.sustained ?_).held hnow
    rw [hserver]
    exact hopen

theorem orderly_step (serversOf : Uuid → List Uuid) (s : Site) (event : Event) (t : Site) (hs : Orderly s)
    (hsteady : Steady serversOf s event) (hstep : step serversOf s event = some t) : Orderly t := by
  cases event with
  | collect | wait =>
      cases hstep
      exact ⟨hs.oneOpen, hs.numbered⟩
  | evaluate rule elapsed =>
      cases hstep
      obtain ⟨u, hrun, hevaluated⟩ := evaluateRule_run hs hsteady
      rw [final_of_ok hrun]
      exact hevaluated.orderly
  | acknowledge alertId =>
      cases hstep
      exact hs.acknowledge hsteady
  | resolve alertId =>
      cases hstep
      exact hs.resolve alertId none

theorem lawful_step (serversOf : Uuid → List Uuid) (s : Site) (event : Event) (t : Site) (hs : Orderly s)
    (hsteady : Steady serversOf s event) (_ : step serversOf s event = some t) : Lawful serversOf s event := by
  cases event with
  | evaluate rule elapsed =>
      obtain ⟨u, hrun, hevaluated⟩ := evaluateRule_run hs hsteady
      exact hevaluated.lawful hsteady hrun
  | _ => trivial

end Evaluation

/-- In a run that keeps open alerts in their cooldown, reopens none and reads
breaches that last, alerts follow their lifecycle. -/
theorem alerts_lawful (serversOf : Uuid → List Uuid) (now : Instant) (metrics : List ServerMetric) (events : List Event)
    (h : AllSteps (step serversOf) (Steady serversOf) ⟨now, metrics, []⟩ events) :
    AllStates (step serversOf) OneFired ⟨now, metrics, []⟩ events ∧
      AllSteps (step serversOf) (Lawful serversOf) ⟨now, metrics, []⟩ events := by
  have hstates := allStates_of_allSteps (orderly_step serversOf) ⟨fun _ _ => Nat.zero_le _, rfl⟩ h
  exact ⟨hstates.mono fun _ hs => hs.oneFired, h.of_states (lawful_step serversOf) hstates⟩

section Busy

def busy : AlertRule := ⟨1, "cpu", ">", 80, "server", some 7, 60, 300⟩

def cpu (percent : Rat) (collectedAt : Instant) : ServerMetric := ⟨7, some percent, none, none, none, none, collectedAt⟩

theorem alerts_lawful_acknowledged :
    AllStates (step fun _ => []) OneFired ⟨0, [], []⟩
        [.collect (cpu 90 0), .wait 60000000, .evaluate busy [20], .acknowledge 0, .collect (cpu 50 60000000),
          .evaluate busy []] ∧
      AllSteps (step fun _ => []) (Lawful fun _ => []) ⟨0, [], []⟩
        [.collect (cpu 90 0), .wait 60000000, .evaluate busy [20], .acknowledge 0, .collect (cpu 50 60000000),
          .evaluate busy []] :=
  alerts_lawful (fun _ => []) 0 [] _ (by decide +kernel)

/-- A second alert is fired when the first one's cooldown is over, though that is still open. -/
theorem two_fired :
    ¬ ∀ (serversOf : Uuid → List Uuid) (now : Instant) (metrics : List ServerMetric) (events : List Event),
      AllStates (step serversOf) OneFired ⟨now, metrics, []⟩ events ∧
        AllSteps (step serversOf) (Lawful serversOf) ⟨now, metrics, []⟩ events := by
  intro h
  have hrun := (h (fun _ => []) 0 [] [.collect (cpu 90 0), .wait 60000000, .evaluate busy [], .wait 301000000,
    .evaluate busy []]).1.last rfl
  exact absurd (hrun 1 7) (by decide +kernel)

end Busy

end NukeLab.AlertLifecycle
