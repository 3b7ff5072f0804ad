import NukeLab.Exits
import NukeLab.JsonTexts

namespace NukeLab.IdleShutdown

open Records State Lifecycle Exits JsonValues Binary64

def firstInstant : Instant := day

def endOfTime : Instant := 3652060 * day

def IsDate (t : Instant) : Prop := firstInstant ≤ t ∧ t < endOfTime

instance (t : Instant) : Decidable (IsDate t) := inferInstanceAs (Decidable (_ ∧ _))

/-- `datetime.fromtimestamp` of whole seconds; `none` is a raise. -/
def fromTimestamp (seconds : Int) : Option Instant :=
  let t := 719163 * day + seconds * second
  if IsDate t then some t else none

def stored (q : ℚ) : ℚ := if q < 0 then -rounded |q| else rounded |q|

def whole (q : ℚ) : Int := if 0 ≤ q then ⌊q⌋ else ⌈q⌉

/-- The microseconds of so many minutes; the part of a minute is multiplied as a float. -/
def minutes : Json → Option Int
  | .bool value => some (if value then minute else 0)
  | .int value => some (value * minute)
  | .float (.finite value) =>
    some (Double.halfEven (whole value * minute + stored ((value - whole value) * minute)))
  | _ => none

/-- `timedelta(minutes=...)`. -/
def timedelta (value : Json) : Option Int :=
  (minutes value).filter fun delta => -999999999 ≤ delta / day ∧ delta / day ≤ 999999999

def minus (t : Instant) (delta : Int) : Option Instant := if IsDate (t - delta) then some (t - delta) else none

inductive Report
  | unreachable
  | answered (body : Json)

def positive : Json → Option Bool
  | .bool value => some value
  | .int value => some (decide (0 < value))
  | .float (.finite value) => some (decide (0 < value))
  | .float (.infinite negative) => some !negative
  | .float .nan => some false
  | _ => none

/-- `int` of a number. -/
def toInt : Json → Option Int
  | .bool value => some (if value then 1 else 0)
  | .int value => some value
  | .float value => value.toInt
  | _ => none

/-- One server's probe. The outer `none` is a raise, and the inner one a server without an entry. -/
def probe : Report → Option (Option Instant)
  | .unreachable => some none
  | .answered (.object entries) =>
    let reported := get entries "last_activity" .null
    let ts := if reported.truthy then reported else .int 0
    (positive ts).bind fun above =>
      if above then ((toInt ts).bind fromTimestamp).map some else some none
  | .answered _ => none

/-- How a stop fails: before the server is stopped and in a way that is logged, or with the
session of the database lost too, so that the server's id cannot even be read for the log. -/
inductive Failure
  | logged
  | sessionLost

structure Turn where
  server : Server
  preferences : Option Dict
  now : Instant
  isDate : IsDate now
  commitFails : Bool
  runtime : Runtime
  failure : Option Failure

inductive Handled
  | stopped
  | foundStopped
  | later
  | failed
deriving DecidableEq

inductive Verdict
  | disabled
  | unsigned
  | active
  | idle (handled : Handled)
deriving DecidableEq

namespace Turn

variable (t : Turn)

def prefs : Dict := t.preferences.getD []

def enabled : Bool := (get t.prefs "idle_shutdown_enabled" (.bool true)).truthy

def timeout : Option Int := timedelta (get t.prefs "idle_shutdown_timeout" (.int 15))

def cutoff : Option Instant := t.timeout.bind fun delta => minus t.now delta

/-- The last of the recorded activity and the traffic that the sidecar saw. -/
def lastActivity (sidecar : Option Instant) : Option Instant :=
  let recorded := t.server.lastActivity.or t.server.startedAt
  match sidecar with
  | none => recorded
  | some ts => if recorded.all fun last => last < ts then some ts else recorded

def stores (sidecar : Option Instant) : Bool :=
  sidecar.any fun ts => t.server.lastActivity.all fun last => last < ts

def recorded (sidecar : Option Instant) : Option Instant := if t.stores sidecar then sidecar else t.server.lastActivity

/-- What the container driver lets happen to a server that is to be stopped. -/
def stop : Handled :=
  match t.server.containerId with
  | none => .stopped
  | some _ =>
    match t.runtime.status with
    | .unknown => .later
    | .stopped => .foundStopped
    | _ => if t.runtime.deletes then .stopped else .later

/-- `none` is a raise that ends the task. -/
def examine (sidecar : Option Instant) : Option Verdict :=
  if t.enabled then
    t.cutoff.bind fun cutoff =>
      if t.stores sidecar ∧ t.commitFails then none
      else
        match t.lastActivity sidecar with
        | none => some .unsigned
        | some last =>
          if cutoff ≤ last then some .active
          else
            match t.failure with
            | none => some (.idle t.stop)
            | some .logged => some (.idle .failed)
            | some .sessionLost => none
  else some .disabled

end Turn

section Tasks

variable (reports : Uuid → Report)

/-- The times by server; one probe that raises raises for all. -/
def fetchSidecarActivity (serverIds : List Uuid) : Option (Uuid → Option Instant) :=
  if ∀ id ∈ serverIds, probe (reports id) ≠ none then
    some fun id => if id ∈ serverIds then (probe (reports id)).join else none
  else none

/-- The verdicts up to the server at which the task raises, and whether one does. -/
def examineEach (sidecar : Uuid → Option Instant) : List Turn → List Verdict × Bool
  | [] => ([], false)
  | t :: turns =>
    match t.examine (sidecar t.server.id) with
    | none => ([], true)
    | some verdict => (verdict :: (examineEach sidecar turns).1, (examineEach sidecar turns).2)

def polled (turns : List Turn) : List Uuid := (turns.filter fun t => t.server.containerId.isSome).map fun t => t.server.id

def shutdownIdleServers (turns : List Turn) : List Verdict × Bool :=
  match fetchSidecarActivity reports (polled turns) with
  | none => ([], true)
  | some sidecar => examineEach sidecar turns

def reported (turns : List Turn) (id : Uuid) : Option Instant :=
  if id ∈ polled turns then (probe (reports id)).join else none

/-- A server is stopped only if its owner has not disabled it and all of its activity
is older than the owner's timeout. -/
def Turn.Sound (t : Turn) (sidecar : Option Instant) (verdict : Verdict) : Prop :=
  verdict = .idle .stopped → t.enabled = true ∧
    ∀ signal, signal ∈ t.server.lastActivity ∨ signal ∈ t.server.startedAt ∨ signal ∈ sidecar →
      ∃ timeout ∈ t.timeout, signal < t.now - timeout

def IsolatedAndSound (turns : List Turn) : Prop :=
  (shutdownIdleServers reports turns).1.length = turns.length ∧
    ∀ entry ∈ turns.zip (shutdownIdleServers reports turns).1,
      entry.1.Sound (reported reports turns entry.1.server.id) entry.2

end Tasks

def Readable : Report → Prop
  | .unreachable => True
  | .answered (.object entries) =>
    match get entries "last_activity" .null with
    | .int value => value < 253402300800
    | .float (.finite value) => whole value < 253402300800
    | .float (.infinite negative) => negative
    | .text value => value = ""
    | .array items => items = []
    | .object entries => entries = []
    | _ => True
  | .answered _ => False

theorem fromTimestamp_ne_none {seconds : Int} (h : 0 ≤ seconds) : fromTimestamp seconds ≠ none ↔ seconds < 253402300800 := by
  have hdate : IsDate (719163 * day + seconds * second) ↔ seconds < 253402300800 := by
    simp only [IsDate, firstInstant, endOfTime, day, hour, minute, second]
    constructor
    · rintro ⟨-, hend⟩
      linarith
    · intro hlt
      constructor <;> linarith
  simp [fromTimestamp, hdate]

theorem whole_nonneg {q : ℚ} (h : 0 ≤ q) : 0 ≤ whole q := by
  rw [whole, if_pos h]
  exact Int.floor_nonneg.mpr h

theorem whole_nonpos {q : ℚ} (h : q ≤ 0) : whole q ≤ 0 := by
  rw [whole]
  split
  · exact Int.floor_nonpos h
  · exact Int.ceil_le.mpr (by rwa [Int.cast_zero])

theorem probe_number {entries : Dict} {value : Json} (hget : get entries "last_activity" .null = value)
    (htruthy : value.truthy = true) {above : Bool} (habove : positive value = some above) :
    probe (.answered (.object entries)) ≠ none ↔ (above = true → ((toInt value).bind fromTimestamp) ≠ none) := by
  simp only [probe, hget, htruthy, if_true, habove, Option.bind_some]
  cases above <;> simp

theorem probe_ne_none_iff (report : Report) : probe report ≠ none ↔ Readable report := by
  rcases report with _ | body
  · simp [probe, Readable]
  cases body with
  | object entries =>
      simp only [Readable]
      cases hget : get entries "last_activity" .null with
      | int value =>
          by_cases hzero : value = 0
          · simp [probe, hget, Json.truthy, positive, hzero]
          · rw [probe_number hget (by simpa [Json.truthy] using hzero) rfl]
            simp only [toInt, Option.bind_some, decide_eq_true_iff]
            constructor
            · intro h
              rcases lt_or_ge 0 value with hpos | hneg
              · exact (fromTimestamp_ne_none hpos.le).mp (h hpos)
              · linarith
            · exact fun h hpos => (fromTimestamp_ne_none hpos.le).mpr h
      | float value =>
          rcases value with q | negative | _
          · by_cases hzero : q = 0
            · simp [probe, hget, Json.truthy, positive, hzero, whole]
            · rw [probe_number hget (by simpa [Json.truthy] using hzero) rfl]
              have hwhole : (Value.finite q).toInt = some (whole q) := rfl
              simp only [toInt, hwhole, Option.bind_some, decide_eq_true_iff]
              constructor
              · intro h
                rcases lt_or_ge 0 q with hpos | hneg
                · exact (fromTimestamp_ne_none (whole_nonneg hpos.le)).mp (h hpos)
                · linarith [whole_nonpos hneg]
              · exact fun h hpos => (fromTimestamp_ne_none (whole_nonneg hpos.le)).mpr h
          · cases negative <;> simp [probe, hget, Json.truthy, positive, toInt, Value.toInt]
          · simp [probe, hget, Json.truthy, positive]
      | null => simp [probe, hget, Json.truthy, positive]
      | bool value =>
          cases value
          · simp [probe, hget, Json.truthy, positive]
          · have hone : fromTimestamp 1 ≠ none := (fromTimestamp_ne_none (by decide)).mpr (by decide)
            rw [probe_number hget rfl rfl]
            simpa [toInt] using hone
      | text value => by_cases hempty : value = "" <;> simp [probe, hget, Json.truthy, positive, hempty]
      | array items => cases items <;> simp [probe, hget, Json.truthy, positive]
      | object entries => cases entries <;> simp [probe, hget, Json.truthy, positive]
  | _ => simp [probe, Readable]

namespace Turn

variable {t : Turn} {sidecar : Option Instant} {cutoff : Instant}

/-- Every recorded time and the sidecar's lie before the cutoff, and there is one. -/
def Quiet (t : Turn) (sidecar : Option Instant) (cutoff : Instant) : Prop :=
  (t.server.lastActivity.or t.server.startedAt ≠ none ∨ sidecar ≠ none) ∧
    (∀ last ∈ t.server.lastActivity.or t.server.startedAt, last < cutoff) ∧ ∀ ts ∈ sidecar, ts < cutoff

theorem quiet_iff : Quiet t sidecar cutoff ↔ ∃ last ∈ t.lastActivity sidecar, last < cutoff := by
  simp only [Quiet, Turn.lastActivity]
  cases hrecorded : t.server.lastActivity.or t.server.startedAt with
  | none => cases sidecar <;> simp
  | some last =>
      cases sidecar with
      | none => simp
      | some ts =>
          by_cases hnewer : last < ts
          · simp only [Option.all_some, hnewer, decide_true, if_true]
            simp only [ne_eq, reduceCtorEq, not_false_eq_true, true_or, true_and, Option.mem_def, Option.some.injEq,
              forall_eq', exists_eq_left']
            exact ⟨fun h => h.2, fun h => ⟨hnewer.trans h, h⟩⟩
          · simp only [Option.all_some, hnewer, decide_false, Bool.false_eq_true, if_false]
            simp only [ne_eq, reduceCtorEq, not_false_eq_true, true_or, true_and, Option.mem_def, Option.some.injEq,
              forall_eq', exists_eq_left']
            exact ⟨fun h => h.1, fun h => ⟨h, lt_of_le_of_lt (not_lt.mp hnewer) h⟩⟩

/-- A time that can be reached from a date is never out of the range of a `timedelta`. -/
theorem mem_cutoff : cutoff ∈ t.cutoff ↔
    ∃ delta ∈ minutes (get t.prefs "idle_shutdown_timeout" (.int 15)), IsDate (t.now - delta) ∧ t.now - delta = cutoff := by
  have hrange : ∀ delta, IsDate (t.now - delta) → -999999999 ≤ delta / day ∧ delta / day ≤ 999999999 := by
    intro delta hdate
    obtain ⟨hlow, hhigh⟩ := t.isDate
    obtain ⟨hlow', hhigh'⟩ := hdate
    have hday : (0 : Int) < day := by decide
    simp only [firstInstant, endOfTime] at hlow hhigh hlow' hhigh'
    constructor
    · rw [Int.le_ediv_iff_mul_le hday]
      linarith
    · apply Int.le_of_lt
      rw [Int.ediv_lt_iff_lt_mul hday]
      linarith
  simp only [Turn.cutoff, timeout, timedelta, minus, Option.mem_def, Option.bind_eq_some_iff, Option.filter_eq_some_iff,
    decide_eq_true_iff]
  constructor
  · rintro ⟨delta, ⟨hdelta, -⟩, hminus⟩
    split at hminus
    · rename_i hdate
      exact ⟨delta, hdelta, hdate, Option.some.inj hminus⟩
    · cases hminus
  · rintro ⟨delta, hdelta, hdate, rfl⟩
    exact ⟨delta, ⟨hdelta, hrange delta hdate⟩, by rw [if_pos hdate]⟩

/-- What one server must not bring, if its owner has not disabled the shutdown. -/
structure Fine (t : Turn) (sidecar : Option Instant) : Prop where
  fits : ∃ delta ∈ minutes (get t.prefs "idle_shutdown_timeout" (.int 15)), IsDate (t.now - delta)
  commits : t.stores sidecar = true → t.commitFails = false
  keeps : t.failure = some .sessionLost → ∀ cutoff ∈ t.cutoff, ¬ t.Quiet sidecar cutoff
  started : t.failure = none → t.stop = .stopped → ∀ cutoff ∈ t.cutoff, t.Quiet sidecar cutoff →
    ∀ started ∈ t.server.startedAt, started < cutoff

/-- A turn ends with a verdict, and a stopped server has not been started since the cutoff. -/
def Handles (t : Turn) (sidecar : Option Instant) (verdict : Verdict) : Prop :=
  t.examine sidecar = some verdict ∧
    (verdict = .idle .stopped → ∀ cutoff ∈ t.cutoff, ∀ started ∈ t.server.startedAt, started < cutoff)

theorem examine_enabled (he : t.enabled = true) (hcutoff : t.cutoff = some cutoff) (hstore : ¬ (t.stores sidecar ∧ t.commitFails)) :
    (¬ t.Quiet sidecar cutoff ∧ (t.examine sidecar = some .unsigned ∨ t.examine sidecar = some .active)) ∨
      t.Quiet sidecar cutoff ∧ t.examine sidecar =
        match t.failure with
        | none => some (.idle t.stop)
        | some .logged => some (.idle .failed)
        | some .sessionLost => none := by
  rw [quiet_iff]
  simp only [Turn.examine, he, if_true, hcutoff, Option.bind_some, if_neg hstore]
  cases hlast : t.lastActivity sidecar with
  | none => simp
  | some last =>
      by_cases hactive : cutoff ≤ last
      · simp [hactive]
      · simp [hactive, not_le.mp hactive]

theorem handles_iff (he : t.enabled = true) : (∃ verdict, t.Handles sidecar verdict) ↔ Fine t sidecar := by
  constructor
  · rintro ⟨verdict, hverdict, hstarted⟩
    obtain ⟨cutoff, hcutoff⟩ : ∃ cutoff, t.cutoff = some cutoff := by
      cases hcutoff : t.cutoff with
      | none => simp [Turn.examine, he, hcutoff] at hverdict
      | some cutoff => exact ⟨cutoff, rfl⟩
    have hstore : ¬ (t.stores sidecar ∧ t.commitFails) := by
      intro hstore
      simp [Turn.examine, he, hcutoff, hstore] at hverdict
    have hcases := examine_enabled he hcutoff hstore
    refine ⟨?_, ?_, ?_, ?_⟩
    · obtain ⟨delta, hdelta, hdate, -⟩ := mem_cutoff.mp hcutoff
      exact ⟨delta, hdelta, hdate⟩
    · intro hstores
      by_contra hfails
      exact hstore ⟨hstores, by simpa using hfails⟩
    · intro hlost c hc hquiet
      obtain rfl : cutoff = c := Option.some.inj (hcutoff.symm.trans hc)
      rcases hcases with ⟨hnot, -⟩ | ⟨-, hexamine⟩
      · exact hnot hquiet
      · simp [hexamine, hlost] at hverdict
    · intro hnone hstop c hc hquiet started hmem
      obtain rfl : cutoff = c := Option.some.inj (hcutoff.symm.trans hc)
      rcases hcases with ⟨hnot, -⟩ | ⟨-, hexamine⟩
      · exact absurd hquiet hnot
      · rw [hnone] at hexamine
        rw [hexamine, hstop] at hverdict
        exact hstarted (Option.some.inj hverdict).symm cutoff hcutoff started hmem
  · intro h
    obtain ⟨delta, hdelta, hdate⟩ := h.fits
    have hcutoff : t.cutoff = some (t.now - delta) := mem_cutoff.mpr ⟨delta, hdelta, hdate, rfl⟩
    have hstore : ¬ (t.stores sidecar ∧ t.commitFails) := by
      rintro ⟨hstores, hfails⟩
      rw [h.commits hstores] at hfails
      cases hfails
    rcases examine_enabled he hcutoff hstore with ⟨-, hexamine | hexamine⟩ | ⟨hquiet, hexamine⟩
    · exact ⟨.unsigned, hexamine, fun hstopped => by cases hstopped⟩
    · exact ⟨.active, hexamine, fun hstopped => by cases hstopped⟩
    · cases hfailure : t.failure with
      | none =>
          rw [hfailure] at hexamine
          refine ⟨.idle t.stop, hexamine, ?_⟩
          intro hstopped cutoff hcut
          obtain rfl : t.now - delta = cutoff := Option.some.inj (hcutoff.symm.trans hcut)
          exact h.started hfailure (Verdict.idle.inj hstopped) _ hcutoff hquiet
      | some failure =>
          rw [hfailure] at hexamine
          cases failure with
          | logged => exact ⟨.idle .failed, hexamine, fun hstopped => by cases hstopped⟩
          | sessionLost => exact absurd hquiet (h.keeps hfailure _ hcutoff)

theorem quiet_of_stopped (h : t.examine sidecar = some (.idle .stopped)) :
    t.enabled = true ∧ ∃ cutoff ∈ t.cutoff, t.Quiet sidecar cutoff := by
  have he : t.enabled = true := by
    by_contra hdisabled
    simp [Turn.examine, hdisabled] at h
  obtain ⟨cutoff, hcutoff⟩ : ∃ cutoff, t.cutoff = some cutoff := by
    cases hcutoff : t.cutoff with
    | none => simp [Turn.examine, he, hcutoff] at h
    | some cutoff => exact ⟨cutoff, rfl⟩
  have hstore : ¬ (t.stores sidecar ∧ t.commitFails) := by
    intro hstore
    simp [Turn.examine, he, hcutoff, hstore] at h
  refine ⟨he, cutoff, hcutoff, ?_⟩
  rcases examine_enabled he hcutoff hstore with ⟨-, hexamine | hexamine⟩ | ⟨hquiet, -⟩
  · rw [hexamine] at h
    cases h
  · rw [hexamine] at h
    cases h
  · exact hquiet

theorem lt_cutoff_iff (hcutoff : cutoff ∈ t.cutoff) {signal : Instant} :
    (∃ timeout ∈ t.timeout, signal < t.now - timeout) ↔ signal < cutoff := by
  obtain ⟨timeout, htimeout, hminus⟩ := Option.bind_eq_some_iff.mp hcutoff
  have hdifference : t.now - timeout = cutoff := by
    rw [minus] at hminus
    split at hminus
    · exact Option.some.inj hminus
    · cases hminus
  rw [← hdifference, htimeout]
  simp

theorem verdict_sound_iff {verdict : Verdict} (h : t.examine sidecar = some verdict) :
    t.Sound sidecar verdict ↔
      (verdict = .idle .stopped → ∀ cutoff ∈ t.cutoff, ∀ started ∈ t.server.startedAt, started < cutoff) := by
  apply imp_congr_right
  rintro rfl
  obtain ⟨he, cutoff, hcutoff, -, hrecorded, hsidecar⟩ := quiet_of_stopped h
  constructor
  · rintro ⟨-, hall⟩ c hc started hstarted
    exact (lt_cutoff_iff hc).mp (hall started (Or.inr (Or.inl hstarted)))
  · intro hstarted
    refine ⟨he, ?_⟩
    rintro signal (hlast | hstart | hts)
    · refine (lt_cutoff_iff hcutoff).mpr (hrecorded signal ?_)
      rw [Option.mem_def.mp hlast]
      rfl
    · exact (lt_cutoff_iff hcutoff).mpr (hstarted cutoff hcutoff signal hstart)
    · exact (lt_cutoff_iff hcutoff).mpr (hsidecar signal hts)

theorem examine_sound_iff : (∃ verdict, t.examine sidecar = some verdict ∧ t.Sound sidecar verdict) ↔
    (t.enabled = true → Fine t sidecar) := by
  by_cases he : t.enabled = true
  · rw [← handles_iff he]
    constructor
    · rintro ⟨verdict, hverdict, hsound⟩ -
      exact ⟨verdict, hverdict, (verdict_sound_iff hverdict).mp hsound⟩
    · intro h
      obtain ⟨verdict, hverdict, hsound⟩ := h he
      exact ⟨verdict, hverdict, (verdict_sound_iff hverdict).mpr hsound⟩
  · apply iff_of_true
    · exact ⟨.disabled, by simp [Turn.examine, he], fun h => by cases h⟩
    · exact fun h => absurd h he

end Turn

section Runs

variable {reports : Uuid → Report} {turns : List Turn}

theorem examineEach_iff {sidecar : Uuid → Option Instant} (P : Turn → Verdict → Prop) :
    ((examineEach sidecar turns).1.length = turns.length ∧ ∀ entry ∈ turns.zip (examineEach sidecar turns).1, P entry.1 entry.2) ↔
      ∀ t ∈ turns, ∃ verdict, t.examine (sidecar t.server.id) = some verdict ∧ P t verdict := by
  induction turns with
  | nil => simp [examineEach]
  | cons t turns ih =>
      rw [List.forall_mem_cons, ← ih, examineEach]
      cases hverdict : t.examine (sidecar t.server.id) with
      | none => simp
      | some verdict =>
          simp only [List.length_cons, Nat.add_right_cancel_iff, List.zip_cons_cons, List.forall_mem_cons, Option.some.injEq,
            exists_eq_left']
          tauto

/-- Every server is handled for itself where the reports can be read and no enabled
owner's values or failures end the task. -/
theorem isolatedAndSound_iff : IsolatedAndSound reports turns ↔
    (∀ id ∈ polled turns, Readable (reports id)) ∧
      ∀ t ∈ turns, t.enabled = true → t.Fine (reported reports turns t.server.id) := by
  have hreadable : (∀ id ∈ polled turns, probe (reports id) ≠ none) ↔ ∀ id ∈ polled turns, Readable (reports id) :=
    forall₂_congr fun id _ => probe_ne_none_iff (reports id)
  rw [IsolatedAndSound, shutdownIdleServers, fetchSidecarActivity, ← hreadable]
  by_cases hall : ∀ id ∈ polled turns, probe (reports id) ≠ none
  · rw [if_pos hall, and_iff_right hall]
    refine (examineEach_iff fun t verdict => t.Sound (reported reports turns t.server.id) verdict).trans ?_
    exact forall₂_congr fun t _ => Turn.examine_sound_iff
  · rw [if_neg hall]
    apply iff_of_false
    · rintro ⟨hlength, -⟩
      apply hall
      rw [List.eq_nil_of_length_eq_zero hlength.symm]
      intro id hid
      cases hid
    · exact fun h => hall h.1

/-- Stopping an idle server settles its bill and its owner's quota and frees its devices. -/
theorem stopped_left {t : Turn} {w : World} (h : t.stop = .stopped) :
    Left t.server w .all (Program.final (shutdownIdle t.runtime t.server) w) := by
  apply idleShutdown_left
  rw [Turn.stop] at h
  rw [parts]
  cases hc : t.server.containerId with
  | none => rfl
  | some c =>
      rw [hc] at h
      cases hs : t.runtime.status <;> simp_all [partsByStatus]

end Runs

section Runs

def noon : Instant := 739000 * day + 12 * hour

theorem isDate_noon : IsDate noon := by decide

/-- A server that has just been started, while its last recorded activity is a day old. -/
def restarted (id : Uuid) (preferences : Option Dict) : Turn where
  server := { newServer id 1 1 1 "lab" noon with lastActivity := some (noon - day) }
  preferences := preferences
  now := noon
  isDate := isDate_noon
  commitFails := false
  runtime := obedient .running
  failure := none

/-- One owner's timeout is a text, so that nobody's server is looked at. -/
theorem text_ends_task :
    shutdownIdleServers (fun _ => .unreachable)
        [restarted 1 (some [("idle_shutdown_timeout", .text "15")]), restarted 2 none] = ([], true) ∧
      ¬ ∀ reports turns, IsolatedAndSound reports turns := by
  have hrun : shutdownIdleServers (fun _ => .unreachable)
      [restarted 1 (some [("idle_shutdown_timeout", .text "15")]), restarted 2 none] = ([], true) := by decide
  refine ⟨hrun, ?_⟩
  intro h
  have hlength := (h _ _).1.symm.trans (congrArg (fun run => run.1.length) hrun)
  cases hlength

example : shutdownIdleServers (fun _ => .unreachable) [restarted 1 none] = ([.idle .stopped], false) := by decide

end Runs

end NukeLab.IdleShutdown
