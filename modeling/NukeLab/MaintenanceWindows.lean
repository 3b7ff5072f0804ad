import Mathlib.Data.List.Dedup
import NukeLab.Double
import NukeLab.Machine
import NukeLab.Records

namespace NukeLab.MaintenanceWindows

open Records Tables Machine

structure Schedule where
  startAt : Instant
  endAt : Instant
  isActive : Bool
  autoEnabled : Bool
  autoDisabled : Bool

structure Window extends Schedule where
  id : Uuid
  title : String
  message : String
  notifyOffsets : List Int
  notifiedOffsets : List Int
  notifiedAt : Option Instant

/-- The mode is the row of the settings table, not what each process remembers of it. -/
structure Site where
  windows : Table Window.id
  maintenanceMode : Bool
  maintenanceMessage : String

structure Changes where
  title : Option String
  message : Option String
  startAt : Option Instant
  endAt : Option Instant
  isActive : Option Bool
  notifyOffsets : Option (List Int)

/-- Offsets in minutes. A start that has passed leaves none of them. -/
def normalizeOffsets (now startAt : Instant) (offsets : List Int) : List Int :=
  if offsets = [] then [15]
  else
    let minutesUntilStart := ⌊Double.div (Double.div (startAt - now : Int) second) 60⌋
    let unique := (offsets.filter fun o => 0 < o ∧ o < minutesUntilStart).dedup.mergeSort (· ≥ ·)
    if unique = [] then [15] else unique

def createWindow (now : Instant) (id : Uuid) (title message : String) (startAt endAt : Instant) (isActive : Bool)
    (notifyOffsets : Option (List Int)) (site : Site) : Except String Window × Site :=
  if endAt ≤ startAt then (.error "End time must be after start time", site)
  else if startAt < now - minute then (.error "Start time must be in the future", site)
  else
    let window : Window := {
      startAt, endAt, isActive, id, title, message
      autoEnabled := false
      autoDisabled := false
      notifyOffsets := normalizeOffsets now startAt (notifyOffsets.getD [])
      notifiedOffsets := []
      notifiedAt := none
    }
    (.ok window, { site with windows := site.windows.insert window })

def Changes.resets (changes : Changes) : Bool :=
  changes.startAt.isSome || changes.endAt.isSome || changes.notifyOffsets.isSome

def Schedule.change (changes : Changes) (s : Schedule) : Schedule where
  startAt := changes.startAt.getD s.startAt
  endAt := changes.endAt.getD s.endAt
  isActive := changes.isActive.getD s.isActive
  autoEnabled := s.autoEnabled && !changes.resets
  autoDisabled := s.autoDisabled && !changes.resets

def Window.change (now : Instant) (changes : Changes) (w : Window) : Window where
  toSchedule := w.toSchedule.change changes
  id := w.id
  title := changes.title.getD w.title
  message := changes.message.getD w.message
  notifyOffsets := (changes.notifyOffsets.map (normalizeOffsets now (changes.startAt.getD w.startAt))).getD w.notifyOffsets
  notifiedOffsets := if changes.resets then [] else w.notifiedOffsets
  notifiedAt := if changes.resets then none else w.notifiedAt

/-- An error leaves the transaction uncommitted. -/
def updateWindow (now : Instant) (id : Uuid) (changes : Changes) (site : Site) : Except String Window × Site :=
  match site.windows.find id with
  | none => (.error "Maintenance window not found", site)
  | some window =>
    let changed := window.change now changes
    if changed.endAt ≤ changed.startAt then (.error "End time must be after start time", site)
    else (.ok changed, { site with windows := site.windows.modify id (Window.change now changes) fun _ => rfl })

def deleteWindow (id : Uuid) (site : Site) : Bool × Site :=
  match site.windows.find id with
  | none => (false, site)
  | some _ => (true, { site with windows := site.windows.erase id })

/-- The first offset that is due, if its time has not long passed. Offsets that lead
past the year 9999, which raise, are left out. -/
def Window.pendingOffset (now : Instant) (w : Window) : Option Int :=
  (if w.notifyOffsets = [] then [15] else w.notifyOffsets).find? fun offset =>
    offset ∉ w.notifiedOffsets ∧ ¬ w.startAt - offset * minute < now - hour ∧ w.startAt ≤ now + offset * minute

def getPendingNotifications (now : Instant) (site : Site) : List (Window × Int) :=
  (site.windows.rows.filter fun w => w.isActive ∧ w.startAt > now ∧ ¬ w.autoEnabled).filterMap fun w =>
    (w.pendingOffset now).map fun offset => (w, offset)

def Schedule.toEnable (now : Instant) (s : Schedule) : Bool := s.isActive && s.startAt ≤ now && !s.autoEnabled

def Schedule.toDisable (now : Instant) (s : Schedule) : Bool :=
  s.isActive && s.endAt ≤ now && s.autoEnabled && !s.autoDisabled

def getWindowsToEnable (now : Instant) (site : Site) : List Window :=
  site.windows.rows.filter fun w => w.toEnable now

def getWindowsToDisable (now : Instant) (site : Site) : List Window :=
  site.windows.rows.filter fun w => w.toDisable now

def sendAdvanceNotifications (now : Instant) (site : Site) (pending : Window × Int) : Site :=
  { site with
    windows := site.windows.modify pending.1.id (fun w =>
      { w with
        notifiedOffsets := if pending.2 ∈ w.notifiedOffsets then w.notifiedOffsets else w.notifiedOffsets ++ [pending.2]
        notifiedAt := some now }) fun _ => rfl }

def Window.switchedOn (w : Window) : Window := { w with autoEnabled := true }

def Window.switchedOff (w : Window) : Window := { w with autoDisabled := true }

theorem Window.id_switchedOn (w : Window) : w.switchedOn.id = w.id := rfl

theorem Window.id_switchedOff (w : Window) : w.switchedOff.id = w.id := rfl

def enableMaintenance (site : Site) (window : Window) : Site where
  windows := site.windows.modify window.id Window.switchedOn Window.id_switchedOn
  maintenanceMode := true
  maintenanceMessage := "[" ++ window.title ++ "] " ++ window.message

def disableMaintenance (site : Site) (window : Window) : Site :=
  { site with
    windows := site.windows.modify window.id Window.switchedOff Window.id_switchedOff
    maintenanceMode := false }

structure Evaluated where
  notificationsSent : Nat
  enabledCount : Nat
  disabledCount : Nat

def evaluateWindows (now : Instant) (reached : Window → Int → Nat) (site : Site) : Evaluated × Site :=
  let pending := getPendingNotifications now site
  let notified := pending.foldl (sendAdvanceNotifications now) site
  let enabled := (getWindowsToEnable now notified).foldl enableMaintenance notified
  let disabled := (getWindowsToDisable now enabled).foldl disableMaintenance enabled
  (⟨(pending.map fun (w, offset) => reached w offset).sum, (getWindowsToEnable now notified).length,
    (getWindowsToDisable now enabled).length⟩, disabled)

inductive Event
  | create (id : Uuid) (title message : String) (startAt endAt : Instant) (isActive : Bool)
      (notifyOffsets : Option (List Int))
  | update (id : Uuid) (changes : Changes)
  | delete (id : Uuid)
  | evaluate (reached : Window → Int → Nat)

def handle (now : Instant) (site : Site) : Event → Site
  | .create id title message startAt endAt isActive notifyOffsets =>
    (createWindow now id title message startAt endAt isActive notifyOffsets site).2
  | .update id changes => (updateWindow now id changes site).2
  | .delete id => (deleteWindow id site).2
  | .evaluate reached => (evaluateWindows now reached site).2

structure Moment where
  site : Site
  clock : Instant

def step : Step Moment (Instant × Event) := fun m (now, event) =>
  if now < m.clock then none else some ⟨handle now m.site event, now⟩

def start : Moment := ⟨⟨Table.empty Window.id, false, ""⟩, 0⟩

end NukeLab.MaintenanceWindows
