import Mathlib.Tactic.Linarith
import NukeLab.Machine
import NukeLab.Notifications
import NukeLab.Queries

namespace NukeLab.LowBalance

open Machine Records State Queries Notifications
open RetentionPolicy (Json)

/-- The notifications of all users, in the order in which they were stored. -/
structure Store where
  notifications : List Notification
  clock : Instant

/-- Who is notified, and when: `now` at the query, `stored` at the insert. -/
structure Call where
  userId : Uuid
  preferences : Json
  now : Instant
  stored : Instant

inductive Event
  /-- a server of the user is billed -/
  | tick (call : Call) (newBalance costPerHour : Int)
  | deduct (call : Call) (amount newBalance : Int) (reason : Option String)

def Event.call : Event → Call
  | .tick call _ _ | .deduct call _ _ _ => call

def deductionMessage (amount newBalance : Int) : Option String → String
  | none | some "" =>
    toString amount ++ " NUKE credits have been deducted from your account. New balance: " ++ toString newBalance ++ "."
  | some reason =>
    toString amount ++ " NUKE credits deducted: " ++ reason ++ ". New balance: " ++ toString newBalance ++ "."

def deductedDraft (userId : Uuid) (amount newBalance : Int) (reason : Option String) : Draft where
  userId := userId
  title := "Credits Deducted"
  message := deductionMessage amount newBalance reason
  type := "credit"
  severity := "warning"
  actionUrl := none
  extraData := []
  eventKey := "credit_low"

def lowBalanceDraft (userId : Uuid) (balance : Int) : Draft where
  userId := userId
  title := "Low Credit Balance"
  message := "Your NUKE credit balance is low: " ++ toString balance ++
    " credits remaining. Top up to avoid service interruption."
  type := "credit"
  severity := "warning"
  actionUrl := none
  extraData := []
  eventKey := "credit_low"

def lowBalanceNotified (rows : List Notification) (userId : Uuid) (now : Instant) : List Notification :=
  rows.filter fun row =>
    row.userId = userId ∧ row.type = "credit" ∧ row.severity = "warning" ∧ row.createdAt ≥ now - day ∧
      row.extraData.lookup "event_key" = some "credit_low"

def lowBalance (rows : List Notification) (call : Call) (balance : Int) : Except Raise Sent := do
  let recent ← oneOrNone (lowBalanceNotified rows call.userId call.now)
  if recent.isSome then return ⟨none, false⟩
  create call.preferences call.stored (lowBalanceDraft call.userId balance)

/-- A raise is logged by the task, and fails the request. -/
def Store.add (s : Store) (clock : Instant) : Except Raise Sent → Store
  | .ok sent => ⟨s.notifications ++ sent.notification.toList, clock⟩
  | .error _ => ⟨s.notifications, clock⟩

def step (s : Store) (e : Event) : Option Store :=
  if s.clock ≤ e.call.now ∧ e.call.now ≤ e.call.stored then
    match e with
    | .tick call newBalance costPerHour =>
      if newBalance ≤ costPerHour * 2 then some (s.add call.stored (lowBalance s.notifications call newBalance))
      else some ⟨s.notifications, call.stored⟩
    | .deduct call amount newBalance reason =>
      some (s.add call.stored (create call.preferences call.stored (deductedDraft call.userId amount newBalance reason)))
  else none

/-- A warning of a low balance, which a notice of a deduction is not. -/
def Warning (userId : Uuid) (row : Notification) : Prop :=
  row.userId = userId ∧ row.title = "Low Credit Balance" ∧ row.type = "credit" ∧ row.severity = "warning" ∧
    row.extraData.lookup "event_key" = some "credit_low"

def WarnedRecently (s : Store) (call : Call) : Prop :=
  ∃ row ∈ s.notifications, Warning call.userId row ∧ row.createdAt ≥ call.now - day

/-- At a low balance the user is warned, unless they were within the day. -/
def Warns (s : Store) : Event → Prop
  | .tick call newBalance costPerHour => newBalance ≤ costPerHour * 2 →
      (WarnedRecently s call → lowBalance s.notifications call newBalance = .ok ⟨none, false⟩) ∧
        (¬ WarnedRecently s call → ∃ sent, lowBalance s.notifications call newBalance = .ok sent ∧
          sent.notification = some ((lowBalanceDraft call.userId newBalance).notification call.stored))
  | .deduct _ _ _ _ => True

/-- Of what the throttle looks for there is one warning, or nothing; and there
the user has these notifications in the application. -/
def Undisturbed (s : Store) : Event → Prop
  | .tick call newBalance costPerHour => newBalance ≤ costPerHour * 2 →
      (lowBalanceNotified s.notifications call.userId call.now).length ≤ 1 ∧
        (∀ row ∈ lowBalanceNotified s.notifications call.userId call.now, row.title = "Low Credit Balance") ∧
        (lowBalanceNotified s.notifications call.userId call.now = [] → InApp call.preferences "credit_low")
  | .deduct _ _ _ _ => True

variable {s t : Store} {rows : List Notification} {call : Call} {e : Event} {row : Notification} {newBalance : Int}

theorem mem_notified : row ∈ lowBalanceNotified rows call.userId call.now ↔
    row ∈ rows ∧ row.userId = call.userId ∧ row.type = "credit" ∧ row.severity = "warning" ∧
      row.createdAt ≥ call.now - day ∧ row.extraData.lookup "event_key" = some "credit_low" := by
  rw [lowBalanceNotified, List.mem_filter, decide_eq_true_iff]

theorem warnedRecently_iff : WarnedRecently s call ↔
    ∃ row ∈ lowBalanceNotified s.notifications call.userId call.now, row.title = "Low Credit Balance" := by
  constructor
  · rintro ⟨row, hrow, ⟨huser, htitle, htype, hseverity, hkey⟩, hrecent⟩
    exact ⟨row, mem_notified.mpr ⟨hrow, huser, htype, hseverity, hrecent, hkey⟩, htitle⟩
  · rintro ⟨row, hrow, htitle⟩
    obtain ⟨hrow, huser, htype, hseverity, hrecent, hkey⟩ := mem_notified.mp hrow
    exact ⟨row, hrow, ⟨huser, htitle, htype, hseverity, hkey⟩, hrecent⟩

theorem lowBalance_none (h : lowBalanceNotified rows call.userId call.now = []) :
    lowBalance rows call newBalance = create call.preferences call.stored (lowBalanceDraft call.userId newBalance) := by
  rw [lowBalance, h]
  rfl

theorem lowBalance_one (h : lowBalanceNotified rows call.userId call.now = [row]) :
    lowBalance rows call newBalance = .ok ⟨none, false⟩ := by
  rw [lowBalance, h]
  rfl

theorem lowBalance_many (h : 2 ≤ (lowBalanceNotified rows call.userId call.now).length) :
    lowBalance rows call newBalance = .error (.exception "MultipleResultsFound") := by
  rw [lowBalance, oneOrNone_many h]
  rfl

/-- Where nothing is found, the user is warned just where they have these notifications in the application. -/
theorem warned_iff (h : lowBalanceNotified rows call.userId call.now = []) :
    (∃ sent, lowBalance rows call newBalance = .ok sent ∧
      sent.notification = some ((lowBalanceDraft call.userId newBalance).notification call.stored)) ↔
      InApp call.preferences "credit_low" := by
  rw [lowBalance_none h]
  by_cases hreadable : Readable call.preferences "credit_low"
  · obtain ⟨sent, hsent, ⟨hinApp, hrow⟩ | ⟨hinApp, hrow⟩⟩ := @create_readable _ call.stored
      (lowBalanceDraft call.userId newBalance) hreadable
    · exact iff_of_true ⟨sent, hsent, hrow⟩ hinApp
    · refine iff_of_false ?_ hinApp
      rintro ⟨sent', hsent', hrow'⟩
      rw [hsent] at hsent'
      cases hsent'
      rw [hrow] at hrow'
      cases hrow'
  · refine iff_of_false ?_ (mt readable_of_inApp hreadable)
    rintro ⟨sent, hsent, -⟩
    rw [create_unreadable hreadable] at hsent
    cases hsent

theorem warns_iff (s : Store) (e : Event) : Warns s e ↔ Undisturbed s e := by
  cases e with
  | deduct call amount newBalance reason => exact Iff.rfl
  | tick call newBalance costPerHour =>
      apply imp_congr_right
      intro _
      rw [warnedRecently_iff]
      rcases hfound : lowBalanceNotified s.notifications call.userId call.now with _ | ⟨row, _ | ⟨other, rest⟩⟩
      · rw [warned_iff hfound]
        simp
      · rw [lowBalance_one hfound]
        by_cases htitle : row.title = "Low Credit Balance" <;> simp [htitle]
      · have hmany := @lowBalance_many _ _ newBalance (hfound ▸ Nat.le_add_left 2 rest.length :
          2 ≤ (lowBalanceNotified s.notifications call.userId call.now).length)
        rw [hmany]
        simp

def Throttled (stored : Nat) (s : Store) : Prop :=
  ∀ userId, Spaced Notification.createdAt day (Warning userId) stored s.notifications

theorem notification_of_lowBalance {sent : Sent} (h : lowBalance rows call newBalance = .ok sent)
    (hrow : row ∈ sent.notification) : lowBalanceNotified rows call.userId call.now = [] ∧
      row = (lowBalanceDraft call.userId newBalance).notification call.stored := by
  rcases hfound : lowBalanceNotified rows call.userId call.now with _ | ⟨other, _ | ⟨other', rest⟩⟩
  · refine ⟨rfl, ?_⟩
    rw [lowBalance_none hfound] at h
    by_cases hreadable : Readable call.preferences "credit_low"
    · obtain ⟨sent', hsent', ⟨-, hrow'⟩ | ⟨-, hrow'⟩⟩ := @create_readable _ call.stored
        (lowBalanceDraft call.userId newBalance) hreadable
      · rw [hsent'] at h
        cases h
        exact Option.some.inj (hrow.symm.trans hrow')
      · rw [hsent'] at h
        cases h
        rw [hrow'] at hrow
        cases hrow
    · rw [create_unreadable hreadable] at h
      cases h
  · rw [lowBalance_one hfound] at h
    cases h
    cases hrow
  · have hmany := @lowBalance_many _ _ newBalance (hfound ▸ Nat.le_add_left 2 rest.length :
      2 ≤ (lowBalanceNotified rows call.userId call.now).length)
    rw [hmany] at h
    cases h

theorem throttled_warning {stored : Nat} {userId : Uuid} (hs : Throttled stored s) (hstored : call.now ≤ call.stored)
    (hnone : lowBalanceNotified s.notifications call.userId call.now = []) :
    Spaced Notification.createdAt day (Warning userId) stored
      (s.notifications ++ [(lowBalanceDraft call.userId newBalance).notification call.stored]) := by
  apply (hs userId).concat
  rintro ⟨huser, -⟩ row hrow ⟨huser', -, htype, hseverity, hkey⟩
  by_contra hlate
  have hrecent : row.createdAt ≥ call.now - day := by
    have hsoon : call.stored ≤ row.createdAt + day := not_lt.mp hlate
    linarith
  have hfound := mem_notified.mpr ⟨hrow, huser'.trans huser.symm, htype, hseverity, hrecent, hkey⟩
  rw [hnone] at hfound
  cases hfound

theorem throttled_notice {stored : Nat} {userId userId' : Uuid} {amount : Int} {reason : Option String} {now : Instant}
    (hs : Throttled stored s) : Spaced Notification.createdAt day (Warning userId) stored
      (s.notifications ++ [(deductedDraft userId' amount newBalance reason).notification now]) := by
  apply (hs userId).concat
  rintro ⟨-, htitle, -⟩
  exact absurd (id htitle : "Credits Deducted" = "Low Credit Balance") (by decide)

theorem throttled_step {stored : Nat} (hs : Throttled stored s) (h : step s e = some t) : Throttled stored t := by
  simp only [step] at h
  split at h
  · rename_i hclock
    cases e with
    | tick call newBalance costPerHour =>
        simp only at h
        split at h
        · cases h
          cases hsent : lowBalance s.notifications call newBalance with
          | error raise => exact hs
          | ok sent =>
              intro userId
              rw [Store.add]
              cases hrow : sent.notification with
              | none =>
                  rw [Option.toList_none, List.append_nil]
                  exact hs userId
              | some row =>
                  obtain ⟨hnone, rfl⟩ := notification_of_lowBalance hsent hrow
                  exact throttled_warning hs hclock.2 hnone
        · cases h
          exact hs
    | deduct call amount newBalance reason =>
        cases h
        by_cases hreadable : Readable call.preferences "credit_low"
        · obtain ⟨sent, hsent, ⟨-, hrow⟩ | ⟨-, hrow⟩⟩ := @create_readable _ call.stored
            (deductedDraft call.userId amount newBalance reason) hreadable
          · intro userId
            rw [hsent, Store.add, hrow]
            exact throttled_notice hs
          · intro userId
            rw [hsent, Store.add, hrow, Option.toList_none, List.append_nil]
            exact hs userId
        · rw [@create_unreadable _ _ (deductedDraft call.userId amount newBalance reason) hreadable]
          exact hs
  · cases h

/-- Warnings are always a day apart. They come when they should, and none
fails, in the runs where nothing disturbs the throttle. -/
theorem warned_daily_iff (history : List Notification) (clock : Instant) (events : List Event) :
    (AllStates step (Throttled history.length) ⟨history, clock⟩ events ∧ AllSteps step Warns ⟨history, clock⟩ events) ↔
      AllSteps step Undisturbed ⟨history, clock⟩ events := by
  have hstart : Throttled history.length ⟨history, clock⟩ := fun userId => spaced_start _ _ _ history
  have hthrottled : AllStates step (Throttled history.length) ⟨history, clock⟩ events :=
    allStates_of_steps (fun s e t hs h => throttled_step hs h) hstart
  rw [and_iff_right hthrottled]
  exact allSteps_congr (fun s e t _ _ => warns_iff s e) hthrottled

/-- Two deductions, and then a tick with a low balance. -/
theorem deductions_block_warning :
    ¬ ∀ (history : List Notification) (clock : Instant) (events : List Event),
      AllStates step (Throttled history.length) ⟨history, clock⟩ events ∧
        AllSteps step Warns ⟨history, clock⟩ events := by
  intro h
  have hwarns := (h [] 0 [.deduct ⟨7, .null, 0, 0⟩ 5 40 none, .deduct ⟨7, .null, 1, 1⟩ 5 35 none,
    .tick ⟨7, .null, 2, 2⟩ 10 20]).2
  have htick := (((hwarns _ rfl).2 _ rfl).2 _ rfl).1
  rw [warns_iff] at htick
  exact absurd (htick (by decide)).1 (by decide)

end NukeLab.LowBalance
