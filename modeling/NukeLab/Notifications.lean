import NukeLab.RetentionPolicy
import NukeLab.State

namespace NukeLab.Notifications

open Records State
open RetentionPolicy (Json)

structure Notification where
  userId : Uuid
  title : String
  message : String
  type : String
  severity : String
  actionUrl : Option String
  /-- The first entry under a key counts. -/
  extraData : List (String × String)
  createdAt : Instant

def defaultChannels : List (String × Json) :=
  [("email", .bool false), ("webhook", .bool false), ("in_app", .bool true), ("push", .bool false)]

def eventEntry : Json → Option (Option String × Json)
  | .object fields =>
    let channels := (fields.lookup "channels").getD (.object defaultChannels)
    match fields.lookup "event" with
    | none | some (.array _) | some (.object _) => none
    | some (.text key) => some (some key, channels)
    | some _ => some (none, channels)
  | _ => none

/-- What goes wrong in reading the preferences leaves them empty. -/
def getUserNotificationPrefs : Json → List (Option String × Json)
  | .object preferences =>
    match (preferences.lookup "notifications").getD (.object []) with
    | .object notifications =>
      match (notifications.lookup "events").getD (.array []) with
      | .array events => (events.mapM eventEntry).getD []
      | _ => []
    | _ => []
  | _ => []

def attributeError : Raise := .exception "AttributeError"

/-- Of two entries for one event the later counts. -/
def shouldSend (prefs : List (Option String × Json)) (eventKey channel : String) : Except Raise Bool :=
  match (prefs.reverse.lookup (some eventKey)).getD (.object defaultChannels) with
  | .object channels =>
    .ok (((channels.lookup channel).getD ((defaultChannels.lookup channel).getD (.bool false))).truthy)
  | _ => .error attributeError

structure Draft where
  userId : Uuid
  title : String
  message : String
  type : String
  severity : String
  actionUrl : Option String
  extraData : List (String × String)
  eventKey : String

structure Sent where
  notification : Option Notification
  /-- Handed to the slower channels. -/
  offloaded : Bool

def Draft.notification (draft : Draft) (now : Instant) : Notification where
  userId := draft.userId
  title := draft.title
  message := draft.message
  type := draft.type
  severity := draft.severity
  actionUrl := draft.actionUrl
  extraData := draft.extraData ++ [("event_key", draft.eventKey)]
  createdAt := now

def create (preferences : Json) (now : Instant) (draft : Draft) : Except Raise Sent := do
  let prefs := getUserNotificationPrefs preferences
  let inApp ← shouldSend prefs draft.eventKey "in_app"
  let email ← shouldSend prefs draft.eventKey "email"
  let webhook ← shouldSend prefs draft.eventKey "webhook"
  let push ← shouldSend prefs draft.eventKey "push"
  return ⟨if inApp then some (draft.notification now) else none, email || webhook || push⟩

def channelsOf (preferences : Json) (eventKey : String) : Json :=
  ((getUserNotificationPrefs preferences).reverse.lookup (some eventKey)).getD (.object defaultChannels)

def Readable (preferences : Json) (eventKey : String) : Prop :=
  ∃ channels, channelsOf preferences eventKey = .object channels

def InApp (preferences : Json) (eventKey : String) : Prop :=
  shouldSend (getUserNotificationPrefs preferences) eventKey "in_app" = .ok true

variable {preferences : Json} {eventKey : String} {now : Instant} {draft : Draft}

theorem shouldSend_readable (h : Readable preferences eventKey) (channel : String) :
    ∃ on, shouldSend (getUserNotificationPrefs preferences) eventKey channel = .ok on := by
  obtain ⟨channels, h⟩ := h
  rw [channelsOf] at h
  rw [shouldSend, h]
  exact ⟨_, rfl⟩

theorem shouldSend_unreadable (h : ¬ Readable preferences eventKey) (channel : String) :
    shouldSend (getUserNotificationPrefs preferences) eventKey channel = .error attributeError := by
  rw [shouldSend]
  split
  · next channels hchannels => exact absurd ⟨channels, hchannels⟩ h
  · rfl

theorem readable_of_inApp (h : InApp preferences eventKey) : Readable preferences eventKey := by
  by_contra hunreadable
  rw [InApp, shouldSend_unreadable hunreadable] at h
  cases h

theorem create_readable (h : Readable preferences draft.eventKey) : ∃ sent, create preferences now draft = .ok sent ∧
    ((InApp preferences draft.eventKey ∧ sent.notification = some (draft.notification now)) ∨
      ¬ InApp preferences draft.eventKey ∧ sent.notification = none) := by
  obtain ⟨inApp, hinApp⟩ := shouldSend_readable h "in_app"
  obtain ⟨email, hemail⟩ := shouldSend_readable h "email"
  obtain ⟨webhook, hwebhook⟩ := shouldSend_readable h "webhook"
  obtain ⟨push, hpush⟩ := shouldSend_readable h "push"
  refine ⟨⟨if inApp then some (draft.notification now) else none, email || webhook || push⟩, ?_, ?_⟩
  · rw [create, hinApp, hemail, hwebhook, hpush]
    rfl
  · rw [InApp, hinApp]
    cases inApp
    · exact Or.inr ⟨by simp, rfl⟩
    · exact Or.inl ⟨rfl, rfl⟩

theorem create_unreadable (h : ¬ Readable preferences draft.eventKey) :
    create preferences now draft = .error attributeError := by
  rw [create, shouldSend_unreadable h]
  rfl

end NukeLab.Notifications
