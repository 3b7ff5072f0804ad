import NukeLab.CreditRequests
import NukeLab.Machine
import NukeLab.Notifications
import NukeLab.Queries
import NukeLab.Roles
import NukeLab.UuidTexts

namespace NukeLab.StaleReminders

open Tables Machine Records Roles State Queries Notifications UuidTexts
open ContainerNames (uuidBound)
open CreditRequests (isOpen)
open RetentionPolicy (Json)

structure User where
  id : Uuid
  username : String
  role : Role
  isActive : Bool
  preferences : Json

structure Site where
  users : Table User.id
  requests : Table CreditRequest.id
  permissions : PermissionTable
  ids : ∀ request ∈ requests.rows, request.id < uuidBound

def reviewerRoles : List Role := [.admin, .moderator, .support, .superAdmin]

def reviewers (site : Site) : List User :=
  site.users.rows.filter fun user =>
    user.isActive ∧ user.role ∈ reviewerRoles ∧ .creditsGrant ∈ getExpandedRolePermissions site.permissions user.role

def reminderDraft (reviewerId : Uuid) (request : CreditRequest) (requesterUsername : String) (ageHours : Int) : Draft where
  userId := reviewerId
  title := "Stale Credit Request"
  message := "The credit request from " ++ requesterUsername ++ " for " ++ toString request.amount ++
    " NUKE credits has been waiting for " ++ toString ageHours ++ " hours."
  type := "credit"
  severity := "warning"
  actionUrl := some ("/admin/credits?request=" ++ uuidText request.id)
  extraData := [("event_key", "credit_request_stale"), ("request_id", uuidText request.id)]
  eventKey := "credit_request"

def draftFor (reviewer : User) (request : CreditRequest) (username : String) (now : Instant) : Draft :=
  reminderDraft reviewer.id request username ((now - request.createdAt) / hour)

/-- What was sent. Only what goes to the application leaves a row. -/
structure Delivery where
  notification : Notification
  stored : Bool

def deliveries (draft : Draft) (now : Instant) (sent : Sent) : List Delivery :=
  match sent.notification with
  | some notification => [⟨notification, true⟩]
  | none => if sent.offloaded then [⟨draft.notification now, false⟩] else []

/-- The rows that the throttle looks for, whoever was reminded. -/
def remindersOf (sent : List Delivery) (now : Instant) (requestId : Uuid) : List Delivery :=
  sent.filter fun d =>
    d.stored ∧ d.notification.type = "credit" ∧ d.notification.createdAt ≥ now - day ∧
      d.notification.extraData.lookup "event_key" = some "credit_request_stale" ∧
      d.notification.extraData.lookup "request_id" = some (uuidText requestId)

/-- Every notification is committed by itself. -/
def notifyReviewers (now : Instant) (request : CreditRequest) (username : String) :
    List User → List Delivery → Except Raise Unit × List Delivery
  | [], sent => (.ok (), sent)
  | reviewer :: rest, sent =>
    match create reviewer.preferences now (draftFor reviewer request username now) with
    | .error raise => (.error raise, sent)
    | .ok created =>
      notifyReviewers now request username rest (sent ++ deliveries (draftFor reviewer request username now) now created)

/-- The open requests that have waited for a day, with their users' names. -/
def staleRequests (site : Site) (now : Instant) : List (CreditRequest × String) :=
  site.requests.rows.filterMap fun request =>
    if isOpen request.status ∧ request.createdAt < now - day then
      (site.users.find request.userId).map fun user => (request, user.username)
    else none

def remindEach (site : Site) (now : Instant) :
    List (CreditRequest × String) → List Delivery → Except Raise Nat × List Delivery
  | [], sent => (.ok 0, sent)
  | (request, username) :: rest, sent =>
    match oneOrNone (remindersOf sent now request.id) with
    | .error raise => (.error raise, sent)
    | .ok (some _) => remindEach site now rest sent
    | .ok none =>
      match notifyReviewers now request username (reviewers site) sent with
      | (.error raise, sent) => (.error raise, sent)
      | (.ok (), sent) =>
        let (reminded, sent) := remindEach site now rest sent
        (reminded.map (· + 1), sent)

def remindStaleRequests (site : Site) (now : Instant) (sent : List Delivery) : Except Raise Nat × List Delivery :=
  remindEach site now (staleRequests site now) sent

structure Store where
  sent : List Delivery
  clock : Instant

def Delivery.delete (d : Delivery) : Delivery := { d with stored := false }

/-- A run of the task, or a user deleting a notification. -/
inductive Event
  | run (site : Site) (now : Instant)
  | delete (i : Nat)

def step (s : Store) : Event → Option Store
  | .run site now => if s.clock ≤ now then some ⟨(remindStaleRequests site now s.sent).2, now⟩ else none
  | .delete i => some { s with sent := s.sent.modify i Delivery.delete }

def Reminder (reviewerId requestId : Uuid) (d : Delivery) : Prop :=
  d.notification.userId = reviewerId ∧ d.notification.type = "credit" ∧
    d.notification.extraData.lookup "event_key" = some "credit_request_stale" ∧
    d.notification.extraData.lookup "request_id" = some (uuidText requestId)

def channels : List String := ["in_app", "email", "webhook", "push"]

def Receives (preferences : Json) : Prop :=
  ∃ channel ∈ channels, shouldSend (getUserNotificationPrefs preferences) "credit_request" channel = .ok true

def Unreminded (sent : List Delivery) (now : Instant) (requestId : Uuid) : Prop :=
  ∀ d ∈ sent, ∀ reviewerId, Reminder reviewerId requestId d → d.notification.createdAt + day < now

/-- The run ends well, and reminds every reviewer who takes reminders of each
stale request that was not reminded of within the day. -/
def Reminds (s : Store) : Event → Prop
  | .run site now => ∃ reminded added, remindStaleRequests site now s.sent = (.ok reminded, s.sent ++ added) ∧
      ∀ p ∈ staleRequests site now, Unreminded s.sent now p.1.id → ∀ reviewer ∈ reviewers site,
        Receives reviewer.preferences → ∃ d ∈ added, Reminder reviewer.id p.1.id d ∧ d.notification.createdAt = now
  | .delete _ => True

/-- The throttle finds no two rows, and where it finds none the reviewers'
preferences can be read. -/
def Fit (site : Site) (now : Instant) (sent : List Delivery) (p : CreditRequest × String) : Prop :=
  (remindersOf sent now p.1.id).length ≤ 1 ∧
    (remindersOf sent now p.1.id = [] → ∀ reviewer ∈ reviewers site, Readable reviewer.preferences "credit_request")

/-- Where the throttle finds nothing, none of those who are to be reminded has been, within the day. -/
def Fresh (site : Site) (now : Instant) (sent : List Delivery) (p : CreditRequest × String) : Prop :=
  remindersOf sent now p.1.id = [] → ∀ reviewer ∈ reviewers site, Receives reviewer.preferences →
    ∀ d ∈ sent, Reminder reviewer.id p.1.id d → d.notification.createdAt + day < now

def Single (s : Store) : Event → Prop
  | .run site now => ∀ p ∈ staleRequests site now, Fit site now s.sent p ∧ Fresh site now s.sent p
  | .delete _ => True

/-- Reminders of a request to one reviewer are more than a day apart, those sent before the run included. -/
def DayApart (before : Nat) (sent : List Delivery) : Prop :=
  ∀ reviewerId requestId, Spaced (fun d => d.notification.createdAt) day (Reminder reviewerId requestId) before sent

section Run

variable {site : Site} {now : Instant} {request : CreditRequest} {username : String} {reviewer : User}
  {us : List User} {sent : List Delivery} {d : Delivery} {requestId reviewerId : Uuid}

def reminder (reviewer : User) (request : CreditRequest) (username : String) (now : Instant) (stored : Bool) : Delivery :=
  ⟨(draftFor reviewer request username now).notification now, stored⟩

theorem mem_remindersOf : d ∈ remindersOf sent now requestId ↔
    d ∈ sent ∧ d.stored = true ∧ d.notification.createdAt ≥ now - day ∧ ∃ reviewerId, Reminder reviewerId requestId d := by
  rw [remindersOf, List.mem_filter, decide_eq_true_iff]
  constructor
  · rintro ⟨hd, hstored, htype, hrecent, hkey, hid⟩
    exact ⟨hd, hstored, hrecent, d.notification.userId, rfl, htype, hkey, hid⟩
  · rintro ⟨hd, hstored, hrecent, reviewerId, -, htype, hkey, hid⟩
    exact ⟨hd, hstored, htype, hrecent, hkey, hid⟩

theorem reminder_reminder (reviewer : User) (request : CreditRequest) (username : String) (now : Instant) (stored : Bool) :
    Reminder reviewer.id request.id (reminder reviewer request username now stored) := ⟨rfl, rfl, rfl, rfl⟩

theorem requestId_of_reminder {stored : Bool} (hid : requestId < uuidBound) (hrequest : request.id < uuidBound)
    (h : Reminder reviewerId requestId (reminder reviewer request username now stored)) : requestId = request.id := by
  obtain ⟨-, -, -, htext⟩ := h
  have htext : uuidText request.id = uuidText requestId := Option.some.inj htext
  have hparsed := parseUuid_uuidText hid
  rw [← htext, parseUuid_uuidText hrequest] at hparsed
  exact (Option.some.inj hparsed).symm

theorem create_deliveries {preferences : Json} {draft : Draft} (hkey : draft.eventKey = "credit_request")
    (h : Readable preferences "credit_request") : ∃ created, create preferences now draft = .ok created ∧
      ((Receives preferences ∧ ∃ stored, deliveries draft now created = [⟨draft.notification now, stored⟩]) ∨
        ¬ Receives preferences ∧ deliveries draft now created = []) := by
  obtain ⟨inApp, hinApp⟩ := shouldSend_readable h "in_app"
  obtain ⟨email, hemail⟩ := shouldSend_readable h "email"
  obtain ⟨webhook, hwebhook⟩ := shouldSend_readable h "webhook"
  obtain ⟨push, hpush⟩ := shouldSend_readable h "push"
  refine ⟨⟨if inApp then some (draft.notification now) else none, email || webhook || push⟩, ?_, ?_⟩
  · rw [create, hkey, hinApp, hemail, hwebhook, hpush]
    rfl
  · simp only [Receives, channels, List.mem_cons, List.not_mem_nil, or_false, exists_eq_or_imp, exists_eq_left, hinApp,
      hemail, hwebhook, hpush, Except.ok.injEq, deliveries]
    cases inApp <;> cases email <;> cases webhook <;> cases push <;> simp

theorem notify_ok (h : ∀ u ∈ us, Readable u.preferences "credit_request") (sent : List Delivery) :
    ∃ added, notifyReviewers now request username us sent = (.ok (), sent ++ added) ∧
      (∀ d ∈ added, ∃ reviewer stored, d = reminder reviewer request username now stored) ∧
      ∀ u ∈ us, Receives u.preferences → ∃ stored, reminder u request username now stored ∈ added := by
  induction us generalizing sent with
  | nil => exact ⟨[], by rw [notifyReviewers, List.append_nil], List.forall_mem_nil _, List.forall_mem_nil _⟩
  | cons u us ih =>
      obtain ⟨hu, hus⟩ := List.forall_mem_cons.mp h
      obtain ⟨created, hcreated, hcase⟩ := @create_deliveries now _
        (draftFor u request username now) rfl hu
      obtain ⟨added, hrun, hadded, hall⟩ := ih hus (sent ++ deliveries (draftFor u request username now) now created)
      refine ⟨deliveries (draftFor u request username now) now created ++ added, ?_, ?_, ?_⟩
      · simp only [notifyReviewers, hcreated, hrun, List.append_assoc]
      · intro d hd
        rcases List.mem_append.mp hd with hd | hd
        · rcases hcase with ⟨-, stored, hdeliveries⟩ | ⟨-, hdeliveries⟩
          · rw [hdeliveries, List.mem_singleton] at hd
            exact ⟨u, stored, hd⟩
          · rw [hdeliveries] at hd
            cases hd
        · exact hadded d hd
      · rw [List.forall_mem_cons]
        refine ⟨fun hreceives => ?_, fun v hv hreceives => ?_⟩
        · rcases hcase with ⟨-, stored, hdeliveries⟩ | ⟨hno, -⟩
          · rw [hdeliveries]
            exact ⟨stored, List.mem_append_left _ (List.mem_singleton.mpr rfl)⟩
          · exact absurd hreceives hno
        · obtain ⟨stored, hmem⟩ := hall v hv hreceives
          exact ⟨stored, List.mem_append_right _ hmem⟩

theorem notify_raises (h : ∃ u ∈ us, ¬ Readable u.preferences "credit_request") (sent : List Delivery) :
    ∃ raise sent', notifyReviewers now request username us sent = (.error raise, sent') := by
  induction us generalizing sent with
  | nil =>
      obtain ⟨u, hu, -⟩ := h
      cases hu
  | cons u us ih =>
      rw [notifyReviewers]
      by_cases hu : Readable u.preferences "credit_request"
      · obtain ⟨created, hcreated, -⟩ := @create_deliveries now _
          (draftFor u request username now) rfl hu
        obtain ⟨v, hv, hunreadable⟩ := h
        rw [hcreated]
        rcases List.mem_cons.mp hv with rfl | hv
        · exact absurd hu hunreadable
        · exact ih ⟨v, hv, hunreadable⟩ _
      · rw [@create_unreadable _ _ (draftFor u request username now) hu]
        exact ⟨_, _, rfl⟩

def Distinct (list : List (CreditRequest × String)) : Prop :=
  list.Pairwise (fun p q => p.1.id ≠ q.1.id) ∧ ∀ p ∈ list, p.1.id < uuidBound

theorem Distinct.rest {p : CreditRequest × String} {list : List (CreditRequest × String)} (h : Distinct (p :: list)) :
    Distinct list := ⟨h.1.of_cons, fun q hq => h.2 q (List.mem_cons_of_mem p hq)⟩

theorem Distinct.not_reminder {p : CreditRequest × String} {list : List (CreditRequest × String)} (h : Distinct (p :: list))
    {q : CreditRequest × String} (hq : q ∈ list) (reviewerId : Uuid) (stored : Bool) :
    ¬ Reminder reviewerId q.1.id (reminder reviewer p.1 p.2 now stored) := by
  intro hreminder
  have hid := requestId_of_reminder (h.2 q (List.mem_cons_of_mem p hq)) (h.2 p List.mem_cons_self) hreminder
  exact (List.pairwise_cons.mp h.1).1 q hq hid.symm

theorem Distinct.remindersOf {p : CreditRequest × String} {list : List (CreditRequest × String)}
    {added : List Delivery} (h : Distinct (p :: list))
    (hadded : ∀ d ∈ added, ∃ reviewer stored, d = reminder reviewer p.1 p.2 now stored) {q : CreditRequest × String}
    (hq : q ∈ list) :
    StaleReminders.remindersOf (sent ++ added) now q.1.id = StaleReminders.remindersOf sent now q.1.id := by
  have hnone : StaleReminders.remindersOf added now q.1.id = [] := by
    apply List.eq_nil_iff_forall_not_mem.mpr
    intro d hd
    obtain ⟨hd, -, -, reviewerId, hreminder⟩ := mem_remindersOf.mp hd
    obtain ⟨reviewer, stored, rfl⟩ := hadded d hd
    exact h.not_reminder hq reviewerId stored hreminder
  rw [StaleReminders.remindersOf, List.filter_append, ← StaleReminders.remindersOf, ← StaleReminders.remindersOf, hnone,
    List.append_nil]

theorem remindEach_ok {list : List (CreditRequest × String)} (hdistinct : Distinct list)
    (h : ∀ p ∈ list, Fit site now sent p) :
    ∃ reminded added, remindEach site now list sent = (.ok reminded, sent ++ added) ∧
      ∀ p ∈ list, remindersOf sent now p.1.id = [] → ∀ reviewer ∈ reviewers site, Receives reviewer.preferences →
        ∃ stored, reminder reviewer p.1 p.2 now stored ∈ added := by
  induction list generalizing sent with
  | nil => exact ⟨0, [], by rw [remindEach, List.append_nil], List.forall_mem_nil _⟩
  | cons p list ih =>
      obtain ⟨⟨hfew, hreadable⟩, hlist⟩ := List.forall_mem_cons.mp h
      rcases empty_or_single hfew with hnone | ⟨row, hone⟩
      · obtain ⟨first, hnotify, hfirst, hall⟩ := @notify_ok now p.1 p.2 _
          (hreadable hnone) sent
        have hsame : ∀ q ∈ list, remindersOf (sent ++ first) now q.1.id = remindersOf sent now q.1.id :=
          fun q hq => hdistinct.remindersOf hfirst hq
        obtain ⟨reminded, added, hrun, hreminded⟩ := @ih (sent ++ first) hdistinct.rest fun q hq => by
          rw [Fit, hsame q hq]
          exact hlist q hq
        refine ⟨reminded + 1, first ++ added, ?_, ?_⟩
        · rw [remindEach, hnone]
          simp only [oneOrNone, scalarOneOrNone, hnotify, hrun, List.append_assoc]
          rfl
        · rw [List.forall_mem_cons]
          constructor
          · intro _ reviewer hr hreceives
            obtain ⟨stored, hmem⟩ := hall reviewer hr hreceives
            exact ⟨stored, List.mem_append_left _ hmem⟩
          · intro q hq hunreminded reviewer hr hreceives
            obtain ⟨stored, hmem⟩ := hreminded q hq ((hsame q hq).trans hunreminded) reviewer hr hreceives
            exact ⟨stored, List.mem_append_right _ hmem⟩
      · obtain ⟨reminded, added, hrun, hreminded⟩ := ih hdistinct.rest hlist
        refine ⟨reminded, added, ?_, ?_⟩
        · rw [remindEach, hone]
          exact hrun
        · rw [List.forall_mem_cons]
          refine ⟨fun hnone => ?_, hreminded⟩
          rw [hone] at hnone
          cases hnone

theorem remindEach_raises {list : List (CreditRequest × String)} (hdistinct : Distinct list)
    (h : ∃ p ∈ list, ¬ Fit site now sent p) :
    ∃ raise sent', remindEach site now list sent = (.error raise, sent') := by
  induction list generalizing sent with
  | nil =>
      obtain ⟨p, hp, -⟩ := h
      cases hp
  | cons p list ih =>
      rw [remindEach]
      by_cases hfew : (remindersOf sent now p.1.id).length ≤ 1
      · rcases empty_or_single hfew with hnone | ⟨row, hone⟩
        · rw [hnone]
          by_cases hreadable : ∀ reviewer ∈ reviewers site, Readable reviewer.preferences "credit_request"
          · obtain ⟨first, hnotify, hfirst, -⟩ := @notify_ok now p.1 p.2 _ hreadable sent
            obtain ⟨q, hq, hunfit⟩ := h
            rcases List.mem_cons.mp hq with rfl | hq
            · exact absurd ⟨hfew, fun _ => hreadable⟩ hunfit
            · obtain ⟨raise, sent', hrun⟩ := @ih (sent ++ first) hdistinct.rest ⟨q, hq, by
                rw [Fit, hdistinct.remindersOf hfirst hq]
                exact hunfit⟩
              simp only [oneOrNone, scalarOneOrNone, hnotify, hrun]
              exact ⟨raise, sent', rfl⟩
          · push Not at hreadable
            obtain ⟨raise, sent', hnotify⟩ := @notify_raises now p.1 p.2 _ hreadable sent
            simp only [oneOrNone, scalarOneOrNone, hnotify]
            exact ⟨raise, sent', rfl⟩
        · rw [hone]
          obtain ⟨q, hq, hunfit⟩ := h
          rcases List.mem_cons.mp hq with rfl | hq
          · refine absurd ⟨hfew, fun hnone => ?_⟩ hunfit
            rw [hone] at hnone
            cases hnone
          · exact ih hdistinct.rest ⟨q, hq, hunfit⟩
      · rw [oneOrNone_many (not_le.mp hfew)]
        exact ⟨_, _, rfl⟩

theorem fst_of_mem_staleRequests {p : CreditRequest × String} (h : p ∈ staleRequests site now) :
    p.1 ∈ site.requests.rows := by
  obtain ⟨request, hrequest, hp⟩ := List.mem_filterMap.mp h
  split at hp
  · obtain ⟨user, -, rfl⟩ := Option.map_eq_some_iff.mp hp
    exact hrequest
  · cases hp

theorem distinct_staleRequests (site : Site) (now : Instant) : Distinct (staleRequests site now) := by
  refine ⟨?_, fun p hp => site.ids p.1 (fst_of_mem_staleRequests hp)⟩
  have hrequests : site.requests.rows.Pairwise fun a b => a.id ≠ b.id := List.pairwise_map.mp site.requests.nodup
  apply hrequests.filterMap
  intro a b hab p hp q hq
  split at hp
  · obtain ⟨user, -, rfl⟩ := Option.map_eq_some_iff.mp hp
    split at hq
    · obtain ⟨user', -, rfl⟩ := Option.map_eq_some_iff.mp hq
      exact hab
    · cases hq
  · cases hp

theorem dayApart_notified {before : Nat} (hs : DayApart before sent) (hnodup : (us.map User.id).Nodup)
    (hfresh : ∀ u ∈ us, Receives u.preferences →
      ∀ d ∈ sent, Reminder u.id request.id d → d.notification.createdAt + day < now) :
    DayApart before (notifyReviewers now request username us sent).2 := by
  induction us generalizing sent with
  | nil => exact hs
  | cons u us ih =>
      obtain ⟨hother, hus⟩ := List.nodup_cons.mp hnodup
      obtain ⟨hu, hrest⟩ := List.forall_mem_cons.mp hfresh
      rw [notifyReviewers]
      by_cases hreadable : Readable u.preferences "credit_request"
      · obtain ⟨created, hcreated, ⟨hreceives, stored, hdeliveries⟩ | ⟨-, hdeliveries⟩⟩ := @create_deliveries now _
          (draftFor u request username now) rfl hreadable
        · simp only [hcreated, hdeliveries]
          apply ih _ hus
          · intro v hv hreceives' d hmem hreminder
            rcases List.mem_append.mp hmem with hmem | hmem
            · exact hrest v hv hreceives' d hmem hreminder
            · rw [List.mem_singleton.mp hmem] at hreminder
              have hsame : u.id = v.id := hreminder.1
              exact absurd (List.mem_map_of_mem hv) (hsame ▸ hother)
          · intro reviewerId requestId
            apply (hs reviewerId requestId).concat
            rintro ⟨huser, -, -, htext⟩ d hmem ⟨huser', htype, hkey, htext'⟩
            exact hu hreceives d hmem ⟨huser'.trans huser.symm, htype, hkey, htext'.trans htext.symm⟩
        · simp only [hcreated, hdeliveries, List.append_nil]
          exact ih hs hus hrest
      · rw [@create_unreadable _ _ (draftFor u request username now) hreadable]
        exact hs

theorem nodup_reviewers (site : Site) : ((reviewers site).map User.id).Nodup :=
  site.users.nodup.sublist (List.filter_sublist.map User.id)

theorem dayApart_reminded {before : Nat} {list : List (CreditRequest × String)} (hdistinct : Distinct list)
    (hs : DayApart before sent) (hfit : ∀ p ∈ list, Fit site now sent p) (hfresh : ∀ p ∈ list, Fresh site now sent p) :
    DayApart before (remindEach site now list sent).2 := by
  induction list generalizing sent with
  | nil => exact hs
  | cons p list ih =>
      obtain ⟨⟨hfew, hreadable⟩, hfits⟩ := List.forall_mem_cons.mp hfit
      obtain ⟨hp, hfreshes⟩ := List.forall_mem_cons.mp hfresh
      rw [remindEach]
      rcases empty_or_single hfew with hnone | ⟨row, hone⟩
      · obtain ⟨first, hnotify, hfirst, -⟩ := @notify_ok now p.1 p.2 _ (hreadable hnone) sent
        have hnotified := @dayApart_notified _ p.1 p.2 _ _ _ hs (nodup_reviewers site) (hp hnone)
        rw [hnotify] at hnotified
        simp only [hnone, oneOrNone, scalarOneOrNone, hnotify]
        have hsame : ∀ q ∈ list, remindersOf (sent ++ first) now q.1.id = remindersOf sent now q.1.id :=
          fun q hq => hdistinct.remindersOf hfirst hq
        refine ih hdistinct.rest hnotified (fun q hq => ?_) fun q hq => ?_
        · rw [Fit, hsame q hq]
          exact hfits q hq
        · intro hnone reviewer hr hreceives d hd hreminder
          rcases List.mem_append.mp hd with hd | hd
          · exact hfreshes q hq ((hsame q hq).symm.trans hnone) reviewer hr hreceives d hd hreminder
          · obtain ⟨reviewer', stored, rfl⟩ := hfirst d hd
            exact absurd hreminder (hdistinct.not_reminder hq reviewer.id stored)
      · rw [hone]
        exact ih hdistinct.rest hs hfits hfreshes

theorem prefix_notified : sent <+: (notifyReviewers now request username us sent).2 := by
  induction us generalizing sent with
  | nil => exact List.prefix_rfl
  | cons u us ih =>
      rw [notifyReviewers]
      split
      · exact List.prefix_rfl
      · exact (List.prefix_append _ _).trans ih

theorem prefix_reminded {list : List (CreditRequest × String)} : sent <+: (remindEach site now list sent).2 := by
  induction list generalizing sent with
  | nil => exact List.prefix_rfl
  | cons p list ih =>
      rw [remindEach]
      have hnotified := @prefix_notified now p.1 p.2 (reviewers site) sent
      split
      · exact List.prefix_rfl
      · exact ih
      · split
        next hnotify =>
          rw [hnotify] at hnotified
          exact hnotified
        next hnotify =>
          rw [hnotify] at hnotified
          exact hnotified.trans ih

theorem DayApart.delete {before : Nat} (h : DayApart before sent) (i : Nat) :
    DayApart before (sent.modify i Delivery.delete) := by
  intro reviewerId requestId
  apply (h reviewerId requestId).modify
  · exact fun _ => rfl
  · exact fun _ hreminder => hreminder

theorem sent_run {s t : Store} (h : step s (.run site now) = some t) :
    t.sent = (remindStaleRequests site now s.sent).2 := by
  rw [step] at h
  split at h
  · cases h
    rfl
  · cases h

theorem single_of_reminds {before : Nat} {s : Store} (hbefore : before ≤ s.sent.length)
    (hapart : DayApart before (remindStaleRequests site now s.sent).2) (h : Reminds s (.run site now)) :
    Single s (.run site now) := by
  have hdistinct := distinct_staleRequests site now
  obtain ⟨reminded, added, hrun, -⟩ := h
  have hfit : ∀ p ∈ staleRequests site now, Fit site now s.sent p := by
    by_contra hunfit
    push Not at hunfit
    obtain ⟨raise, sent', hraise⟩ := remindEach_raises hdistinct hunfit
    rw [remindStaleRequests, hraise] at hrun
    cases hrun
  refine fun p hp => ⟨hfit p hp, fun hnone reviewer hr hreceives d hd hreminder => ?_⟩
  obtain ⟨reminded', added', hrun', hreminded⟩ := remindEach_ok hdistinct hfit
  obtain rfl := List.append_cancel_left (Prod.mk.inj (hrun.symm.trans hrun')).2
  obtain ⟨stored, hnew⟩ := hreminded p hp hnone reviewer hr hreceives
  rw [hrun] at hapart
  obtain ⟨i, hi⟩ := List.getElem?_of_mem hd
  obtain ⟨j, hj⟩ := List.getElem?_of_mem hnew
  have hlt := (List.getElem?_eq_some_iff.mp hi).1
  refine hapart reviewer.id p.1.id i (s.sent.length + j) d (reminder reviewer p.1 p.2 now stored) (by omega) (by omega)
    ?_ ?_ hreminder (reminder_reminder _ _ _ _ _)
  · rw [List.getElem?_append_left hlt, hi]
  · rw [List.getElem?_append_right (by omega), Nat.add_sub_cancel_left, hj]

theorem reminds_of_single {s : Store} (h : Single s (.run site now)) : Reminds s (.run site now) := by
  obtain ⟨reminded, added, hrun, hreminded⟩ := remindEach_ok (distinct_staleRequests site now) fun p hp => (h p hp).1
  refine ⟨reminded, added, hrun, ?_⟩
  intro p hp hunreminded reviewer hr hreceives
  have hnone : remindersOf s.sent now p.1.id = [] := by
    apply List.eq_nil_iff_forall_not_mem.mpr
    intro d hd
    obtain ⟨hd, -, hrecent, reviewerId, hreminder⟩ := mem_remindersOf.mp hd
    exact absurd (sub_le_iff_le_add.mp hrecent) (not_le.mpr (hunreminded d hd reviewerId hreminder))
  obtain ⟨stored, hmem⟩ := hreminded p hp hnone reviewer hr hreceives
  exact ⟨_, hmem, reminder_reminder reviewer p.1 p.2 now stored, rfl⟩

/-- A run keeps reminders a day apart and does what is promised if and only if
every stale request is fit for it and fresh. -/
theorem reminds_iff {before : Nat} {s t : Store} {e : Event} (hbefore : before ≤ s.sent.length)
    (hs : DayApart before s.sent) (hstep : step s e = some t) : DayApart before t.sent ∧ Reminds s e ↔ Single s e := by
  cases e with
  | run site now =>
      rw [sent_run hstep]
      constructor
      · rintro ⟨hapart, h⟩
        exact single_of_reminds hbefore hapart h
      · intro h
        have hapart := dayApart_reminded (distinct_staleRequests site now) hs (fun p hp => (h p hp).1) fun p hp => (h p hp).2
        exact ⟨hapart, reminds_of_single h⟩
  | delete i =>
      cases hstep
      exact ⟨fun _ => trivial, fun _ => ⟨hs.delete i, trivial⟩⟩

theorem length_step {s t : Store} {e : Event} (h : step s e = some t) : s.sent.length ≤ t.sent.length := by
  cases e with
  | run site now =>
      rw [step] at h
      split at h
      · cases h
        exact prefix_reminded.length_le
      · cases h
  | delete i =>
      cases h
      exact (List.length_modify _ _ _).ge

end Run

/-- Reminders stay a day apart, and the runs all end well and remind of what they should, just
where the throttle of each run finds no two rows of the day and passes over no reminder without one. -/
theorem reminded_daily_iff (history : List Delivery) (clock : Instant) (events : List Event) :
    (AllStates step (fun s => DayApart history.length s.sent) ⟨history, clock⟩ events ∧
        AllSteps step Reminds ⟨history, clock⟩ events) ↔
      AllSteps step Single ⟨history, clock⟩ events := by
  have hstart : DayApart history.length history := fun _ _ => spaced_start _ _ _ history
  have hgrows (s : Store) (e : Event) (t : Store) (hs : history.length ≤ s.sent.length) (_ : True) (h : step s e = some t) :
      history.length ≤ t.sent.length := hs.trans (length_step h)
  exact allStates_and_allSteps_iff hgrows (fun s e t hs hP h => reminds_iff hs hP h) le_rfl hstart
    (.of_forall fun _ _ _ => trivial)

def asked : CreditRequest := ⟨5, 7, 40, "", .topUp, .pending, none, none, none, none, 0, none⟩

def bo : User := ⟨8, "bo", .admin, true, .null⟩

def cy : User := ⟨9, "cy", .admin, true, .null⟩

def people : List User := [⟨7, "ada", .user, true, .null⟩, bo, cy]

theorem nodup_people : (people.map User.id).Nodup := by decide

theorem nodup_asked : ([asked].map CreditRequest.id).Nodup := List.nodup_singleton _

theorem asked_lt : ∀ request ∈ [asked], request.id < uuidBound := by decide

def twoReviewers : Site := ⟨⟨people, nodup_people⟩, ⟨[asked], nodup_asked⟩, defaultRolePermissions, asked_lt⟩

/-- A second run within the day comes upon the reminders of the first. -/
theorem second_run_fails :
    ¬ ∀ (history : List Delivery) (clock : Instant) (events : List Event),
      AllStates step (fun s => DayApart history.length s.sent) ⟨history, clock⟩ events ∧
        AllSteps step Reminds ⟨history, clock⟩ events := by
  intro h
  obtain ⟨hapart, hreminds⟩ := h [] 0 [.run twoReviewers (2 * day), .run twoReviewers (2 * day + hour)]
  obtain ⟨-, hrest⟩ := hreminds _ rfl
  have hsingle := (reminds_iff (Nat.zero_le _) (hapart.2 _ rfl).head rfl).mp ⟨((hapart.2 _ rfl).2 _ rfl).head, (hrest _ rfl).1⟩
  have hstale : (asked, "ada") ∈ staleRequests twoReviewers (2 * day + hour) := List.mem_singleton.mpr rfl
  have hfew : (remindersOf (remindStaleRequests twoReviewers (2 * day) []).2 (2 * day + hour) asked.id).length ≤ 1 :=
    (hsingle (asked, "ada") hstale).1.1
  exact absurd hfew (by decide +kernel)

end NukeLab.StaleReminders
