import NukeLab.MaintenanceWindows

namespace NukeLab.MaintenanceNotices

open Records Tables Machine MaintenanceWindows

structure Recipient where
  id : Uuid
  isActive : Bool

/-- The users at an evaluation, and which of the sends to them succeed. -/
structure Audience where
  users : List Recipient
  succeeds : Window → Int → Uuid → Bool

/-- What a user is told: the window's times and texts, and how long before the start. -/
structure Notice where
  userId : Uuid
  windowId : Uuid
  offset : Int
  title : String
  startAt : Instant
  endAt : Instant
  message : String
  offsetDesc : String

def plural (n : Int) (unit : String) : String := toString n ++ " " ++ unit ++ if n ≠ 1 then "s" else ""

def formatOffset (minutes : Int) : String :=
  if minutes < 60 then plural minutes "minute"
  else if minutes < 1440 then plural (minutes / 60) "hour"
  else plural (minutes / 1440) "day"

/-- A send that fails leaves the other users theirs. -/
def advanceNotices (audience : Audience) (pending : Window × Int) : List Notice :=
  ((audience.users.filter Recipient.isActive).filter fun u => audience.succeeds pending.1 pending.2 u.id).map fun u => {
    userId := u.id
    windowId := pending.1.id
    offset := pending.2
    title := "Scheduled Maintenance: " ++ pending.1.title
    startAt := pending.1.startAt
    endAt := pending.1.endAt
    message := pending.1.message
    offsetDesc := formatOffset pending.2
  }

def Audience.reached (audience : Audience) (w : Window) (offset : Int) : Nat := (advanceNotices audience (w, offset)).length

def notices (now : Instant) (audience : Audience) (site : Site) : List Notice :=
  (getPendingNotifications now site).flatMap (advanceNotices audience)

inductive Event
  | create (id : Uuid) (title message : String) (startAt endAt : Instant) (isActive : Bool)
      (notifyOffsets : Option (List Int))
  | update (id : Uuid) (changes : Changes)
  | delete (id : Uuid)
  | evaluate (audience : Audience)

def Event.plain : Event → MaintenanceWindows.Event
  | .create id title message startAt endAt isActive notifyOffsets =>
    .create id title message startAt endAt isActive notifyOffsets
  | .update id changes => .update id changes
  | .delete id => .delete id
  | .evaluate audience => .evaluate audience.reached

def Event.Edits (id : Uuid) : Event → Prop
  | .create other .. => other = id
  | .update other _ => other = id
  | .delete other => other = id
  | .evaluate _ => False

def step : Step Moment (Instant × Event) := fun m (now, event) => MaintenanceWindows.step m (now, event.plain)

def sent (m : Moment) : Instant × Event → List Notice
  | (now, .evaluate audience) => notices now audience m.site
  | _ => []

def Sends (id : Uuid) (offset : Int) (m : Moment) (e : Instant × Event) : Prop :=
  ∃ notice ∈ sent m e, notice.windowId = id ∧ notice.offset = offset

instance (id : Uuid) (offset : Int) (m : Moment) (e : Instant × Event) : Decidable (Sends id offset m e) :=
  inferInstanceAs (Decidable (∃ notice ∈ sent m e, notice.windowId = id ∧ notice.offset = offset))

/-- In how many evaluations of a run users are sent the notice of a window and an offset. -/
def sendings (id : Uuid) (offset : Int) : Moment → List (Instant × Event) → Nat
  | _, [] => 0
  | m, e :: events =>
    match step m e with
    | none => 0
    | some m' => (if Sends id offset m e then 1 else 0) + sendings id offset m' events

/-- Each notice is of an active window that has not begun, and comes within the hour
after its time; and those of one window are of one offset. -/
structure Timely (m : Moment) (e : Instant × Event) : Prop where
  window : ∀ notice ∈ sent m e, ∃ w ∈ m.site.windows.rows, w.id = notice.windowId ∧ w.isActive ∧ e.1 < w.startAt ∧
    w.startAt - notice.offset * minute ≤ e.1 ∧ e.1 ≤ w.startAt - notice.offset * minute + hour
  single : ∀ notice ∈ sent m e, ∀ other ∈ sent m e, notice.windowId = other.windowId → notice.offset = other.offset

def Notified (id : Uuid) (offset : Int) (site : Site) : Prop :=
  ∀ w ∈ site.windows.rows, w.id = id → offset ∈ w.notifiedOffsets

variable {m m' : Moment} {e : Instant × Event} {now : Instant} {site : Site} {audience : Audience} {id : Uuid} {offset : Int}

section Pending

theorem mem_pending {pending : Window × Int} (h : pending ∈ getPendingNotifications now site) :
    pending.1 ∈ site.windows.rows ∧ pending.1.isActive ∧ pending.1.startAt > now ∧ pending.1.pendingOffset now = some pending.2 := by
  obtain ⟨w, hw, hmap⟩ := List.mem_filterMap.mp h
  obtain ⟨o, ho, rfl⟩ := Option.map_eq_some_iff.mp hmap
  obtain ⟨hrow, htest⟩ := List.mem_filter.mp hw
  have htest := of_decide_eq_true htest
  exact ⟨hrow, htest.1, htest.2.1, ho⟩

theorem pendingOffset_spec {w : Window} (h : w.pendingOffset now = some offset) :
    offset ∉ w.notifiedOffsets ∧ ¬ w.startAt - offset * minute < now - hour ∧ w.startAt ≤ now + offset * minute := by
  rw [Window.pendingOffset] at h
  simpa using List.find?_some h

theorem mem_notices {notice : Notice} (h : notice ∈ notices now audience site) :
    ∃ w, (w, notice.offset) ∈ getPendingNotifications now site ∧ w.id = notice.windowId := by
  obtain ⟨pending, hpending, hnotice⟩ := List.mem_flatMap.mp h
  obtain ⟨u, -, rfl⟩ := List.mem_map.mp hnotice
  exact ⟨pending.1, hpending, rfl⟩

theorem timely (m : Moment) (e : Instant × Event) : Timely m e := by
  obtain ⟨now, event⟩ := e
  cases event with
  | evaluate audience =>
      constructor
      · intro notice hnotice
        obtain ⟨w, hpending, hid⟩ := mem_notices hnotice
        obtain ⟨hrow, hactive, hbefore, hoffset⟩ := mem_pending hpending
        obtain ⟨-, hlate, hearly⟩ := pendingOffset_spec hoffset
        refine ⟨w, hrow, hid, hactive, hbefore, ?_, ?_⟩
        · exact sub_le_iff_le_add.mpr hearly
        · exact sub_le_iff_le_add.mp (not_lt.mp hlate)
      · intro notice hnotice other hother hsame
        obtain ⟨w, hpending, hid⟩ := mem_notices hnotice
        obtain ⟨v, hpending', hid'⟩ := mem_notices hother
        obtain ⟨hrow, -, -, hoffset⟩ := mem_pending hpending
        obtain ⟨hrow', -, -, hoffset'⟩ := mem_pending hpending'
        obtain rfl : w = v := Table.eq_of_mem_of_key hrow hrow' (hid.trans (hsame.trans hid'.symm))
        exact Option.some.inj (hoffset.symm.trans hoffset')
  | create | update | delete =>
      constructor
      · exact fun _ hnotice => absurd hnotice List.not_mem_nil
      · exact fun _ hnotice => absurd hnotice List.not_mem_nil

end Pending

section Marking

variable {s t : Site}

def Grows (s t : Site) : Prop :=
  ∀ w ∈ t.windows.rows, ∃ v ∈ s.windows.rows, v.id = w.id ∧ v.notifiedOffsets ⊆ w.notifiedOffsets

theorem Grows.refl (s : Site) : Grows s s := fun w hw => ⟨w, hw, rfl, List.Subset.refl _⟩

theorem Grows.trans {u : Site} (hst : Grows s t) (htu : Grows t u) : Grows s u := by
  intro w hw
  obtain ⟨v, hv, hid, hsub⟩ := htu w hw
  obtain ⟨x, hx, hid', hsub'⟩ := hst v hv
  exact ⟨x, hx, hid'.trans hid, List.Subset.trans hsub' hsub⟩

theorem Notified.grows (h : Notified id offset s) (hgrows : Grows s t) : Notified id offset t := by
  intro w hw hid
  obtain ⟨v, hv, hsame, hsub⟩ := hgrows w hw
  exact hsub (h v hv (hsame.trans hid))

theorem grows_modify {f : Window → Window} (hf : ∀ w, (f w).id = w.id) (k : Uuid)
    (hwindows : t.windows = s.windows.modify k f hf) (hsub : ∀ w, w.notifiedOffsets ⊆ (f w).notifiedOffsets) : Grows s t := by
  intro w hw
  rw [hwindows] at hw
  obtain ⟨v, hv, rfl⟩ := Table.mem_modify.mp hw
  refine ⟨v, hv, ?_⟩
  split
  · exact ⟨(hf v).symm, hsub v⟩
  · exact ⟨rfl, List.Subset.refl _⟩

def marked (now : Instant) (offset : Int) (w : Window) : Window :=
  { w with
    notifiedOffsets := if offset ∈ w.notifiedOffsets then w.notifiedOffsets else w.notifiedOffsets ++ [offset]
    notifiedAt := some now }

theorem id_marked (now : Instant) (offset : Int) (w : Window) : (marked now offset w).id = w.id := rfl

theorem windows_sent (now : Instant) (s : Site) (pending : Window × Int) :
    (sendAdvanceNotifications now s pending).windows =
      s.windows.modify pending.1.id (marked now pending.2) (id_marked now pending.2) := rfl

theorem grows_sent (now : Instant) (s : Site) (pending : Window × Int) : Grows s (sendAdvanceNotifications now s pending) := by
  apply grows_modify (id_marked now pending.2) pending.1.id (windows_sent now s pending)
  intro w o ho
  simp only [marked]
  split
  · exact ho
  · exact List.mem_append_left _ ho

theorem grows_foldl {α : Type} {f : Site → α → Site} (hf : ∀ s a, Grows s (f s a)) (as : List α) (s : Site) :
    Grows s (as.foldl f s) := by
  induction as generalizing s with
  | nil => exact Grows.refl s
  | cons a as ih => exact (hf s a).trans (ih (f s a))

theorem notified_sent (now : Instant) (pending : Window × Int) (s : Site) :
    Notified pending.1.id pending.2 (sendAdvanceNotifications now s pending) := by
  intro w hw hid
  rw [windows_sent, Table.mem_modify] at hw
  obtain ⟨v, hv, rfl⟩ := hw
  by_cases hv' : v.id = pending.1.id
  · rw [if_pos hv']
    simp only [marked]
    split
    · assumption
    · exact List.mem_append_right _ List.mem_cons_self
  · rw [if_neg hv'] at hid
    exact absurd hid hv'

theorem notified_foldl {pending : List (Window × Int)} {p : Window × Int} (hp : p ∈ pending) (s : Site) :
    Notified p.1.id p.2 (pending.foldl (sendAdvanceNotifications now) s) := by
  induction pending generalizing s with
  | nil => cases hp
  | cons q pending ih =>
      rw [List.foldl_cons]
      rcases List.mem_cons.mp hp with rfl | hp
      · exact (notified_sent now p s).grows (grows_foldl (grows_sent now) pending _)
      · exact ih hp _

theorem grows_switched (now : Instant) (s : Site) :
    Grows s ((getWindowsToDisable now ((getWindowsToEnable now s).foldl enableMaintenance s)).foldl disableMaintenance
      ((getWindowsToEnable now s).foldl enableMaintenance s)) := by
  have henable : ∀ s w, Grows s (enableMaintenance s w) := fun _ w => grows_modify Window.id_switchedOn w.id rfl fun _ =>
    List.Subset.refl _
  have hdisable : ∀ s w, Grows s (disableMaintenance s w) := fun _ w => grows_modify Window.id_switchedOff w.id rfl fun _ =>
    List.Subset.refl _
  exact (grows_foldl henable _ s).trans (grows_foldl hdisable _ _)

theorem grows_evaluate (now : Instant) (reached : Window → Int → Nat) (s : Site) : Grows s (evaluateWindows now reached s).2 :=
  (grows_foldl (grows_sent now) _ s).trans (grows_switched now _)

theorem notified_evaluate {p : Window × Int} (hp : p ∈ getPendingNotifications now s) (reached : Window → Int → Nat) :
    Notified p.1.id p.2 (evaluateWindows now reached s).2 :=
  (notified_foldl hp s).grows (grows_switched now _)

theorem notified_handle (event : Event) (h : Notified id offset s) (hedit : ¬ event.Edits id) :
    Notified id offset (handle now s event.plain) := by
  cases event with
  | create other title message startAt endAt isActive notifyOffsets =>
      simp only [Event.plain, handle, createWindow]
      split
      · exact h
      · split
        · exact h
        · intro w hw hid
          rcases Table.mem_or_eq_of_mem_insert hw with hw | rfl
          · exact h w hw hid
          · exact absurd hid hedit
  | update other changes =>
      simp only [Event.plain, handle, updateWindow]
      split
      · exact h
      · split
        · exact h
        · intro w hw hid
          have hrows : w ∈ s.windows.rows.map fun v => if v.id = other then v.change now changes else v := hw
          obtain ⟨v, hv, rfl⟩ := List.mem_map.mp hrows
          by_cases hother : v.id = other
          · rw [if_pos hother] at hid
            exact absurd (hother.symm.trans hid) hedit
          · rw [if_neg hother] at hid ⊢
            exact h v hv hid
  | delete other =>
      simp only [Event.plain, handle, deleteWindow]
      split
      · exact h
      · exact fun w hw hid => h w (List.mem_filter.mp hw).1 hid
  | evaluate audience => exact h.grows (grows_evaluate now audience.reached s)

end Marking

section Runs

theorem step_eq (h : step m e = some m') : m'.site = handle e.1 m.site e.2.plain := by
  obtain ⟨now, event⟩ := e
  rw [step, MaintenanceWindows.step] at h
  split at h
  · cases h
  · exact (congrArg Moment.site (Option.some.inj h)).symm

theorem not_sends (h : Notified id offset m.site) : ¬ Sends id offset m e := by
  rintro ⟨notice, hnotice, rfl, rfl⟩
  obtain ⟨now, event⟩ := e
  cases event with
  | evaluate audience =>
      obtain ⟨w, hpending, hid⟩ := mem_notices hnotice
      obtain ⟨hrow, -, -, hoffset⟩ := mem_pending hpending
      exact (pendingOffset_spec hoffset).1 (h w hrow hid)
  | create | update | delete => exact absurd hnotice List.not_mem_nil

theorem notified_of_sends (hsends : Sends id offset m e) (h : step m e = some m') : Notified id offset m'.site := by
  obtain ⟨notice, hnotice, rfl, rfl⟩ := hsends
  rw [step_eq h]
  obtain ⟨now, event⟩ := e
  cases event with
  | evaluate audience =>
      obtain ⟨w, hpending, hid⟩ := mem_notices hnotice
      exact hid ▸ notified_evaluate hpending audience.reached
  | create | update | delete => exact absurd hnotice List.not_mem_nil

theorem sendings_notified {events : List (Instant × Event)} (hedits : ∀ e ∈ events, ¬ e.2.Edits id)
    (h : Notified id offset m.site) : sendings id offset m events = 0 := by
  induction events generalizing m with
  | nil => rfl
  | cons e events ih =>
      obtain ⟨hedit, hedits⟩ := List.forall_mem_cons.mp hedits
      rw [sendings]
      cases hstep : step m e with
      | none => rfl
      | some m' =>
          have hnext : Notified id offset m'.site := step_eq hstep ▸ notified_handle e.2 h hedit
          simp only [if_neg (not_sends h), ih hedits hnext]

theorem sendings_le_one {events : List (Instant × Event)} (hedits : ∀ e ∈ events, ¬ e.2.Edits id) :
    sendings id offset m events ≤ 1 := by
  induction events generalizing m with
  | nil => exact Nat.zero_le 1
  | cons e events ih =>
      obtain ⟨hedit, hedits⟩ := List.forall_mem_cons.mp hedits
      rw [sendings]
      cases hstep : step m e with
      | none => exact Nat.zero_le 1
      | some m' =>
          dsimp only
          split
          · rename_i hsends
            rw [sendings_notified hedits (notified_of_sends hsends hstep)]
          · rw [Nat.zero_add]
            exact ih hedits

end Runs

/-- From any moment on, every event sends its notices in time, and between edits of a
window the notice of an offset is sent in at most one evaluation. -/
theorem maintenance_notices (m : Moment) (events : List (Instant × Event)) :
    AllSteps step Timely m events ∧
      ∀ id offset, (∀ e ∈ events, ¬ e.2.Edits id) → sendings id offset m events ≤ 1 := by
  refine ⟨?_, fun id offset hedits => sendings_le_one hedits⟩
  exact allSteps_of_allStates (fun m e _ _ _ => timely m e) (allStates_of_steps (fun _ _ _ _ _ => trivial) trivial)

end NukeLab.MaintenanceNotices
