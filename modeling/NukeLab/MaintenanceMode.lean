import NukeLab.MaintenanceWindows

namespace NukeLab.MaintenanceMode

open Records Tables Machine MaintenanceWindows

def schedules (site : Site) : List Schedule := site.windows.rows.map Window.toSchedule

def covers (now : Instant) (s : Schedule) : Bool := s.isActive && s.startAt ≤ now && now < s.endAt

def answers (now : Instant) (s : Schedule) : Bool :=
  s.isActive && (s.autoEnabled && !s.autoDisabled || !s.autoEnabled && s.startAt ≤ now)

def AnotherAnswers (now : Instant) (id : Uuid) (site : Site) : Prop :=
  ∃ v ∈ site.windows.rows, v.id ≠ id ∧ answers now v.toSchedule

/-- An update that is accepted leaves a window to answer for a mode that is on,
and where it is off brings back none that has been switched on for. -/
def Fits (now : Instant) (changes : Changes) (site : Site) (w : Window) : Prop :=
  changes.startAt.getD w.startAt < changes.endAt.getD w.endAt →
    if site.maintenanceMode then
      answers now w.toSchedule →
        changes.isActive ≠ some false ∧ (changes.resets → changes.startAt.getD w.startAt ≤ now) ∨
          AnotherAnswers now w.id site
    else
      changes.isActive = some true → w.autoEnabled → ¬ w.autoDisabled → now < w.endAt → changes.resets

/-- No window runs out while another lasts, and no change takes away what the
mode is on for. -/
def Careful (m : Moment) : Instant × Event → Prop
  | (_, .create ..) => True
  | (now, .update id changes) => ∀ w ∈ m.site.windows.rows, w.id = id → Fits now changes m.site w
  | (now, .delete id) =>
    m.site.maintenanceMode → ∀ w ∈ m.site.windows.rows, w.id = id → answers now w.toSchedule → AnotherAnswers now id m.site
  | (now, .evaluate _) =>
    (∃ s ∈ schedules m.site, s.isActive ∧ s.endAt ≤ now ∧ ¬ s.autoDisabled) → ¬ ∃ s ∈ schedules m.site, covers now s

def FollowsWindows (now : Instant) (site : Site) : Prop :=
  site.maintenanceMode ↔ ∃ s ∈ schedules site, covers now s

def EvaluatesRight (m : Moment) : Instant × Event → Prop
  | (now, .evaluate reached) => FollowsWindows now (evaluateWindows now reached m.site).2
  | _ => True

variable {now clock : Instant} {site : Site} {m : Moment} {s : Schedule} {changes : Changes} {id : Uuid}

theorem schedules_notified (now : Instant) (pending : List (Window × Int)) (site : Site) :
    schedules (pending.foldl (sendAdvanceNotifications now) site) = schedules site ∧
      (pending.foldl (sendAdvanceNotifications now) site).maintenanceMode = site.maintenanceMode := by
  induction pending generalizing site with
  | nil => exact ⟨rfl, rfl⟩
  | cons p pending ih =>
      obtain ⟨hschedules, hmode⟩ := ih (sendAdvanceNotifications now site p)
      rw [List.foldl_cons, hschedules, hmode]
      refine ⟨?_, rfl⟩
      rw [schedules, schedules, sendAdvanceNotifications, Table.modify, List.map_map]
      refine List.map_congr_left fun w _ => ?_
      rw [Function.comp_apply]
      split <;> rfl

def enabled (now : Instant) (s : Schedule) : Schedule := if s.toEnable now then { s with autoEnabled := true } else s

def disabled (now : Instant) (s : Schedule) : Schedule := if s.toDisable now then { s with autoDisabled := true } else s

theorem foldl_enableMaintenance (ws : List Window) (site : Site) :
    (ws.foldl enableMaintenance site).windows =
        (ws.map Window.id).foldl (fun t k => t.modify k Window.switchedOn Window.id_switchedOn) site.windows ∧
      ((ws.foldl enableMaintenance site).maintenanceMode ↔ ws ≠ [] ∨ site.maintenanceMode) := by
  induction ws generalizing site with
  | nil => exact ⟨rfl, (or_iff_right fun h => h rfl).symm⟩
  | cons w ws ih =>
      obtain ⟨hwindows, hmode⟩ := ih (enableMaintenance site w)
      rw [List.foldl_cons, hwindows, hmode]
      exact ⟨rfl, iff_of_true (Or.inr rfl) (Or.inl (List.cons_ne_nil w ws))⟩

theorem foldl_disableMaintenance (ws : List Window) (site : Site) :
    (ws.foldl disableMaintenance site).windows =
        (ws.map Window.id).foldl (fun t k => t.modify k Window.switchedOff Window.id_switchedOff) site.windows ∧
      ((ws.foldl disableMaintenance site).maintenanceMode ↔ ws = [] ∧ site.maintenanceMode) := by
  induction ws generalizing site with
  | nil => exact ⟨rfl, (and_iff_right rfl).symm⟩
  | cons w ws ih =>
      obtain ⟨hwindows, hmode⟩ := ih (disableMaintenance site w)
      rw [List.foldl_cons, hwindows, hmode]
      exact ⟨rfl, iff_of_false (fun h => Bool.false_ne_true h.2) fun h => List.cons_ne_nil w ws h.1⟩

theorem schedules_enabled (now : Instant) (site : Site) :
    schedules ((getWindowsToEnable now site).foldl enableMaintenance site) = (schedules site).map (enabled now) := by
  rw [schedules, (foldl_enableMaintenance _ site).1, Table.rows_foldl_modify Window.id_switchedOn fun _ => rfl,
    schedules, List.map_map, List.map_map]
  refine List.map_congr_left fun w hw => ?_
  rw [Function.comp_apply, Function.comp_apply, enabled, getWindowsToEnable]
  simp only [Table.mem_keys_filter hw]
  split <;> rfl

theorem schedules_disabled (now : Instant) (site : Site) :
    schedules ((getWindowsToDisable now site).foldl disableMaintenance site) = (schedules site).map (disabled now) := by
  rw [schedules, (foldl_disableMaintenance _ site).1, Table.rows_foldl_modify Window.id_switchedOff fun _ => rfl,
    schedules, List.map_map, List.map_map]
  refine List.map_congr_left fun w hw => ?_
  rw [Function.comp_apply, Function.comp_apply, disabled, getWindowsToDisable]
  simp only [Table.mem_keys_filter hw]
  split <;> rfl

theorem getWindowsToEnable_eq_nil : getWindowsToEnable now site = [] ↔ ∀ s ∈ schedules site, ¬ s.toEnable now := by
  rw [getWindowsToEnable, List.filter_eq_nil_iff, schedules, List.forall_mem_map]

theorem getWindowsToDisable_eq_nil : getWindowsToDisable now site = [] ↔ ∀ s ∈ schedules site, ¬ s.toDisable now := by
  rw [getWindowsToDisable, List.filter_eq_nil_iff, schedules, List.forall_mem_map]

theorem schedules_evaluated (now : Instant) (reached : Window → Int → Nat) (site : Site) :
    schedules (evaluateWindows now reached site).2 = (schedules site).map fun s => disabled now (enabled now s) := by
  unfold evaluateWindows
  dsimp only
  rw [schedules_disabled, schedules_enabled, (schedules_notified now _ site).1, List.map_map]
  rfl

/-- Every window that starts turns the mode on, and after that every window that ends turns it off. -/
theorem mode_evaluated (now : Instant) (reached : Window → Int → Nat) (site : Site) :
    (evaluateWindows now reached site).2.maintenanceMode ↔
      (∀ s ∈ schedules site, ¬ (enabled now s).toDisable now) ∧
        (site.maintenanceMode ∨ ∃ s ∈ schedules site, s.toEnable now) := by
  obtain ⟨hschedules, hmode⟩ := schedules_notified now (getPendingNotifications now site) site
  unfold evaluateWindows
  dsimp only
  rw [(foldl_disableMaintenance _ _).2, (foldl_enableMaintenance _ _).2, getWindowsToDisable_eq_nil, schedules_enabled,
    List.forall_mem_map, hschedules, hmode, ne_eq, getWindowsToEnable_eq_nil, hschedules]
  push Not
  exact and_congr_right fun _ => or_comm

structure Timely (clock : Instant) (s : Schedule) : Prop where
  ordered : s.startAt < s.endAt
  started : s.autoEnabled → s.startAt ≤ clock
  ended : s.autoDisabled → s.autoEnabled ∧ s.endAt ≤ clock

theorem Timely.mono (h : Timely clock s) (hnow : clock ≤ now) : Timely now s :=
  ⟨h.ordered, fun hs => (h.started hs).trans hnow, fun hs => ⟨(h.ended hs).1, (h.ended hs).2.trans hnow⟩⟩

structure Sound (m : Moment) : Prop where
  timely : ∀ s ∈ schedules m.site, Timely m.clock s
  inForce : ∀ s ∈ schedules m.site, s.isActive → s.autoEnabled → ¬ s.autoDisabled → m.clock < s.endAt →
    m.site.maintenanceMode
  answered : m.site.maintenanceMode → ∃ s ∈ schedules m.site, answers m.clock s

theorem covers_iff : covers now s ↔ s.isActive ∧ s.startAt ≤ now ∧ now < s.endAt := by
  rw [covers, Bool.and_eq_true, Bool.and_eq_true, decide_eq_true_iff, decide_eq_true_iff, and_assoc]

theorem answers_iff :
    answers now s ↔ s.isActive ∧ (s.autoEnabled ∧ ¬ s.autoDisabled ∨ ¬ s.autoEnabled ∧ s.startAt ≤ now) := by
  simp [answers]

theorem toEnable_iff : s.toEnable now ↔ s.isActive ∧ s.startAt ≤ now ∧ ¬ s.autoEnabled := by
  simp [Schedule.toEnable, and_assoc]

theorem toDisable_iff : s.toDisable now ↔ s.isActive ∧ s.endAt ≤ now ∧ s.autoEnabled ∧ ¬ s.autoDisabled := by
  simp [Schedule.toDisable, and_assoc]

structure Outcome (now : Instant) (s t : Schedule) : Prop where
  startAt : t.startAt = s.startAt
  endAt : t.endAt = s.endAt
  isActive : t.isActive = s.isActive
  autoEnabled : t.autoEnabled ↔ s.autoEnabled ∨ s.isActive ∧ s.startAt ≤ now
  autoDisabled : t.autoDisabled ↔ s.autoDisabled ∨ s.isActive ∧ s.endAt ≤ now ∧ t.autoEnabled

theorem autoEnabled_enabled : (enabled now s).autoEnabled ↔ s.autoEnabled ∨ s.isActive ∧ s.startAt ≤ now := by
  unfold enabled
  split
  · rename_i h
    obtain ⟨hactive, hstart, -⟩ := toEnable_iff.mp h
    exact iff_of_true rfl (Or.inr ⟨hactive, hstart⟩)
  · rename_i h
    refine ⟨Or.inl, fun hs => ?_⟩
    rcases hs with hs | ⟨hactive, hstart⟩
    · exact hs
    · by_contra hoff
      exact h (toEnable_iff.mpr ⟨hactive, hstart, hoff⟩)

theorem autoDisabled_disabled :
    (disabled now s).autoDisabled ↔ s.autoDisabled ∨ s.isActive ∧ s.endAt ≤ now ∧ s.autoEnabled := by
  unfold disabled
  split
  · rename_i h
    obtain ⟨hactive, hend, hon, -⟩ := toDisable_iff.mp h
    exact iff_of_true rfl (Or.inr ⟨hactive, hend, hon⟩)
  · rename_i h
    refine ⟨Or.inl, fun hs => ?_⟩
    rcases hs with hs | ⟨hactive, hend, hon⟩
    · exact hs
    · by_contra hoff
      exact h (toDisable_iff.mpr ⟨hactive, hend, hon, hoff⟩)

theorem enabled_same (now : Instant) (s : Schedule) :
    (enabled now s).startAt = s.startAt ∧ (enabled now s).endAt = s.endAt ∧ (enabled now s).isActive = s.isActive ∧
      (enabled now s).autoDisabled = s.autoDisabled := by
  unfold enabled
  split <;> exact ⟨rfl, rfl, rfl, rfl⟩

theorem outcome_evaluated (now : Instant) (s : Schedule) : Outcome now s (disabled now (enabled now s)) := by
  have hdisabled : ∀ t, (disabled now t).startAt = t.startAt ∧ (disabled now t).endAt = t.endAt ∧
      (disabled now t).isActive = t.isActive ∧ (disabled now t).autoEnabled = t.autoEnabled := by
    intro t
    unfold disabled
    split <;> exact ⟨rfl, rfl, rfl, rfl⟩
  obtain ⟨hstart, hend, hactive, hoff⟩ := enabled_same now s
  obtain ⟨hstart', hend', hactive', hon'⟩ := hdisabled (enabled now s)
  constructor
  · rw [hstart', hstart]
  · rw [hend', hend]
  · rw [hactive', hactive]
  · rw [hon']
    exact autoEnabled_enabled
  · rw [autoDisabled_disabled, hon', hactive, hend, hoff]

theorem Outcome.covers {t : Schedule} (h : Outcome now s t) : covers now t = covers now s := by
  rw [MaintenanceMode.covers, MaintenanceMode.covers, h.startAt, h.endAt, h.isActive]

theorem Timely.evaluated {t : Schedule} (hs : Timely now s) (h : Outcome now s t) : Timely now t where
  ordered := by
    rw [h.startAt, h.endAt]
    exact hs.ordered
  started hon := by
    rw [h.startAt]
    exact (h.autoEnabled.mp hon).elim hs.started fun hdue => hdue.2
  ended hoff := by
    rw [h.endAt]
    rcases h.autoDisabled.mp hoff with hwas | ⟨-, hend, hon⟩
    · exact ⟨h.autoEnabled.mpr (Or.inl (hs.ended hwas).1), (hs.ended hwas).2⟩
    · exact ⟨hon, hend⟩

theorem toDisable_enabled (h : Timely now s) :
    (enabled now s).toDisable now ↔ s.isActive ∧ s.endAt ≤ now ∧ ¬ s.autoDisabled := by
  obtain ⟨-, hend, hactive, hoff⟩ := enabled_same now s
  rw [toDisable_iff, hend, hactive, hoff, autoEnabled_enabled]
  constructor
  · exact fun ⟨hactive, hend, _, hoff⟩ => ⟨hactive, hend, hoff⟩
  · exact fun ⟨hactive, hend, hoff⟩ => ⟨hactive, hend, Or.inr ⟨hactive, (h.ordered.trans_le hend).le⟩, hoff⟩

/-- An evaluation gets the mode right where no window that has just ended is
followed or overlapped by another. -/
theorem follows_evaluated (h : Sound m) (hnow : m.clock ≤ now) (reached : Window → Int → Nat)
    (hcareful : Careful m (now, .evaluate reached)) : FollowsWindows now (evaluateWindows now reached m.site).2 := by
  have htimely : ∀ s ∈ schedules m.site, Timely now s := fun s hs => (h.timely s hs).mono hnow
  have hcovered : (∃ s ∈ schedules (evaluateWindows now reached m.site).2, covers now s) ↔
      ∃ s ∈ schedules m.site, covers now s := by
    rw [schedules_evaluated]
    simp only [List.mem_map, exists_exists_and_eq_and, (outcome_evaluated now _).covers]
  rw [FollowsWindows, mode_evaluated, hcovered]
  by_cases hended : ∃ s ∈ schedules m.site, s.isActive ∧ s.endAt ≤ now ∧ ¬ s.autoDisabled
  · refine iff_of_false (fun hon => ?_) (hcareful hended)
    obtain ⟨s, hs, hends⟩ := hended
    exact hon.1 s hs ((toDisable_enabled (htimely s hs)).mpr hends)
  · have hlasts : ∀ s ∈ schedules m.site, s.isActive → ¬ s.autoDisabled → now < s.endAt := fun s hs hactive hoff =>
      not_le.mp fun hend => hended ⟨s, hs, hactive, hend, hoff⟩
    constructor
    · rintro ⟨-, hon | ⟨s, hs, hdue⟩⟩
      · obtain ⟨s, hs, hanswers⟩ := h.answered hon
        obtain ⟨hactive, ⟨hon, hoff⟩ | ⟨hnot, hstart⟩⟩ := answers_iff.mp hanswers
        · exact ⟨s, hs, covers_iff.mpr ⟨hactive, (htimely s hs).started hon, hlasts s hs hactive hoff⟩⟩
        · have hoff : ¬ s.autoDisabled := fun hoff => hnot ((htimely s hs).ended hoff).1
          exact ⟨s, hs, covers_iff.mpr ⟨hactive, hstart.trans hnow, hlasts s hs hactive hoff⟩⟩
      · obtain ⟨hactive, hstart, hnot⟩ := toEnable_iff.mp hdue
        have hoff : ¬ s.autoDisabled := fun hoff => hnot ((htimely s hs).ended hoff).1
        exact ⟨s, hs, covers_iff.mpr ⟨hactive, hstart, hlasts s hs hactive hoff⟩⟩
    · rintro ⟨s, hs, hcovers⟩
      obtain ⟨hactive, hstart, hend⟩ := covers_iff.mp hcovers
      refine ⟨fun t ht hdisable => ?_, ?_⟩
      · exact hended ⟨t, ht, (toDisable_enabled (htimely t ht)).mp hdisable⟩
      · by_cases hon : s.autoEnabled
        · have hoff : ¬ s.autoDisabled := fun hoff => absurd ((htimely s hs).ended hoff).2 (not_le.mpr hend)
          exact Or.inl (h.inForce s hs hactive hon hoff (hnow.trans_lt hend))
        · exact Or.inr ⟨s, hs, toEnable_iff.mpr ⟨hactive, hstart, hon⟩⟩

theorem Sound.evaluate (h : Sound m) (hnow : m.clock ≤ now) (reached : Window → Int → Nat)
    (hcareful : Careful m (now, .evaluate reached)) : Sound ⟨(evaluateWindows now reached m.site).2, now⟩ := by
  have hfollows := follows_evaluated h hnow reached hcareful
  have hevaluated : ∀ t ∈ schedules (evaluateWindows now reached m.site).2,
      ∃ s ∈ schedules m.site, Outcome now s t := by
    intro t ht
    rw [schedules_evaluated] at ht
    obtain ⟨s, hs, rfl⟩ := List.mem_map.mp ht
    exact ⟨s, hs, outcome_evaluated now s⟩
  have htimely : ∀ t ∈ schedules (evaluateWindows now reached m.site).2, Timely now t := by
    intro t ht
    obtain ⟨s, hs, houtcome⟩ := hevaluated t ht
    exact ((h.timely s hs).mono hnow).evaluated houtcome
  refine ⟨htimely, fun t ht hactive hon _ hend => ?_, fun hmode => ?_⟩
  · exact hfollows.mpr ⟨t, ht, covers_iff.mpr ⟨hactive, (htimely t ht).started hon, hend⟩⟩
  · obtain ⟨t, ht, hcovers⟩ := hfollows.mp hmode
    obtain ⟨s, -, houtcome⟩ := hevaluated t ht
    obtain ⟨hactive, hstart, hend⟩ := covers_iff.mp hcovers
    have hon : t.autoEnabled := by
      rw [houtcome.isActive] at hactive
      rw [houtcome.startAt] at hstart
      exact houtcome.autoEnabled.mpr (Or.inr ⟨hactive, hstart⟩)
    have hoff : ¬ t.autoDisabled := fun hoff => absurd ((htimely t ht).ended hoff).2 (not_le.mpr hend)
    exact ⟨t, ht, answers_iff.mpr ⟨hactive, Or.inl ⟨hon, hoff⟩⟩⟩

theorem answers_mono (h : answers clock s) (hnow : clock ≤ now) : answers now s := by
  rw [answers_iff] at h ⊢
  exact ⟨h.1, h.2.imp_right fun hdue => ⟨hdue.1, hdue.2.trans hnow⟩⟩

theorem Sound.wait (h : Sound m) (hnow : m.clock ≤ now) : Sound ⟨m.site, now⟩ where
  timely s hs := (h.timely s hs).mono hnow
  inForce s hs hactive hon hoff hend := h.inForce s hs hactive hon hoff (hnow.trans_lt hend)
  answered hmode := by
    obtain ⟨s, hs, hanswers⟩ := h.answered hmode
    exact ⟨s, hs, answers_mono hanswers hnow⟩

theorem Sound.create (h : Sound ⟨site, now⟩) (id : Uuid) (title message : String) (startAt endAt : Instant)
    (isActive : Bool) (notifyOffsets : Option (List Int)) :
    Sound ⟨(createWindow now id title message startAt endAt isActive notifyOffsets site).2, now⟩ := by
  unfold createWindow
  split
  · exact h
  · rename_i hordered
    split
    · exact h
    · dsimp only
      constructor
      · intro s hs
        obtain ⟨w, hw, rfl⟩ := List.mem_map.mp hs
        rcases Table.mem_or_eq_of_mem_insert hw with hw | rfl
        · exact h.timely w.toSchedule (List.mem_map_of_mem hw)
        · exact ⟨not_le.mp hordered, fun hon => absurd hon Bool.false_ne_true, fun hoff => absurd hoff Bool.false_ne_true⟩
      · intro s hs hactive hon hoff hend
        obtain ⟨w, hw, rfl⟩ := List.mem_map.mp hs
        rcases Table.mem_or_eq_of_mem_insert hw with hw | rfl
        · exact h.inForce w.toSchedule (List.mem_map_of_mem hw) hactive hon hoff hend
        · exact absurd hon Bool.false_ne_true
      · intro hmode
        obtain ⟨s, hs, hanswers⟩ := h.answered hmode
        obtain ⟨w, hw, rfl⟩ := List.mem_map.mp hs
        exact ⟨w.toSchedule, List.mem_map_of_mem (Table.mem_insert_of_mem hw), hanswers⟩

theorem change_of_resets (h : changes.resets) (s : Schedule) :
    (s.change changes).autoEnabled = false ∧ (s.change changes).autoDisabled = false := by
  simp [Schedule.change, h]

theorem change_of_not_resets (h : ¬ changes.resets) (s : Schedule) :
    s.change changes = { s with isActive := changes.isActive.getD s.isActive } := by
  have hnone : changes.startAt = none ∧ changes.endAt = none := by
    simp only [Changes.resets, Bool.or_eq_true, not_or, Option.not_isSome_iff_eq_none] at h
    exact h.1
  simp [Schedule.change, h, hnone]

theorem Timely.change (h : Timely now s) (hordered : changes.startAt.getD s.startAt < changes.endAt.getD s.endAt) :
    Timely now (s.change changes) := by
  by_cases hresets : changes.resets
  · obtain ⟨hon, hoff⟩ := change_of_resets hresets s
    exact ⟨hordered, fun h => absurd (hon.symm.trans h) Bool.false_ne_true,
      fun h => absurd (hoff.symm.trans h) Bool.false_ne_true⟩
  · rw [change_of_not_resets hresets]
    exact ⟨h.ordered, h.started, h.ended⟩

theorem answers_change (h : answers now s) (hactive : changes.isActive ≠ some false)
    (hstart : changes.resets → changes.startAt.getD s.startAt ≤ now) : answers now (s.change changes) := by
  have hstill : (s.change changes).isActive := by
    rw [Schedule.change]
    cases hgiven : changes.isActive with
    | none => exact (answers_iff.mp h).1
    | some active =>
        cases active with
        | false => exact absurd hgiven hactive
        | true => rfl
  rw [answers_iff]
  refine ⟨hstill, ?_⟩
  by_cases hresets : changes.resets
  · obtain ⟨hon, -⟩ := change_of_resets hresets s
    exact Or.inr ⟨fun h => absurd (hon.symm.trans h) Bool.false_ne_true, hstart hresets⟩
  · rw [change_of_not_resets hresets]
    exact (answers_iff.mp h).2

theorem updateWindow_spec (now : Instant) (id : Uuid) (changes : Changes) (site : Site) :
    (updateWindow now id changes site).2 = site ∨
      ∃ found ∈ site.windows.rows, found.id = id ∧
        changes.startAt.getD found.startAt < changes.endAt.getD found.endAt ∧
        (updateWindow now id changes site).2.maintenanceMode = site.maintenanceMode ∧
        ∀ s, s ∈ schedules (updateWindow now id changes site).2 ↔
          s = found.toSchedule.change changes ∨ ∃ w ∈ site.windows.rows, w.id ≠ id ∧ w.toSchedule = s := by
  unfold updateWindow
  cases hfind : site.windows.find id with
  | none => exact Or.inl rfl
  | some found =>
      dsimp only
      split
      · exact Or.inl rfl
      · rename_i hordered
        have hfound := Table.mem_of_find hfind
        have hid := Table.key_of_find hfind
        refine Or.inr ⟨found, hfound, hid, not_le.mp hordered, rfl, fun s => ?_⟩
        have hmem : ∀ w', w' ∈ (site.windows.modify id (Window.change now changes) fun _ => rfl).rows ↔
            ∃ w ∈ site.windows.rows, (if w.id = id then w.change now changes else w) = w' := fun _ => Table.mem_modify
        rw [schedules, List.mem_map]
        constructor
        · rintro ⟨w', hw', rfl⟩
          obtain ⟨w, hw, rfl⟩ := (hmem w').mp hw'
          by_cases hw' : w.id = id
          · rw [if_pos hw', Table.eq_of_mem_of_key hw hfound (hw'.trans hid.symm)]
            exact Or.inl rfl
          · rw [if_neg hw']
            exact Or.inr ⟨w, hw, hw', rfl⟩
        · rintro (rfl | ⟨w, hw, hne, rfl⟩)
          · exact ⟨found.change now changes, (hmem _).mpr ⟨found, hfound, if_pos hid⟩, rfl⟩
          · exact ⟨w, (hmem _).mpr ⟨w, hw, if_neg hne⟩, rfl⟩

theorem Sound.update (h : Sound ⟨site, now⟩) (id : Uuid) (changes : Changes)
    (hcareful : Careful ⟨site, now⟩ (now, .update id changes)) : Sound ⟨(updateWindow now id changes site).2, now⟩ := by
  rcases updateWindow_spec now id changes site with hsame | ⟨found, hfound, hid, hordered, hmode, hschedules⟩
  · rw [hsame]
    exact h
  · have hfits := hcareful found hfound hid hordered
    have hold : found.toSchedule ∈ schedules site := List.mem_map_of_mem hfound
    constructor
    · intro s hs
      rcases (hschedules s).mp hs with rfl | ⟨w, hw, -, rfl⟩
      · exact (h.timely _ hold).change hordered
      · exact h.timely _ (List.mem_map_of_mem hw)
    · intro s hs hactive hon hoff hend
      dsimp only
      rw [hmode]
      rcases (hschedules s).mp hs with rfl | ⟨w, hw, -, rfl⟩
      · by_contra hnot
        have hkeeps : ¬ changes.resets := fun hresets =>
          absurd ((change_of_resets hresets _).1.symm.trans hon) Bool.false_ne_true
        rw [change_of_not_resets hkeeps] at hactive hon hoff hend
        dsimp only at hfits
        rw [if_neg hnot] at hfits
        cases hgiven : changes.isActive with
        | none =>
            rw [hgiven] at hactive
            exact hnot (h.inForce _ hold hactive hon hoff hend)
        | some active =>
            rw [hgiven] at hactive hfits
            exact hkeeps (hfits (congrArg some hactive) hon hoff hend)
      · exact h.inForce _ (List.mem_map_of_mem hw) hactive hon hoff hend
    · intro hon
      dsimp only at hon
      rw [hmode] at hon
      obtain ⟨s, hs, hanswers⟩ := h.answered hon
      obtain ⟨w, hw, rfl⟩ := List.mem_map.mp hs
      by_cases hw' : w.id = id
      · obtain rfl := Table.eq_of_mem_of_key hw hfound (hw'.trans hid.symm)
        dsimp only at hfits
        rw [if_pos hon] at hfits
        rcases hfits hanswers with ⟨hactive, hstart⟩ | ⟨v, hv, hne, hanswers⟩
        · exact ⟨_, (hschedules _).mpr (Or.inl rfl), answers_change hanswers hactive hstart⟩
        · exact ⟨_, (hschedules _).mpr (Or.inr ⟨v, hv, hid ▸ hne, rfl⟩), hanswers⟩
      · exact ⟨_, (hschedules _).mpr (Or.inr ⟨w, hw, hw', rfl⟩), hanswers⟩

theorem deleteWindow_spec (id : Uuid) (site : Site) :
    (deleteWindow id site).2.maintenanceMode = site.maintenanceMode ∧
      ∀ s, s ∈ schedules (deleteWindow id site).2 ↔ ∃ w ∈ site.windows.rows, w.id ≠ id ∧ w.toSchedule = s := by
  unfold deleteWindow
  cases hfind : site.windows.find id with
  | none =>
      refine ⟨rfl, fun s => ?_⟩
      rw [schedules, List.mem_map]
      exact exists_congr fun w => and_congr_right fun hw =>
        (and_iff_right (Table.find_eq_none_iff.mp hfind w hw)).symm
  | some found =>
      refine ⟨rfl, fun s => ?_⟩
      rw [schedules, List.mem_map]
      refine exists_congr fun w => ?_
      rw [Table.erase, Table.filter, List.mem_filter, decide_eq_true_iff, and_assoc]

theorem Sound.delete (h : Sound ⟨site, now⟩) (id : Uuid) (hcareful : Careful ⟨site, now⟩ (now, .delete id)) :
    Sound ⟨(deleteWindow id site).2, now⟩ := by
  obtain ⟨hmode, hschedules⟩ := deleteWindow_spec id site
  constructor
  · intro s hs
    obtain ⟨w, hw, -, rfl⟩ := (hschedules s).mp hs
    exact h.timely _ (List.mem_map_of_mem hw)
  · intro s hs hactive hon hoff hend
    obtain ⟨w, hw, -, rfl⟩ := (hschedules s).mp hs
    dsimp only
    rw [hmode]
    exact h.inForce _ (List.mem_map_of_mem hw) hactive hon hoff hend
  · intro hon
    dsimp only at hon
    rw [hmode] at hon
    obtain ⟨s, hs, hanswers⟩ := h.answered hon
    obtain ⟨w, hw, rfl⟩ := List.mem_map.mp hs
    by_cases hid : w.id = id
    · obtain ⟨v, hv, hne, hanswers⟩ := hcareful hon w hw hid hanswers
      exact ⟨_, (hschedules _).mpr ⟨v, hv, hne, rfl⟩, hanswers⟩
    · exact ⟨_, (hschedules _).mpr ⟨w, hw, hid, rfl⟩, hanswers⟩

theorem Sound.step {i : Instant × Event} {t : Moment} (h : Sound m) (hcareful : Careful m i) (hstep : step m i = some t) :
    Sound t ∧ EvaluatesRight m i := by
  obtain ⟨now, event⟩ := i
  unfold MaintenanceWindows.step at hstep
  dsimp only at hstep
  split at hstep
  · exact nomatch hstep
  · rename_i hnow
    cases hstep
    have hnow := not_lt.mp hnow
    cases event with
    | create id title message startAt endAt isActive notifyOffsets =>
        exact ⟨(h.wait hnow).create id title message startAt endAt isActive notifyOffsets, trivial⟩
    | update id changes => exact ⟨(h.wait hnow).update id changes hcareful, trivial⟩
    | delete id => exact ⟨(h.wait hnow).delete id hcareful, trivial⟩
    | evaluate reached => exact ⟨h.evaluate hnow reached hcareful, follows_evaluated h hnow reached hcareful⟩

theorem sound_start : Sound start where
  timely _ hs := absurd hs List.not_mem_nil
  inForce _ hs := absurd hs List.not_mem_nil
  answered hmode := absurd hmode Bool.false_ne_true

/-- In a run of careful events every evaluation gets the mode right. -/
theorem mode_follows_windows (run : List (Instant × Event)) (hcareful : AllSteps step Careful start run) :
    AllSteps step EvaluatesRight start run := by
  have hsound : AllStates step Sound start run :=
    allStates_of_allSteps (fun _ _ _ hs hc hstep => (hs.step hc hstep).1) sound_start hcareful
  exact AllSteps.of_states (fun _ _ _ hs hc hstep => (hs.step hc hstep).2) hsound hcareful

section Lab

instance (now : Instant) (site : Site) : Decidable (FollowsWindows now site) := by
  unfold FollowsWindows
  infer_instance

instance (now : Instant) (id : Uuid) (site : Site) : Decidable (AnotherAnswers now id site) := by
  unfold AnotherAnswers
  infer_instance

instance (now : Instant) (changes : Changes) (site : Site) (w : Window) : Decidable (Fits now changes site w) := by
  unfold Fits
  infer_instance

instance (m : Moment) : (i : Instant × Event) → Decidable (Careful m i)
  | (_, .create ..) => isTrue trivial
  | (now, .update id changes) =>
    inferInstanceAs (Decidable (∀ w ∈ m.site.windows.rows, w.id = id → Fits now changes m.site w))
  | (now, .delete id) =>
    inferInstanceAs (Decidable (m.site.maintenanceMode → ∀ w ∈ m.site.windows.rows, w.id = id →
      answers now w.toSchedule → AnotherAnswers now id m.site))
  | (now, .evaluate _) =>
    inferInstanceAs (Decidable ((∃ s ∈ schedules m.site, s.isActive ∧ s.endAt ≤ now ∧ ¬ s.autoDisabled) →
      ¬ ∃ s ∈ schedules m.site, covers now s))

instance (m : Moment) : (i : Instant × Event) → Decidable (EvaluatesRight m i)
  | (_, .create ..) => isTrue trivial
  | (_, .update ..) => isTrue trivial
  | (_, .delete _) => isTrue trivial
  | (now, .evaluate reached) => inferInstanceAs (Decidable (FollowsWindows now (evaluateWindows now reached m.site).2))

def window (id : Uuid) (startAt endAt : Instant) : Event :=
  .create id "Upgrade" "" (startAt * minute) (endAt * minute) true none

def evaluate : Event := .evaluate fun _ _ => 0

/-- A window that is prolonged while it lasts, and another one long after it. -/
def prolonged : List (Instant × Event) :=
  [(0, window 1 10 20), (10 * minute, evaluate), (15 * minute, .update 1 ⟨none, none, none, some (40 * minute), none, none⟩),
    (20 * minute, evaluate), (30 * minute, window 2 50 60), (40 * minute, evaluate), (41 * minute, .delete 1),
    (50 * minute, evaluate), (60 * minute, evaluate)]

theorem mode_follows_prolonged : AllSteps step EvaluatesRight start prolonged :=
  mode_follows_windows prolonged (by decide +kernel)

/-- The first of two windows that overlap turns the mode off under the second. -/
theorem overlapping_windows : ¬ ∀ run : List (Instant × Event), AllSteps step EvaluatesRight start run := by
  intro h
  have hrun := h [(0, window 1 0 10), (0, window 2 5 20), (5 * minute, evaluate), (10 * minute, evaluate)]
  revert hrun
  decide +kernel

end Lab

end NukeLab.MaintenanceMode
