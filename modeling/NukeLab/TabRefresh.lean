import NukeLab.RefreshRotation

namespace NukeLab.TabRefresh

open Machine Program Records State Tables Sessions SessionRevocation
open RefreshRotation hiding Event Phase Linear turn begin advance started contains_of_mem

/-- What goes on at the server besides: no row is revived. -/
structure Change where
  apply : Store → Store
  later : ∀ s, Later s (apply s)

/-- A tab's only refresh at a time: the token that it read, when it read it, and
how far the server's call is. -/
inductive Phase
  | idle
  | refreshing (id : Uuid) (since : Nat) (call : RefreshRotation.Phase)

inductive Outcome
  | unknown
  | failed
  | succeeded (id : Uuid) (time : Nat)
  deriving DecidableEq

structure Tab where
  phase : Phase
  latest : Outcome

/-- The tabs of one browser with the server and the storage that they share. A
pair of tokens is known by its refresh token, which is written and cleared along
with the access token. -/
structure System where
  store : Store
  storage : Option Uuid
  tabs : Nat → Tab
  clock : Nat

inductive Event
  /-- `refreshAccessToken` is called: a refresh that is running is joined -/
  | start (i : Nat)
  /-- the server's call goes one step further -/
  | serve (i : Nat) (order : List RefreshToken)
  /-- the request or the response is lost, or refused on its way -/
  | fail (i : Nat)
  /-- the tab acts on the response -/
  | finish (i : Nat)
  | reload (i : Nat)
  | elsewhere (change : Change)

namespace System

def phase (s : System) (i : Nat) : Phase := (s.tabs i).phase

def latest (s : System) (i : Nat) : Outcome := (s.tabs i).latest

def setTab (s : System) (i : Nat) (phase : Phase) (latest : Outcome) : System :=
  { s with tabs := Function.update s.tabs i ⟨phase, latest⟩ }

end System

def failedToFetch : Raise := .exception "TypeError: Failed to fetch"

variable (settings : AuthSettings)

def turn (s : System) : Event → Option System
  | .start i =>
    match s.phase i, s.storage with
    | .idle, none => some (s.setTab i .idle .failed)
    | .idle, some id => some (s.setTab i (.refreshing id s.clock (.refresh id)) (s.latest i))
    | .refreshing _ _ _, _ => some s
  | .serve i order =>
    match s.phase i with
    | .idle => none
    | .refreshing id since call =>
      (RefreshRotation.turn settings s.store order call).map fun (store, call) =>
        { s.setTab i (.refreshing id since call) (s.latest i) with store }
  | .fail i =>
    match s.phase i with
    | .idle => none
    | .refreshing id since _ => some (s.setTab i (.refreshing id since (.refused failedToFetch)) (s.latest i))
  | .finish i =>
    match s.phase i with
    | .refreshing _ _ (.succeeded _ id) => some { s.setTab i .idle (.succeeded id s.clock) with storage := some id }
    | .refreshing _ _ (.refused _) => some { s.setTab i .idle .failed with storage := none }
    | _ => none
  | .reload i => some (s.setTab i .idle (s.latest i))
  | .elsewhere change => some { s with store := change.apply s.store }

def System.tick (s : System) : System := { s with clock := s.clock + 1 }

def step : Step System Event := fun s event => (turn settings s event).map System.tick

/-- The server, and the token that the tabs find when they are opened. -/
structure Opening where
  store : Store
  storage : Option Uuid
  issued : ∀ id ∈ storage, id < store.realm.nextId

def Opening.system (opening : Opening) : System := ⟨opening.store, opening.storage, fun _ => ⟨.idle, .unknown⟩, 0⟩

def Valid (s : Store) (id : Uuid) : Prop := (verifyRefreshToken s.realm id).isSome = true

/-- While a tab's latest refresh stands as a success, and its pair is still valid, that pair is stored. -/
def Stored (s : System) : Prop :=
  ∀ i id time, s.latest i = .succeeded id time → Valid s.store id → s.storage = some id

def Fails (s : System) (event : Event) (i : Nat) (sent : Uuid) (since : Nat) : Prop :=
  event = .finish i ∧ ∃ raise, s.phase i = .refreshing sent since (.refused raise)

/-- A tab that fails does not throw away a pair that another obtained after it had read its own token. -/
def Spares (s : System) (event : Event) : Prop :=
  ∀ i sent since, Fails s event i sent since →
    ∀ j id time, j ≠ i → s.latest j = .succeeded id time → s.storage = some id → time ≤ since

def Unraced (s : System) : Event → Prop
  | .serve i _ =>
    match s.phase i with
    | .idle => True
    | .refreshing _ _ call => RefreshRotation.Unraced s.store call
  | _ => True

instance (s : System) (event : Event) : Decidable (Unraced s event) :=
  match event with
  | .serve i _ => by
    rw [Unraced]
    cases s.phase i <;> infer_instance
  | .start _ | .fail _ | .finish _ | .reload _ | .elsewhere _ => .isTrue trivial

/-- A tab fails only when no pair of another tab is stored, or one that it has sent
itself and that the server no longer takes. -/
def FailsAlone (s : System) (event : Event) : Prop :=
  ∀ i sent since, Fails s event i sent since →
    ∀ j id time, j ≠ i → s.latest j = .succeeded id time → s.storage = some id → id = sent ∧ ¬ Valid s.store id

section Tokens

variable {s u : Store} {id : Uuid}

theorem valid_iff : Valid s id ↔ ∃ rt ∈ s.rows, rt.id = id ∧ Live s.realm rt := by
  rw [Valid, verifyRefreshToken, List.find?_isSome]
  simp only [decide_eq_true_eq]
  rfl

def Unspent (s : Store) (id : Uuid) : Prop := ∃ row ∈ s.rows, row.id = id ∧ row.revokedAt = none

theorem Valid.unspent (h : Valid s id) : Unspent s id := by
  obtain ⟨rt, hrt, hid, hlive⟩ := valid_iff.mp h
  exact ⟨rt, hrt, hid, hlive.1⟩

theorem unspent_of_later (h : Later s u) (hid : id < s.realm.nextId) (hu : Unspent u id) : Unspent s id := by
  obtain ⟨row, hrow, rfl, hlive⟩ := hu
  rcases h.rows row hrow with ⟨old, hold, -, -, hsame⟩ | ⟨hnew, -⟩
  · obtain rfl := hsame hlive
    exact ⟨old, hold, rfl, hlive⟩
  · exact absurd hid (not_lt.mpr hnew)

theorem valid_of_later (h : Later s u) (hid : id < s.realm.nextId) (hu : Valid u id) : Valid s id := by
  obtain ⟨rt, hrt, rfl, hlive⟩ := valid_iff.mp hu
  rcases h.rows rt hrt with ⟨old, hold, -, -, hsame⟩ | ⟨hnew, -⟩
  · obtain rfl := hsame hlive.1
    exact valid_iff.mpr ⟨old, hold, rfl, hlive.1, lt_of_le_of_lt h.now hlive.2⟩
  · exact absurd hid (not_lt.mpr hnew)

theorem spent_of_issue {settings : AuthSettings} {issue : Issue} (hissue : issue.presentedId = some id)
    (hid : id < s.realm.nextId) : ¬ Unspent (s.issue settings issue) id := by
  rintro ⟨row, hrow, hrowId, hlive⟩
  rcases List.mem_append.mp hrow with hold | hnew
  · obtain ⟨-, -, -, -, hrevoked, -⟩ := mem_revokeRows_iff hold
    refine hrevoked (List.mem_append_left _ ?_) hlive
    rw [hissue, hrowId]
    exact List.mem_singleton.mpr rfl
  · obtain rfl := List.mem_singleton.mp hnew
    exact absurd hid (not_lt.mpr (hrowId ▸ Nat.le_succ _))

end Tokens

def received : RefreshRotation.Phase → Option Uuid
  | .succeeded _ id => some id
  | _ => none

def Serves (id : Uuid) : RefreshRotation.Phase → Prop
  | .refresh id' => id' = id
  | .verified rt => rt.id = id
  | .issuing issue => issue.presentedId = some id
  | .succeeded _ _ | .refused _ => True
  | _ => False

theorem serves_turn {settings : AuthSettings} {s u : Store} {order : List RefreshToken} {id : Uuid}
    {p q : RefreshRotation.Phase} (hp : Serves id p) (h : RefreshRotation.turn settings s order p = some (u, q)) :
    Serves id q ∧ (received q = none ∨ ∃ issue, p = .issuing issue ∧ u = s.issue settings issue ∧
      received q = some (s.realm.nextId + 1)) := by
  cases p with
  | refresh id' =>
      obtain rfl : id' = id := hp
      rw [RefreshRotation.turn] at h
      split at h
      · cases h
        exact ⟨trivial, Or.inl rfl⟩
      · rename_i rt hrt
        cases h
        have hid := List.find?_some hrt
        simp only [decide_eq_true_eq] at hid
        exact ⟨hid.1, Or.inl rfl⟩
  | verified rt =>
      obtain rfl : rt.id = id := hp
      rw [RefreshRotation.turn] at h
      split at h
      · cases h
        exact ⟨trivial, Or.inl rfl⟩
      split at h
      · cases h
        exact ⟨trivial, Or.inl rfl⟩
      · obtain ⟨issue, hissue, h⟩ := Option.map_eq_some_iff.mp h
        cases h
        obtain ⟨-, hissue⟩ := Option.ite_none_right_eq_some.mp hissue
        cases hissue
        exact ⟨rfl, Or.inl rfl⟩
  | issuing issue =>
      rw [RefreshRotation.turn] at h
      split at h
      · cases h
        exact ⟨trivial, Or.inr ⟨issue, rfl, rfl, rfl⟩⟩
      · cases h
        exact ⟨trivial, Or.inl rfl⟩
  | succeeded presented id' =>
      rw [RefreshRotation.turn] at h
      cases h
  | refused raise =>
      rw [RefreshRotation.turn] at h
      cases h
  | _ => exact False.elim hp

/-! Who knows which token. -/

inductive Slot
  | sent
  | received
  | latest

inductive Holder
  | storage
  | tab (i : Nat) (slot : Slot)

def Phase.sent : Phase → Option (Uuid × Nat)
  | .idle => none
  | .refreshing id since _ => some (id, since)

def Phase.received : Phase → Option Uuid
  | .idle => none
  | .refreshing _ _ call => TabRefresh.received call

def Outcome.id : Outcome → Option Uuid
  | .succeeded id _ => some id
  | _ => none

def Tab.held (tab : Tab) : Slot → Option Uuid
  | .sent => tab.phase.sent.map Prod.fst
  | .received => tab.phase.received
  | .latest => tab.latest.id

def System.held (s : System) : Holder → Option Uuid
  | .storage => s.storage
  | .tab i slot => (s.tabs i).held slot

/-- Of the tokens that are known one at most is unspent, and a tab that is about
to receive a token is the only one to know it. -/
structure Linear (s : System) : Prop where
  below : ∀ h id, s.held h = some id → id < s.store.realm.nextId
  unique : ∀ h h' id id', s.held h = some id → s.held h' = some id' → Unspent s.store id → Unspent s.store id' → id = id'
  unread : ∀ i h id, s.held (.tab i .received) = some id → s.held h = some id → h = .tab i .received
  alone : ∀ i h id id', s.held (.tab i .received) = some id → s.held h = some id' → Unspent s.store id' → id' = id

theorem Linear.of_held {s t : System} (hs : Linear s) (hlater : Later s.store t.store)
    (hheld : ∀ h id, t.held h = some id → s.held h = some id ∨
      ((∀ k, h ≠ .tab k .received) ∧ ∃ h', s.held h' = some id ∧ ∀ k, h' = .tab k .received → t.held h' = none)) :
    Linear t := by
  have hknown : ∀ h id, t.held h = some id → ∃ h', s.held h' = some id := by
    intro h id hid
    rcases hheld h id hid with hsame | ⟨-, h', hh', -⟩
    · exact ⟨h, hsame⟩
    · exact ⟨h', hh'⟩
  have hreceived : ∀ k id, t.held (.tab k .received) = some id → s.held (.tab k .received) = some id := by
    intro k id hid
    rcases hheld _ id hid with hsame | ⟨hne, -⟩
    · exact hsame
    · exact absurd rfl (hne k)
  have hunspent : ∀ h id, t.held h = some id → Unspent t.store id → Unspent s.store id := by
    intro h id hid
    obtain ⟨h', hh'⟩ := hknown h id hid
    exact unspent_of_later hlater (hs.below h' id hh')
  refine ⟨?_, ?_, ?_, ?_⟩
  · intro h id hid
    obtain ⟨h', hh'⟩ := hknown h id hid
    exact (hs.below h' id hh').trans_le hlater.nextId
  · intro h h' id id' hid hid' hu hu'
    obtain ⟨g, hg⟩ := hknown h id hid
    obtain ⟨g', hg'⟩ := hknown h' id' hid'
    exact hs.unique g g' id id' hg hg' (hunspent h id hid hu) (hunspent h' id' hid' hu')
  · intro k h id hk hid
    rcases hheld h id hid with hsame | ⟨-, h', hh', hgone⟩
    · exact hs.unread k h id (hreceived k id hk) hsame
    · obtain rfl := hs.unread k h' id (hreceived k id hk) hh'
      rw [hgone k rfl] at hk
      exact nomatch hk
  · intro k h id id' hk hid' hu
    obtain ⟨h', hh'⟩ := hknown h id' hid'
    exact hs.alone k h' id id' (hreceived k id hk) hh' (hunspent h id' hid' hu)

/-- What holds of the calls, and of when the tabs read and obtained what they hold. -/
structure Timed (s : System) : Prop where
  serves : ∀ i id since call, s.phase i = .refreshing id since call → Serves id call
  sent : ∀ i id since, (s.phase i).sent = some (id, since) → since < s.clock
  latest : ∀ i id time, s.latest i = .succeeded id time → time < s.clock
  read : ∀ i sent since j id time, (s.phase i).sent = some (sent, since) → s.latest j = .succeeded id time →
    s.storage = some id → (id = sent ↔ time ≤ since)

structure Still (s t : System) : Prop where
  clock : t.clock = s.clock + 1
  storage : ∀ id, t.storage = some id → s.storage = some id
  serves : ∀ i id since call, t.phase i = .refreshing id since call → Serves id call
  sent : ∀ i id since, (t.phase i).sent = some (id, since) → (s.phase i).sent = some (id, since)
  latest : ∀ i id time, t.latest i = .succeeded id time → s.latest i = .succeeded id time

structure Quiet (s t : System) : Prop extends Still s t where
  later : Later s.store t.store
  received : ∀ i id, (t.phase i).received = some id → (s.phase i).received = some id

section Tabs

variable {settings} {s t : System} {event : Event}

theorem phase_update {i : Nat} {phase : Phase} {latest : Outcome}
    (ht : t.tabs = Function.update s.tabs i ⟨phase, latest⟩) (k : Nat) :
    t.phase k = if k = i then phase else s.phase k := by
  rw [System.phase, ht, Function.update_apply]
  split <;> rfl

theorem latest_update {i : Nat} {phase : Phase} {latest : Outcome}
    (ht : t.tabs = Function.update s.tabs i ⟨phase, latest⟩) (k : Nat) :
    t.latest k = if k = i then latest else s.latest k := by
  rw [System.latest, ht, Function.update_apply]
  split <;> rfl

theorem held_sent {i : Nat} {id : Uuid} : s.held (.tab i .sent) = some id ↔ ∃ since, (s.phase i).sent = some (id, since) := by
  simp [System.held, Tab.held, System.phase]

theorem held_latest {i : Nat} {id : Uuid} : s.held (.tab i .latest) = some id ↔ ∃ time, s.latest i = .succeeded id time := by
  rw [System.held, Tab.held, ← System.latest]
  cases s.latest i <;> simp [Outcome.id]

theorem Still.of_tab (hs : Timed s) {i : Nat} {phase : Phase} {latest : Outcome}
    (ht : t.tabs = Function.update s.tabs i ⟨phase, latest⟩) (hclock : t.clock = s.clock + 1)
    (hstorage : ∀ id, t.storage = some id → s.storage = some id)
    (hserves : ∀ id since call, phase = .refreshing id since call → Serves id call)
    (hsent : ∀ id since, phase.sent = some (id, since) → (s.phase i).sent = some (id, since))
    (hlatest : ∀ id time, latest = .succeeded id time → s.latest i = .succeeded id time) : Still s t where
  clock := hclock
  storage := hstorage
  serves k id since call hk := by
    rw [phase_update ht] at hk
    split at hk
    · exact hserves id since call hk
    · exact hs.serves k id since call hk
  sent k id since hk := by
    rw [phase_update ht] at hk
    split at hk
    · rename_i heq
      exact heq ▸ hsent id since hk
    · exact hk
  latest k id time hk := by
    rw [latest_update ht] at hk
    split at hk
    · rename_i heq
      exact heq ▸ hlatest id time hk
    · exact hk

theorem Quiet.setTab (hs : Timed s) (i : Nat) {phase : Phase} {latest : Outcome} {store : Store} {storage : Option Uuid}
    (hlater : Later s.store store) (hstorage : ∀ id, storage = some id → s.storage = some id)
    (hserves : ∀ id since call, phase = .refreshing id since call → Serves id call)
    (hsent : ∀ id since, phase.sent = some (id, since) → (s.phase i).sent = some (id, since))
    (hreceived : ∀ id, phase.received = some id → (s.phase i).received = some id)
    (hlatest : ∀ id time, latest = .succeeded id time → s.latest i = .succeeded id time) :
    Quiet s { s.setTab i phase latest with store, storage }.tick := by
  refine ⟨Still.of_tab hs rfl rfl hstorage hserves hsent hlatest, hlater, fun k id hk => ?_⟩
  rw [phase_update rfl] at hk
  split at hk
  · rename_i heq
    exact heq ▸ hreceived id hk
  · exact hk

theorem Quiet.of_store (hs : Timed s) {store : Store} (h : Later s.store store) : Quiet s { s with store }.tick :=
  ⟨⟨rfl, fun _ h => h, hs.serves, fun _ _ _ h => h, fun _ _ _ h => h⟩, h, fun _ _ h => h⟩

inductive Stepped (settings : AuthSettings) (s : System) (event : Event) (t : System) : Prop
  | quiet (h : Quiet s t) (hstorage : t.storage = s.storage ∨ ∃ i sent since, Fails s event i sent since)
  | read (i : Nat) (id : Uuid) (hphase : s.phase i = .idle) (hstorage : s.storage = some id)
    (heq : t = (s.setTab i (.refreshing id s.clock (.refresh id)) (s.latest i)).tick)
  | commit (i : Nat) (id : Uuid) (since : Nat) (issue : Issue) (call : RefreshRotation.Phase)
    (hevent : ∃ order, event = .serve i order) (hphase : s.phase i = .refreshing id since (.issuing issue)) (hissue : issue.presentedId = some id)
    (hreceived : received call = some (s.store.realm.nextId + 1)) (hserves : Serves id call)
    (heq : t = { s.setTab i (.refreshing id since call) (s.latest i) with store := s.store.issue settings issue }.tick)
  | finish (i : Nat) (sent : Uuid) (since : Nat) (presented : Option Uuid) (id : Uuid)
    (hphase : s.phase i = .refreshing sent since (.succeeded presented id))
    (heq : t = { s.setTab i .idle (.succeeded id s.clock) with storage := some id }.tick)

theorem stepped (hs : Timed s) (h : step settings s event = some t) : Stepped settings s event t := by
  obtain ⟨u, hu, rfl⟩ := Option.map_eq_some_iff.mp h
  have hidle : ∀ id since call, Phase.idle = .refreshing id since call → Serves id call := by
    intro id since call heq
    cases heq
  cases event with
  | start i =>
      rw [turn] at hu
      cases hphase : s.phase i with
      | idle =>
          cases hstorage : s.storage with
          | none =>
              rw [hphase, hstorage] at hu
              cases hu
              exact .quiet (Quiet.setTab hs i (Later.refl _) (fun _ h => h) hidle nofun nofun nofun) (Or.inl rfl)
          | some id =>
              rw [hphase, hstorage] at hu
              cases hu
              exact .read i id hphase hstorage rfl
      | refreshing id since call =>
          rw [hphase] at hu
          cases hu
          exact .quiet (Quiet.of_store hs (Later.refl _)) (Or.inl rfl)
  | serve i order =>
      rw [turn] at hu
      cases hphase : s.phase i with
      | idle =>
          rw [hphase] at hu
          exact nomatch hu
      | refreshing id since call =>
          rw [hphase] at hu
          obtain ⟨⟨store, call'⟩, hturn, hu⟩ := Option.map_eq_some_iff.mp hu
          cases hu
          obtain ⟨hserves, hnone | ⟨issue, rfl, rfl, hreceived⟩⟩ := serves_turn (hs.serves i id since call hphase) hturn
          · refine .quiet (Quiet.setTab hs i (RefreshRotation.turn_later hturn) (fun _ h => h) ?_ ?_ ?_ fun _ _ h => h)
              (Or.inl rfl)
            · intro id' since' call'' heq
              cases heq
              exact hserves
            · intro id' since' hsent
              rw [hphase]
              exact hsent
            · intro id' hid
              rw [Phase.received, hnone] at hid
              exact nomatch hid
          · exact .commit i id since issue call' ⟨order, rfl⟩ hphase (hs.serves i id since _ hphase) hreceived hserves rfl
  | fail i =>
      rw [turn] at hu
      cases hphase : s.phase i with
      | idle =>
          rw [hphase] at hu
          exact nomatch hu
      | refreshing id since call =>
          rw [hphase] at hu
          cases hu
          refine .quiet (Quiet.setTab hs i (Later.refl _) (fun _ h => h) ?_ ?_ nofun fun _ _ h => h) (Or.inl rfl)
          · intro id' since' call' heq
            cases heq
            trivial
          · intro id' since' hsent
            rw [hphase]
            exact hsent
  | finish i =>
      rw [turn] at hu
      split at hu
      · rename_i sent since presented id hphase
        cases hu
        exact .finish i sent since presented id hphase rfl
      · rename_i sent since raise hphase
        cases hu
        exact .quiet (Quiet.setTab hs i (Later.refl _) nofun hidle nofun nofun nofun)
          (Or.inr ⟨i, sent, since, rfl, raise, hphase⟩)
      · exact nomatch hu
  | reload i =>
      cases hu
      exact .quiet (Quiet.setTab hs i (Later.refl _) (fun _ h => h) hidle nofun nofun fun _ _ h => h) (Or.inl rfl)
  | elsewhere change =>
      cases hu
      exact .quiet (Quiet.of_store hs (change.later s.store)) (Or.inl rfl)

theorem Linear.quiet (hs : Linear s) (h : Quiet s t) : Linear t := by
  refine hs.of_held h.later fun holder id hid => Or.inl ?_
  cases holder with
  | storage => exact h.storage id hid
  | tab i slot =>
      cases slot with
      | sent =>
          obtain ⟨since, hsent⟩ := held_sent.mp hid
          exact held_sent.mpr ⟨since, h.sent i id since hsent⟩
      | received => exact h.received i id hid
      | latest =>
          obtain ⟨time, hlatest⟩ := held_latest.mp hid
          exact held_latest.mpr ⟨time, h.latest i id time hlatest⟩

theorem Timed.still (hs : Timed s) (h : Still s t) : Timed t where
  serves := h.serves
  sent i id since hsent := by
    rw [h.clock]
    exact Nat.lt_succ_of_lt (hs.sent i id since (h.sent i id since hsent))
  latest i id time hlatest := by
    rw [h.clock]
    exact Nat.lt_succ_of_lt (hs.latest i id time (h.latest i id time hlatest))
  read i sent since j id time hsent hlatest hstorage :=
    hs.read i sent since j id time (h.sent i sent since hsent) (h.latest j id time hlatest) (h.storage id hstorage)

theorem held_tab {i k : Nat} {phase : Phase} {latest : Outcome} {slot : Slot} {id : Uuid}
    (ht : t.tabs = Function.update s.tabs i ⟨phase, latest⟩) (h : t.held (.tab k slot) = some id) :
    (k = i ∧ Tab.held ⟨phase, latest⟩ slot = some id) ∨ (k ≠ i ∧ s.held (.tab k slot) = some id) := by
  have hheld : (Function.update s.tabs i ⟨phase, latest⟩ k).held slot = some id := ht ▸ h
  rw [Function.update_apply] at hheld
  split at hheld
  · exact Or.inl ⟨‹_›, hheld⟩
  · exact Or.inr ⟨‹_›, hheld⟩

theorem held_received {i id since : Nat} {call : RefreshRotation.Phase} (h : s.phase i = .refreshing id since call) :
    s.held (.tab i .received) = received call :=
  congrArg Phase.received h

theorem Linear.start (hs : Linear s) {i : Nat} {id : Uuid} (hstorage : s.storage = some id) :
    Linear (s.setTab i (.refreshing id s.clock (.refresh id)) (s.latest i)).tick := by
  refine hs.of_held (Later.refl _) fun holder id' hid => ?_
  cases holder with
  | storage => exact Or.inl hid
  | tab k slot =>
      rcases held_tab rfl hid with ⟨rfl, hheld⟩ | ⟨-, hheld⟩
      · cases slot with
        | sent =>
            obtain rfl : id = id' := Option.some.inj hheld
            exact Or.inr ⟨nofun, .storage, hstorage, nofun⟩
        | received => exact nomatch hheld
        | latest => exact Or.inl hheld
      · exact Or.inl hheld

theorem Linear.finish (hs : Linear s) {i sent since id time : Nat} {presented : Option Uuid}
    (hphase : s.phase i = .refreshing sent since (.succeeded presented id)) (ht : t.store = s.store)
    (htabs : t.tabs = Function.update s.tabs i ⟨.idle, .succeeded id time⟩) (hstorage : t.storage = some id) :
    Linear t := by
  have hreceived : s.held (.tab i .received) = some id := held_received hphase
  have hgone : t.held (.tab i .received) = none := by
    rw [Option.eq_none_iff_forall_ne_some]
    intro id' hid
    rcases held_tab htabs hid with ⟨-, hheld⟩ | ⟨hne, -⟩
    · exact nomatch hheld
    · exact hne rfl
  have hmoved : ∃ h', s.held h' = some id ∧ ∀ k, h' = .tab k .received → t.held h' = none :=
    ⟨.tab i .received, hreceived, fun _ _ => hgone⟩
  refine hs.of_held (ht ▸ Later.refl _) fun holder id' hid => ?_
  cases holder with
  | storage =>
      obtain rfl : id = id' := Option.some.inj (hstorage.symm.trans hid)
      exact Or.inr ⟨nofun, hmoved⟩
  | tab k slot =>
      rcases held_tab htabs hid with ⟨rfl, hheld⟩ | ⟨-, hheld⟩
      · cases slot with
        | sent => exact nomatch hheld
        | received => exact nomatch hheld
        | latest =>
            obtain rfl : id = id' := Option.some.inj hheld
            exact Or.inr ⟨nofun, hmoved⟩
      · exact Or.inl hheld

theorem Linear.commit (hs : Linear s) {i id since : Nat} {issue : Issue} {call : RefreshRotation.Phase}
    (hphase : s.phase i = .refreshing id since (.issuing issue)) (hissue : issue.presentedId = some id)
    (hunspent : Unspent s.store id) (hcall : received call = some (s.store.realm.nextId + 1))
    (ht : t.store = s.store.issue settings issue)
    (htabs : t.tabs = Function.update s.tabs i ⟨.refreshing id since call, s.latest i⟩) (hstorage : t.storage = s.storage) :
    Linear t := by
  have hlater : Later s.store t.store := ht ▸ Later.issue issue
  have hsent : s.held (.tab i .sent) = some id := held_sent.mpr ⟨since, congrArg Phase.sent hphase⟩
  have hown : t.held (.tab i .received) = some (s.store.realm.nextId + 1) := by
    rw [System.held, htabs, Function.update_self]
    exact hcall
  -- What any other holder knows it knew before, and the commit has spent it.
  have hother : ∀ h id', h ≠ .tab i .received → t.held h = some id' → s.held h = some id' := by
    intro h id' hne hid
    cases h with
    | storage => exact hstorage.symm.trans hid
    | tab k slot =>
        rcases held_tab htabs hid with ⟨rfl, hheld⟩ | ⟨-, hheld⟩
        · cases slot with
          | sent => exact hsent.trans hheld
          | received => exact absurd rfl hne
          | latest => exact hheld
        · exact hheld
  have hspent : ∀ h id', h ≠ .tab i .received → t.held h = some id' → ¬ Unspent t.store id' := by
    intro h id' hne hid hu
    have hheld := hother h id' hne hid
    have hold := unspent_of_later hlater (hs.below h id' hheld) hu
    obtain rfl := hs.unique h _ id' id hheld hsent hold hunspent
    exact spent_of_issue hissue (hs.below h id' hheld) (ht ▸ hu)
  have hnew : ∀ h, t.held h = some (s.store.realm.nextId + 1) → h = .tab i .received := by
    intro h hid
    by_contra hne
    exact absurd (hs.below h _ (hother h _ hne hid)) (not_lt.mpr (Nat.le_succ _))
  have hunread : ∀ k, s.held (.tab k .received) ≠ some id := by
    intro k hk
    exact nomatch hs.unread k _ id hk hsent
  have hreader : ∀ k id', t.held (.tab k .received) = some id' → k = i := by
    intro k id' hid
    by_contra hne
    have hheld := hother _ id' (fun heq => hne (by cases heq; rfl)) hid
    obtain rfl := hs.alone k _ id' id hheld hsent hunspent
    exact hunread k hheld
  refine ⟨?_, ?_, ?_, ?_⟩
  · intro h id' hid
    rw [ht]
    by_cases hne : h = .tab i .received
    · subst hne
      obtain rfl := Option.some.inj (hown.symm.trans hid)
      exact Nat.lt_succ_self _
    · exact (hs.below h id' (hother h id' hne hid)).trans_le (Nat.le_add_right _ _)
  · intro h h' a b ha hb hua hub
    have hh : h = .tab i .received := by
      by_contra hne
      exact hspent h a hne ha hua
    have hh' : h' = .tab i .received := by
      by_contra hne
      exact hspent h' b hne hb hub
    subst hh hh'
    exact Option.some.inj (ha.symm.trans hb)
  · intro k h a ha hh
    obtain rfl := hreader k a ha
    obtain rfl := Option.some.inj (hown.symm.trans ha)
    exact hnew h hh
  · intro k h a b ha hb hub
    obtain rfl := hreader k a ha
    have hh : h = .tab k .received := by
      by_contra hne
      exact hspent h b hne hb hub
    subst hh
    exact Option.some.inj (hb.symm.trans ha)

theorem Unraced.unspent {i id since : Nat} {order : List RefreshToken} {issue : Issue} (h : Unraced s (.serve i order))
    (hphase : s.phase i = .refreshing id since (.issuing issue)) (hissue : issue.presentedId = some id) :
    Unspent s.store id := by
  rw [Unraced, hphase] at h
  obtain ⟨rt, hrt, rfl⟩ := Option.map_eq_some_iff.mp hissue
  exact h issue rfl rt hrt

theorem Linear.step (hs : Linear s) (hunraced : Unraced s event) (h : Stepped settings s event t) : Linear t := by
  cases h with
  | quiet h _ => exact hs.quiet h
  | read i id _ hstorage heq => exact heq ▸ hs.start hstorage
  | commit i id since issue call hevent hphase hissue hreceived _ heq =>
      obtain ⟨order, rfl⟩ := hevent
      subst heq
      exact hs.commit hphase hissue (hunraced.unspent hphase hissue) hreceived rfl rfl rfl
  | finish i sent since presented id hphase heq =>
      subst heq
      exact hs.finish hphase rfl rfl rfl

theorem Timed.start (hs : Timed s) {i id : Nat} (hstorage : s.storage = some id) :
    Timed (s.setTab i (.refreshing id s.clock (.refresh id)) (s.latest i)).tick := by
  have hphase := phase_update (rfl : (s.setTab i (.refreshing id s.clock (.refresh id)) (s.latest i)).tick.tabs = _)
  have hlatest : ∀ k, (s.setTab i (.refreshing id s.clock (.refresh id)) (s.latest i)).tick.latest k = s.latest k := by
    intro k
    rw [latest_update rfl]
    split
    · rename_i heq
      rw [heq]
    · rfl
  refine ⟨?_, ?_, ?_, ?_⟩
  · intro k id' since call hk
    rw [hphase] at hk
    split at hk
    · cases hk
      exact rfl
    · exact hs.serves k id' since call hk
  · intro k id' since hk
    rw [hphase] at hk
    split at hk
    · cases hk
      exact Nat.lt_succ_self _
    · exact Nat.lt_succ_of_lt (hs.sent k id' since hk)
  · intro k id' time hk
    rw [hlatest] at hk
    exact Nat.lt_succ_of_lt (hs.latest k id' time hk)
  · intro k sent since j id' time hk hj hid
    rw [hlatest] at hj
    rw [hphase] at hk
    split at hk
    · cases hk
      exact iff_of_true (Option.some.inj (hid.symm.trans hstorage)) (hs.latest j id' time hj).le
    · exact hs.read k sent since j id' time hk hj hid

theorem Timed.finish (hs : Timed s) (hlinear : Linear s) {i sent since id : Nat} {presented : Option Uuid}
    (hcall : s.phase i = .refreshing sent since (.succeeded presented id)) (hclock : t.clock = s.clock + 1)
    (ht : t.tabs = Function.update s.tabs i ⟨.idle, .succeeded id s.clock⟩) (hstorage : t.storage = some id) :
    Timed t := by
  have hreceived : s.held (.tab i .received) = some id := held_received hcall
  refine ⟨?_, ?_, ?_, ?_⟩
  · intro k id' since' call hk
    rw [phase_update ht] at hk
    split at hk
    · exact nomatch hk
    · exact hs.serves k id' since' call hk
  · intro k id' since' hk
    rw [hclock]
    rw [phase_update ht] at hk
    split at hk
    · exact nomatch hk
    · exact Nat.lt_succ_of_lt (hs.sent k id' since' hk)
  · intro k id' time hk
    rw [hclock]
    rw [latest_update ht] at hk
    split at hk
    · cases hk
      exact Nat.lt_succ_self _
    · exact Nat.lt_succ_of_lt (hs.latest k id' time hk)
  · intro k sent' since' j id' time hk hj hid
    obtain rfl := Option.some.inj (hstorage.symm.trans hid)
    rw [phase_update ht] at hk
    rw [latest_update ht] at hj
    split at hk
    · exact nomatch hk
    split at hj
    · rename_i heq
      subst heq
      cases hj
      -- The pair is new to a tab that is refreshing.
      refine iff_of_false (fun heq => ?_) (not_le.mpr (hs.sent k sent' since' hk))
      exact nomatch hlinear.unread j (.tab k .sent) id hreceived (held_sent.mpr ⟨since', heq ▸ hk⟩)
    · exact nomatch hlinear.unread i (.tab j .latest) id hreceived (held_latest.mpr ⟨time, hj⟩)

theorem Timed.step (hs : Timed s) (hlinear : Linear s) (h : Stepped settings s event t) : Timed t := by
  cases h with
  | quiet h _ => exact hs.still h.toStill
  | read i id _ hstorage heq => exact heq ▸ hs.start hstorage
  | commit i id since issue call _ hphase _ _ hserves heq =>
      subst heq
      refine hs.still (Still.of_tab hs rfl rfl (fun _ h => h) ?_ ?_ fun _ _ h => h)
      · intro id' since' call' heq
        cases heq
        exact hserves
      · intro id' since' hsent
        rw [hphase]
        exact hsent
  | finish i sent since presented id hphase heq =>
      subst heq
      exact hs.finish hlinear hphase rfl rfl rfl

def Sound (s : System) : Prop := Linear s ∧ Timed s

theorem sound_opening (opening : Opening) : Sound opening.system := by
  have hheld : ∀ h id, opening.system.held h = some id → h = .storage ∧ opening.storage = some id := by
    intro h id hid
    cases h with
    | storage => exact ⟨rfl, hid⟩
    | tab i slot => cases slot <;> exact nomatch hid
  refine ⟨⟨?_, ?_, ?_, ?_⟩, ⟨?_, ?_, ?_, ?_⟩⟩
  · intro h id hid
    exact opening.issued id (hheld h id hid).2
  · intro h h' id id' hid hid' _ _
    exact Option.some.inj ((hheld h id hid).2.symm.trans (hheld h' id' hid').2)
  · intro i h id hid
    exact nomatch (hheld _ id hid).1
  · intro i h id id' hid
    exact nomatch (hheld _ id hid).1
  · intro i id since call hphase
    cases hphase
  · intro i id since hsent
    cases hsent
  · intro i id time hlatest
    cases hlatest
  · intro i sent since j id time hsent
    cases hsent

theorem Sound.step (hs : Sound s) (hunraced : Unraced s event) (h : step settings s event = some t) : Sound t :=
  have hstepped := stepped hs.2 h
  ⟨hs.1.step hunraced hstepped, hs.2.step hs.1 hstepped⟩

theorem Linear.lt_of_latest (hs : Linear s) {i id time : Nat} (h : s.latest i = .succeeded id time) :
    id < s.store.realm.nextId :=
  hs.below (.tab i .latest) id (held_latest.mpr ⟨time, h⟩)

theorem Stored.step (hstored : Stored s) (hs : Sound s) (h : Stepped settings s event t)
    (hfails : ¬ ∃ i sent since, Fails s event i sent since) : Stored t := by
  intro k id time hlatest hvalid
  cases h with
  | quiet h hstorage =>
      have hold := h.latest k id time hlatest
      rw [hstorage.resolve_right hfails]
      exact hstored k id time hold (valid_of_later h.later (hs.1.lt_of_latest hold) hvalid)
  | read i id' _ _ heq =>
      subst heq
      have hold : s.latest k = .succeeded id time := by
        rw [latest_update rfl] at hlatest
        split at hlatest
        · rename_i hk
          exact hk ▸ hlatest
        · exact hlatest
      exact hstored k id time hold hvalid
  | commit i id' since issue call _ _ _ _ _ heq =>
      subst heq
      have hold : s.latest k = .succeeded id time := by
        rw [latest_update rfl] at hlatest
        split at hlatest
        · rename_i hk
          exact hk ▸ hlatest
        · exact hlatest
      exact hstored k id time hold (valid_of_later (Later.issue issue) (hs.1.lt_of_latest hold) hvalid)
  | finish i sent since presented id' hphase heq =>
      subst heq
      rw [latest_update rfl] at hlatest
      split at hlatest
      · cases hlatest
        rfl
      · have hheld := held_latest.mpr ⟨time, hlatest⟩
        have hreceived : s.held (.tab i .received) = some id' := held_received hphase
        obtain rfl := hs.1.alone i _ id' id hreceived hheld (Valid.unspent hvalid)
        rfl

theorem failed (h : step settings s event = some t) {i sent since : Nat} (hfails : Fails s event i sent since) :
    t.storage = none ∧ t.store = s.store ∧ ∀ k, t.latest k = if k = i then .failed else s.latest k := by
  obtain ⟨rfl, raise, hphase⟩ := hfails
  obtain ⟨u, hu, rfl⟩ := Option.map_eq_some_iff.mp h
  rw [turn, hphase] at hu
  cases hu
  exact ⟨rfl, rfl, latest_update rfl⟩

theorem stored_and_spares_iff (hs : Sound s) (hstored : Stored s) (h : step settings s event = some t) :
    Stored t ∧ Spares s event ↔ FailsAlone s event := by
  by_cases hfails : ∃ i sent since, Fails s event i sent since
  · constructor
    · rintro ⟨hkept, hspares⟩ i sent since hfails j id time hj hlatest hstorage
      obtain ⟨hnone, hstore, hrest⟩ := failed h hfails
      obtain ⟨raise, hphase⟩ := hfails.2
      have hle := hspares i sent since hfails j id time hj hlatest hstorage
      refine ⟨(hs.2.read i sent since j id time (congrArg Phase.sent hphase) hlatest hstorage).mpr hle, fun hvalid => ?_⟩
      have hgone := hkept j id time ((hrest j).trans ((if_neg hj).trans hlatest)) (hstore ▸ hvalid)
      exact nomatch hnone.symm.trans hgone
    · intro halone
      obtain ⟨i, sent, since, hfails⟩ := hfails
      obtain ⟨hnone, hstore, hrest⟩ := failed h hfails
      constructor
      · intro j id time hlatest hvalid
        rw [hrest] at hlatest
        split at hlatest
        · exact nomatch hlatest
        · rename_i hj
          rw [hstore] at hvalid
          have hstorage := hstored j id time hlatest hvalid
          exact absurd hvalid (halone i sent since hfails j id time hj hlatest hstorage).2
      · intro i sent since hfails j id time hj hlatest hstorage
        obtain ⟨raise, hphase⟩ := hfails.2
        have hsame := (halone i sent since hfails j id time hj hlatest hstorage).1
        exact (hs.2.read i sent since j id time (congrArg Phase.sent hphase) hlatest hstorage).mp hsame
  · have hnone : ∀ i sent since, ¬ Fails s event i sent since := fun i sent since hf => hfails ⟨i, sent, since, hf⟩
    refine iff_of_true ⟨hstored.step hs (stepped hs.2 h) hfails, ?_⟩ ?_
    · exact fun i sent since hf => absurd hf (hnone i sent since)
    · exact fun i sent since hf => absurd hf (hnone i sent since)

end Tabs

/-- Where the server lets each token be spent once, the storage keeps the pair
of the latest success exactly when no tab's failure throws it away. -/
theorem storage_keeps_iff (settings : AuthSettings) (opening : Opening) (events : List Event)
    (hunraced : AllSteps (step settings) Unraced opening.system events) :
    (AllStates (step settings) Stored opening.system events ∧ AllSteps (step settings) Spares opening.system events) ↔
      AllSteps (step settings) FailsAlone opening.system events := by
  have hkeep : ∀ s event t, Sound s → Unraced s event → step settings s event = some t → Sound t :=
    fun _ _ _ hs hunraced h => hs.step hunraced h
  have hstep : ∀ s event t, Sound s → Stored s → step settings s event = some t →
      (Stored t ∧ Spares s event ↔ FailsAlone s event) :=
    fun _ _ _ hs hstored h => stored_and_spares_iff hs hstored h
  have hopened : Stored opening.system := fun _ _ _ hlatest => nomatch hlatest
  exact allStates_and_allSteps_iff hkeep hstep (sound_opening opening) hopened hunraced

section House

/-- Ada has logged in, and two tabs find her token. -/
def signedIn : Opening where
  store := ⟨createTokens defaultSettings (opened house day) ada 0, fun _ => day⟩
  storage := some 1
  issued := by decide +kernel

def bothRefresh : List Event :=
  [.start 0, .start 1, .serve 0 [], .serve 0 [], .serve 0 [], .finish 0, .serve 1 [], .finish 1]

/-- The second tab's token has been used up by the first, and its failure clears
the pair that the first was given. -/
theorem failure_clears_pair :
    ¬ ∀ (settings : AuthSettings) (opening : Opening) (events : List Event),
      AllStates (step settings) Stored opening.system events ∧ AllSteps (step settings) Spares opening.system events := by
  intro h
  obtain ⟨hstored, -⟩ := h defaultSettings signedIn bothRefresh
  have hrun : ∃ t ∈ run (step defaultSettings) signedIn.system bothRefresh,
      t.latest 0 = .succeeded 3 5 ∧ (verifyRefreshToken t.store.realm 3).isSome = true ∧ t.storage = none := by
    decide +kernel
  obtain ⟨t, ht, hlatest, hvalid, hnone⟩ := hrun
  exact nomatch hnone.symm.trans (hstored.last ht 0 3 5 hlatest hvalid)

/-- Where both calls find the token before either commits, both pairs are valid, and no failure is needed. -/
example : ∃ t ∈ run (step defaultSettings) signedIn.system
      [.start 0, .start 1, .serve 0 [], .serve 1 [], .serve 0 [], .serve 1 [], .serve 0 [], .serve 1 [], .finish 0, .finish 1],
    t.latest 0 = .succeeded 3 8 ∧ (verifyRefreshToken t.store.realm 3).isSome = true ∧ t.storage = some 5 := by
  decide +kernel

theorem storage_keeps_alone :
    (AllStates (step defaultSettings) Stored signedIn.system bothRefresh ∧
        AllSteps (step defaultSettings) Spares signedIn.system bothRefresh) ↔
      AllSteps (step defaultSettings) FailsAlone signedIn.system bothRefresh :=
  storage_keeps_iff defaultSettings signedIn bothRefresh (by decide +kernel)

end House

end NukeLab.TabRefresh
