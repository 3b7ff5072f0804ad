import NukeLab.Interleaving
import NukeLab.Ledger

namespace NukeLab.DailyAllowance

open Program Machine Interleaving Records State Ledger

structure LockedWorld where
  world : World
  lockedBy : Uuid → Option Nat

def LockedWorld.lock (s : LockedWorld) (userId : Uuid) (i : Nat) : LockedWorld :=
  { s with lockedBy := Function.update s.lockedBy userId (some i) }

/-- What a commit or a rollback does to a lock. -/
def LockedWorld.unlock (s : LockedWorld) (userId : Uuid) : LockedWorld :=
  { s with lockedBy := Function.update s.lockedBy userId none }

inductive Request
  | grant (userId : Uuid)
  | write (draft : TransactionDraft) (htype : draft.type ≠ .dailyAllowance)
  | amend (userId : Uuid) (f : User → User)
  | configure (settings : Settings)

/-- How far a call has come. A grant that was refused keeps its lock until its
session ends the transaction. -/
inductive Phase
  | grant (userId : Uuid)
  | locked (userId : Uuid) (user : User)
  | checked (userId : Uuid) (user : User) (clock : Instant)
  | priced (userId : Uuid) (user : User) (draft : TransactionDraft) (maxBalance : Int) (clock : Instant)
  | refused (userId : Uuid)
  | write (draft : TransactionDraft)
  | amend (userId : Uuid) (f : User → User)
  | configure (settings : Settings)
  | granted
  | done

def begin : Request → Phase
  | .grant userId => .grant userId
  | .write draft _ => .write draft
  | .amend userId f => .amend userId f
  | .configure settings => .configure settings

def dayStart (now : Instant) : Instant := now / day * day

def allowanceDraft (userId : Uuid) (user : User) (now : Instant) : TransactionDraft where
  userId := userId
  amount := effectiveDailyAllowance user now
  type := .dailyAllowance
  description := "Daily allowance: " ++ toString (effectiveDailyAllowance user now) ++ " credits"
  actorId := none
  serverId := none
  metadata := [("source", .text "auto_grant"), ("override_active", .flag (hasActiveAllowanceOverride user now))]

def grantsSince (w : World) (userId : Uuid) (start : Instant) : List CreditTransaction :=
  w.transactions.filter fun t => t.userId = userId ∧ t.type = .dailyAllowance ∧ t.createdAt ≥ start

def recordedAt (w : World) (maxBalance : Int) (now : Instant) : World :=
  { w with now := now, settings := { w.settings with creditsMaxBalance := maxBalance } }

/-- A turn waits while another call holds the lock it asks for, and a call's own
clock never goes back. -/
def advance : Advance LockedWorld Phase Instant := fun i s p now =>
  match p with
  | .grant userId =>
    if (s.lockedBy userId).isSome then none
    else
      match s.world.users userId with
      | none => some (s, .done)
      | some user =>
        if user.isActive then some (s.lock userId i, .locked userId user) else some (s.lock userId i, .refused userId)
  | .locked userId user =>
    if grantsSince s.world userId (dayStart now) = [] then some (s, .checked userId user now)
    else some (s, .refused userId)
  | .checked userId user clock =>
    if now < clock then none
    else some (s, .priced userId user (allowanceDraft userId user now) s.world.settings.creditsMaxBalance now)
  | .priced userId user draft maxBalance clock =>
    if now < clock then none
    else
      let transaction := transactionFor (recordedAt s.world maxBalance now) user draft
      if transaction.balanceAfter < 0 then some (s, .refused userId)
      else some ({ s with world := post s.world transaction }.unlock userId, .granted)
  | .refused userId => some (s.unlock userId, .done)
  | .write draft =>
    if (s.lockedBy draft.userId).isSome then none
    else some ({ s with world := final (createTransaction draft) { s.world with now := now } }, .done)
  | .amend userId f =>
    if (s.lockedBy userId).isSome then none
    else
      some ({ s with world := { s.world with users := Function.update s.world.users userId ((s.world.users userId).map f) } },
        .done)
  | .configure settings => some ({ s with world := { s.world with settings := settings } }, .done)
  | .granted | .done => none

def grantsOn (transactions : List CreditTransaction) (userId : Uuid) (date : Int) : List CreditTransaction :=
  transactions.filter fun t => t.userId = userId ∧ t.type = .dailyAllowance ∧ t.createdAt / day = date

def OncePerDay (w : World) : Prop := ∀ userId date, (grantsOn w.transactions userId date).length ≤ 1

theorem grantsOn_append (ts : List CreditTransaction) (t : CreditTransaction) (userId : Uuid) (date : Int) :
    grantsOn (ts ++ [t]) userId date = grantsOn ts userId date ++ grantsOn [t] userId date := by
  simp only [grantsOn, List.filter_append]

/-- A transaction that is no allowance of the user's adds nothing to what is found for the user. -/
theorem grantsSince_append {w w' : World} {t : CreditTransaction} {userId : Uuid} (start : Instant)
    (hrows : w'.transactions = w.transactions ++ [t]) (ht : t.userId = userId → t.type ≠ .dailyAllowance) :
    grantsSince w' userId start = grantsSince w userId start := by
  have hnone : ¬ (t.userId = userId ∧ t.type = .dailyAllowance ∧ t.createdAt ≥ start) := fun h => ht h.1 h.2.1
  rw [grantsSince, hrows, List.filter_append, List.filter_cons_of_neg (by simpa using hnone), List.filter_nil,
    List.append_nil, grantsSince]

theorem grantsOn_of_grantsSince {w : World} {userId : Uuid} {clock now : Instant}
    (h : grantsSince w userId (dayStart clock) = []) (hnow : clock ≤ now) : grantsOn w.transactions userId (now / day) = [] := by
  rw [grantsSince, List.filter_eq_nil_iff] at h
  rw [grantsOn, List.filter_eq_nil_iff]
  intro t ht hon
  apply h t ht
  rw [decide_eq_true_eq] at hon ⊢
  refine ⟨hon.1, hon.2.1, ?_⟩
  have hdate := hon.2.2
  have hday : (0 : Int) < day := by decide
  have hle : clock / day ≤ t.createdAt / day := by
    rw [hdate]
    exact Int.ediv_le_ediv hday hnow
  calc dayStart clock = clock / day * day := rfl
    _ ≤ t.createdAt / day * day := Int.mul_le_mul_of_nonneg_right hle hday.le
    _ ≤ t.createdAt := Int.ediv_mul_le _ hday.ne'

theorem OncePerDay.append {w w' : World} {t : CreditTransaction} (h : OncePerDay w)
    (hrows : w'.transactions = w.transactions ++ [t])
    (ht : t.type = .dailyAllowance → grantsOn w.transactions t.userId (t.createdAt / day) = []) : OncePerDay w' := by
  intro userId date
  rw [hrows, grantsOn_append, List.length_append]
  by_cases hm : t.userId = userId ∧ t.type = .dailyAllowance ∧ t.createdAt / day = date
  · obtain ⟨rfl, htype, rfl⟩ := hm
    rw [ht htype]
    exact Nat.add_le_add_left (List.length_filter_le _ _) 0
  · have hnone : grantsOn [t] userId date = [] := by
      rw [grantsOn, List.filter_cons_of_neg (by simpa using hm), List.filter_nil]
    rw [hnone]
    exact h userId date

def Holding (i : Nat) (s : LockedWorld) (userId : Uuid) (user : User) : Prop :=
  s.lockedBy userId = some i ∧ s.world.users userId = some user

def Local (i : Nat) (s : LockedWorld) : Phase → Prop
  | .locked userId user => Holding i s userId user
  | .checked userId user clock => Holding i s userId user ∧ grantsSince s.world userId (dayStart clock) = []
  | .priced userId user draft _ clock =>
    Holding i s userId user ∧ draft = allowanceDraft userId user clock ∧
      ∃ before ≤ clock, grantsSince s.world userId (dayStart before) = []
  | .refused userId => s.lockedBy userId = some i
  | .write draft => draft.type ≠ .dailyAllowance
  | _ => True

/-- What a lock keeps from the other calls: itself, its row and its user's allowances. -/
structure Kept (s u : LockedWorld) (userId : Uuid) : Prop where
  lock : u.lockedBy userId = s.lockedBy userId
  row : u.world.users userId = s.world.users userId
  grants : ∀ start, grantsSince u.world userId start = grantsSince s.world userId start

theorem Kept.rfl {s : LockedWorld} {userId : Uuid} : Kept s s userId := ⟨Eq.refl _, Eq.refl _, fun _ => Eq.refl _⟩

theorem Kept.post {s : LockedWorld} {transaction : CreditTransaction} {userId : Uuid} (h : transaction.userId ≠ userId) :
    Kept s { s with world := post s.world transaction } userId where
  lock := Eq.refl _
  row := Function.update_of_ne h.symm _ _
  grants start := grantsSince_append start (Eq.refl _) fun h' => absurd h' h

theorem Kept.trans {s t u : LockedWorld} {userId : Uuid} (h : Kept s t userId) (h' : Kept t u userId) : Kept s u userId where
  lock := h'.lock.trans h.lock
  row := h'.row.trans h.row
  grants start := (h'.grants start).trans (h.grants start)

theorem Kept.relock {s : LockedWorld} {a userId : Uuid} (holder : Option Nat) (h : a ≠ userId) :
    Kept s { s with lockedBy := Function.update s.lockedBy a holder } userId where
  lock := Function.update_of_ne h.symm _ _
  row := Eq.refl _
  grants _ := Eq.refl _

theorem Local.kept {j : Nat} {s u : LockedWorld} {r : Phase} (h : Local j s r)
    (hkept : ∀ userId, s.lockedBy userId = some j → Kept s u userId) : Local j u r := by
  have hholding : ∀ {userId user}, Holding j s userId user → Holding j u userId user := fun {userId _} hh =>
    ⟨(hkept userId hh.1).lock.trans hh.1, (hkept userId hh.1).row.trans hh.2⟩
  cases r with
  | locked userId user => exact hholding h
  | checked userId user clock => exact ⟨hholding h.1, ((hkept userId h.1.1).grants _).trans h.2⟩
  | priced userId user draft maxBalance clock =>
      obtain ⟨hh, hdraft, before, hbefore, hgrants⟩ := h
      exact ⟨hholding hh, hdraft, before, hbefore, ((hkept userId hh.1).grants _).trans hgrants⟩
  | refused userId => exact (hkept userId h).lock.trans h
  | write draft => exact h
  | grant | amend | configure | granted | done => trivial

/-- A turn leaves alone all that another call's lock protects. -/
theorem advance_kept {i : Nat} {s u : LockedWorld} {p q : Phase} {now : Instant} (hp : Local i s p)
    (h : advance i s p now = some (u, q)) {j : Nat} (hj : j ≠ i) {userId : Uuid} (hlock : s.lockedBy userId = some j) :
    Kept s u userId := by
  -- a lock asked for while it is free, or held by the call itself, is not the other's
  have hfree : ∀ {a}, ¬ (s.lockedBy a).isSome → a ≠ userId := by
    rintro a ha rfl
    exact ha (by rw [hlock, Option.isSome_some])
  have hown : ∀ {a}, s.lockedBy a = some i → a ≠ userId := by
    rintro a ha rfl
    exact hj (Option.some.inj (hlock.symm.trans ha))
  cases p with
  | grant a =>
      simp only [advance] at h
      split at h
      · exact nomatch h
      next hfreed =>
        split at h
        · cases h
          exact .rfl
        · split at h
          · cases h
            exact .relock _ (hfree hfreed)
          · cases h
            exact .relock _ (hfree hfreed)
  | locked a user =>
      simp only [advance] at h
      split at h <;> (cases h; exact .rfl)
  | checked a user clock =>
      simp only [advance] at h
      split at h
      · exact nomatch h
      · cases h
        exact .rfl
  | priced a user draft maxBalance clock =>
      simp only [advance] at h
      split at h
      · exact nomatch h
      · split at h
        · cases h
          exact .rfl
        · cases h
          obtain ⟨hh, rfl, -⟩ := hp
          exact (Kept.post (hown hh.1)).trans (.relock none (hown hh.1))
  | refused a =>
      cases h
      exact .relock none (hown hp)
  | write draft =>
      simp only [advance] at h
      split at h
      · exact nomatch h
      next hfreed =>
        cases h
        have hrecorded := createTransaction_recorded draft { s.world with now := now }
        generalize final (createTransaction draft) { s.world with now := now } = w at hrecorded ⊢
        cases hrecorded with
        | refused => exact ⟨Eq.refl _, Eq.refl _, fun _ => Eq.refl _⟩
        | posted user huser hnonneg =>
            exact ⟨Eq.refl _, Function.update_of_ne (hfree hfreed).symm _ _,
              fun start => grantsSince_append start (Eq.refl _) fun h' => absurd h' (hfree hfreed)⟩
  | amend a f =>
      simp only [advance] at h
      split at h
      · exact nomatch h
      next hfreed =>
        cases h
        exact ⟨Eq.refl _, Function.update_of_ne (hfree hfreed).symm _ _, fun _ => Eq.refl _⟩
  | configure settings =>
      cases h
      exact ⟨Eq.refl _, Eq.refl _, fun _ => Eq.refl _⟩
  | granted | done => exact nomatch h

/-- All that one turn of a grant can do to the rows: nothing, or record the
first allowance of that user that carries its date. -/
inductive GrantTurn (s : LockedWorld) : Phase → LockedWorld → Phase → Prop
  | quiet {p u q} (hq : q ≠ .granted) (hworld : u.world = s.world) : GrantTurn s p u q
  | granted {userId user draft maxBalance clock u transaction} (huser : s.world.users userId = some user)
      (hworld : u.world = post s.world transaction) (huserId : transaction.userId = userId)
      (htype : transaction.type = .dailyAllowance)
      (hamount : transaction.amount ≤ effectiveDailyAllowance user clock)
      (hfirst : grantsOn s.world.transactions userId (transaction.createdAt / day) = []) :
      GrantTurn s (.priced userId user draft maxBalance clock) u .granted

def Phase.granting : Phase → Bool
  | .grant _ | .locked _ _ | .checked _ _ _ | .priced _ _ _ _ _ | .refused _ => true
  | _ => false

theorem effectiveAmount_le (maxBalance currentBalance amount : Int) :
    effectiveAmount maxBalance currentBalance amount ≤ amount := by
  rw [effectiveAmount]
  split
  · next h => omega
  · exact le_refl amount

theorem priced_granted {i : Nat} {s : LockedWorld} {userId : Uuid} {user : User} {draft : TransactionDraft}
    {maxBalance : Int} {clock now : Instant} (hp : Local i s (.priced userId user draft maxBalance clock))
    (hnow : clock ≤ now) :
    GrantTurn s (.priced userId user draft maxBalance clock)
      ({ s with world := post s.world (transactionFor (recordedAt s.world maxBalance now) user draft) }.unlock userId)
      .granted := by
  obtain ⟨hh, rfl, before, hbefore, hgrants⟩ := hp
  exact .granted hh.2 rfl rfl rfl (effectiveAmount_le _ _ _) (grantsOn_of_grantsSince hgrants (hbefore.trans hnow))

theorem advance_grantTurn {i : Nat} {s u : LockedWorld} {p q : Phase} {now : Instant} (hp : Local i s p)
    (h : advance i s p now = some (u, q)) (hgranting : p.granting) : GrantTurn s p u q := by
  cases p with
  | grant a =>
      simp only [advance] at h
      split at h
      · exact nomatch h
      · split at h
        · cases h
          exact .quiet nofun rfl
        · split at h <;> (cases h; exact .quiet nofun rfl)
  | locked a user =>
      simp only [advance] at h
      split at h <;> (cases h; exact .quiet nofun rfl)
  | checked a user clock =>
      simp only [advance] at h
      split at h
      · exact nomatch h
      · cases h
        exact .quiet nofun rfl
  | priced a user draft maxBalance clock =>
      simp only [advance] at h
      split at h
      · exact nomatch h
      next hnow =>
        split at h
        · cases h
          exact .quiet nofun rfl
        · cases h
          exact priced_granted hp (not_lt.mp hnow)
  | refused a =>
      cases h
      exact .quiet nofun rfl
  | write | amend | configure | granted | done => exact nomatch hgranting

theorem advance_oncePerDay {i : Nat} {s u : LockedWorld} {p q : Phase} {now : Instant} (hs : OncePerDay s.world)
    (hp : Local i s p) (h : advance i s p now = some (u, q)) : OncePerDay u.world := by
  by_cases hgranting : p.granting
  · cases advance_grantTurn hp h hgranting with
    | quiet hq hworld => rwa [hworld]
    | granted huser hworld huserId htype hamount hfirst =>
        rw [hworld]
        exact hs.append rfl fun _ => by rwa [huserId]
  cases p with
  | write draft =>
      simp only [advance] at h
      split at h
      · exact nomatch h
      · cases h
        have hrecorded := createTransaction_recorded draft { s.world with now := now }
        generalize final (createTransaction draft) { s.world with now := now } = w at hrecorded ⊢
        cases hrecorded with
        | refused => exact hs
        | posted user huser hnonneg => exact hs.append rfl fun htype => absurd htype hp
  | amend a f =>
      simp only [advance] at h
      split at h
      · exact nomatch h
      · cases h
        exact hs
  | configure settings =>
      cases h
      exact hs
  | grant | locked | checked | priced | refused => exact absurd rfl hgranting
  | granted | done => exact nomatch h

theorem advance_local {i : Nat} {s u : LockedWorld} {p q : Phase} {now : Instant} (hp : Local i s p)
    (h : advance i s p now = some (u, q)) : Local i u q := by
  cases p with
  | grant a =>
      simp only [advance] at h
      split at h
      · exact nomatch h
      · split at h
        · cases h
          trivial
        next user huser =>
          split at h
          · cases h
            exact ⟨Function.update_self _ _ _, huser⟩
          · cases h
            exact Function.update_self _ _ _
  | locked a user =>
      simp only [advance] at h
      split at h
      next hnone =>
        cases h
        exact ⟨hp, hnone⟩
      · cases h
        exact hp.1
  | checked a user clock =>
      simp only [advance] at h
      split at h
      · exact nomatch h
      next hnow =>
        cases h
        exact ⟨hp.1, rfl, clock, not_lt.mp hnow, hp.2⟩
  | priced a user draft maxBalance clock =>
      simp only [advance] at h
      split at h
      · exact nomatch h
      · split at h
        · cases h
          exact hp.1.1
        · cases h
          trivial
  | refused | configure =>
      cases h
      trivial
  | write | amend =>
      simp only [advance] at h
      split at h
      · exact nomatch h
      · cases h
        trivial
  | granted | done => exact nomatch h

theorem begin_local (i : Nat) (s : LockedWorld) (request : Request) : Local i s (begin request) := by
  cases request with
  | write draft htype => exact htype
  | grant | amend | configure => trivial

/-- In every run of the calls, however they interleave, a user is granted the
allowance at most once a day, and a grant that is refused leaves the rows alone. -/
theorem granted_once_a_day {prior : World} (hprior : OncePerDay prior) (events : List (Event Request Instant)) :
    AllStates (step begin advance) (fun s => OncePerDay s.shared.world) ⟨⟨prior, fun _ => none⟩, []⟩ events ∧
      AllSteps (step begin advance) (EveryTurn advance fun _ s p u q => p.granting → GrantTurn s p u q)
        ⟨⟨prior, fun _ => none⟩, []⟩ events := by
  have hsound : AllStates (step begin advance) (Sound (fun s : LockedWorld => OncePerDay s.world) Local)
      ⟨⟨prior, fun _ => none⟩, []⟩ events := by
    apply allStates_sound
    · exact fun i s request _ => begin_local i s request
    · exact fun i s p now u q hs hp h => ⟨advance_oncePerDay hs hp h, advance_local hp h⟩
    · exact fun i s p now u q j r hj _ hp hr h => hr.kept fun userId hlock => advance_kept hp h hj hlock
    · exact ⟨hprior, fun i p hp => nomatch hp⟩
  have hturns : ∀ i s p now u q, OncePerDay s.world → Local i s p → advance i s p now = some (u, q) →
      p.granting → GrantTurn s p u q :=
    fun i s p now u q _ hp h => advance_grantTurn hp h
  exact ⟨hsound.mono fun s hs => hs.1, allSteps_everyTurn hturns hsound⟩

/-- Two calls race for the allowance of one account. The second gets its lock when the
first has committed, and finds it granted. -/
theorem granted_once_a_day_race :
    AllStates (step begin advance) (fun s => OncePerDay s.shared.world)
      ⟨⟨{ blankWorld with users := fun u => if u = 1 then some (newUser "ada") else none }, fun _ => none⟩, []⟩
      [.call (.grant 1), .call (.grant 1), .turn 0 7, .turn 0 8, .turn 0 8, .turn 0 9, .turn 1 9, .turn 1 10, .turn 1 10] :=
  have hblank : OncePerDay { blankWorld with users := fun u => if u = 1 then some (newUser "ada") else none } :=
    fun _ _ => Nat.zero_le 1
  (granted_once_a_day hblank _).1

theorem final_createTransaction {w : World} {draft : TransactionDraft} {user : User}
    (huser : w.users draft.userId = some user) :
    final (createTransaction draft) w =
      if (transactionFor w user draft).balanceAfter < 0 then w else post w (transactionFor w user draft) := by
  split
  next hneg =>
    rw [createTransaction, final_get_bind, huser]
    simp only [hneg, if_true, final_throw_bind]
  next hnonneg => exact final_of_ok (createTransaction_run draft huser (not_lt.mp hnonneg))

/-- A call that no other comes between does what the handler does. -/
theorem grant_alone (w : World) (userId : Uuid) :
    (alone advance w.now 5 ⟨w, fun _ => none⟩ (.grant userId)).1.world = final (grantDailyAllowance userId) w := by
  cases huser : w.users userId with
  | none =>
      simp only [alone, advance, huser, grantDailyAllowance, final_get_bind, final_throw, Option.isSome_none,
        Bool.false_eq_true, if_false]
  | some user =>
      by_cases hactive : user.isActive
      · have hfinal : final (grantDailyAllowance userId) w =
            if grantsSince w userId (dayStart w.now) = [] then
              final (createTransaction (allowanceDraft userId user w.now)) w
            else w := by
          rw [grantDailyAllowance, final_get_bind, huser]
          simp only [hactive, not_true_eq_false, if_false]
          rw [final_bind_of_ok (show utcTodayStart.run w = .ok (dayStart w.now) w from rfl)]
          rw [← grantsSince]
          split
          · next h => rw [if_pos h]; rfl
          · next h => rw [if_neg (by simp [h])]; rfl
          · next h _ => rw [if_neg h]; rfl
        rw [hfinal]
        simp only [alone, advance, huser, hactive, Option.isSome_none, Bool.false_eq_true, if_false, if_true,
          LockedWorld.lock]
        by_cases hnone : grantsSince w userId (dayStart w.now) = []
        · rw [if_pos hnone, if_pos hnone, final_createTransaction huser]
          have hrecorded : recordedAt w w.settings.creditsMaxBalance w.now = w := rfl
          simp only [lt_irrefl, if_false, hrecorded]
          by_cases hneg : (transactionFor w user (allowanceDraft userId user w.now)).balanceAfter < 0
          · simp only [if_pos hneg, LockedWorld.unlock]
          · simp only [if_neg hneg, LockedWorld.unlock]
        · rw [if_neg hnone, if_neg hnone]
          rfl
      · simp only [alone, advance, huser, grantDailyAllowance, hactive, LockedWorld.lock, LockedWorld.unlock,
          final_get_bind, Option.isSome_none, Bool.false_eq_true, if_false, not_false_eq_true, if_true, final_throw_bind]

end NukeLab.DailyAllowance
