import NukeLab.Conservation
import NukeLab.DailyAllowance
import NukeLab.FinalReconciliation

namespace NukeLab.BalanceSessions

open Program Machine Interleaving Records State Ledger Conservation
open DailyAllowance (LockedWorld dayStart allowanceDraft grantsSince grantsOn recordedAt)
open FinalReconciliation (additionalCost chargeDraft)

/-- What a session is asked to do. A grant, a deduction and a consumption are the
entries they record; any query for a user's row loads it. -/
inductive Operation
  | load (userId : Uuid)
  | record (draft : TransactionDraft)
  | dailyAllowance (userId : Uuid)
  | reconcile (server : Server) (plan : ServerPlan)
  | forget (userId : Uuid)
  | commit
  | rollback

inductive Stage
  | idle
  | recording (draft : TransactionDraft)
  | locked (draft : TransactionDraft) (user : User)
  | priced (draft : TransactionDraft) (user : User) (maxBalance : Int)
  | allowed (userId : Uuid) (user : User)
  | checked (userId : Uuid) (user : User)

/-- A session keeps the objects it has loaded until it rolls back or lets go of them. -/
structure Session where
  held : Uuid → Option User
  stage : Stage
  todo : List Operation

structure Answer where
  now : Instant
  fails : Bool

def begin (todo : List Operation) : Session := ⟨fun _ => none, .idle, todo⟩

def release (s : LockedWorld) (i : Nat) : LockedWorld :=
  { s with lockedBy := fun userId => if s.lockedBy userId = some i then none else s.lockedBy userId }

def Session.hold (p : Session) (userId : Uuid) (user : Option User) : Session :=
  { p with held := Function.update p.held userId user }

/-- The row is locked, and the object that the session holds for it already is
handed back as it is. -/
def lockRow (i : Nat) (s : LockedWorld) (p : Session) (userId : Uuid) (next : User → Stage) :
    Option (LockedWorld × Session) :=
  if s.lockedBy userId = none ∨ s.lockedBy userId = some i then
    match s.world.users userId with
    | none => some (s, { p with stage := .idle })
    | some row =>
      let user := (p.held userId).getD row
      some (s.lock userId i, { p.hold userId (some user) with stage := next user })
  else none

def start (i : Nat) (s : LockedWorld) (p : Session) : Operation → Option (LockedWorld × Session)
  | .load userId => some (s, p.hold userId (p.held userId <|> s.world.users userId))
  | .record draft => lockRow i s p draft.userId (.locked draft)
  | .dailyAllowance userId => lockRow i s p userId fun user => if user.isActive then .allowed userId user else .idle
  | .reconcile server plan =>
    match additionalCost server plan with
    | none => some (s, p)
    | some (duration, additional) =>
      let balance := balance s.world server.userId
      if balance ≥ additional ∨ balance > 0 then
        some (s, { p with stage := .recording (chargeDraft server plan duration additional balance) })
      else some (s, p)
  | .forget userId => some (s, p.hold userId none)
  | .commit => some (release s i, p)
  | .rollback => some (release s i, { p with held := fun _ => none })

/-- A balance that comes to what the object had is not written. -/
def flush (w : World) (user : User) (transaction : CreditTransaction) : World :=
  if transaction.balanceAfter = user.nukeBalance then { post w transaction with users := w.users }
  else post w transaction

/-- One statement of a session. An entry that is refused leaves the row locked,
and what fails in the database rolls back; so does a second allowance of a day. -/
def advance : Advance LockedWorld Session Answer := fun i s p answer =>
  if answer.fails then some (release s i, ⟨fun _ => none, .idle, p.todo⟩)
  else
    match p.stage with
    | .idle =>
      match p.todo with
      | [] => none
      | operation :: rest => start i s { p with todo := rest } operation
    | .recording draft => lockRow i s p draft.userId (.locked draft)
    | .locked draft user => some (s, { p with stage := .priced draft user s.world.settings.creditsMaxBalance })
    | .priced draft user maxBalance =>
      let transaction := transactionFor (recordedAt s.world maxBalance answer.now) user draft
      if transaction.balanceAfter < 0 then some (s, { p with stage := .idle })
      else if draft.type = .dailyAllowance ∧ grantsOn s.world.transactions draft.userId (answer.now / day) ≠ [] then
        some (release s i, ⟨fun _ => none, .idle, p.todo⟩)
      else
        some (release { s with world := flush s.world user transaction } i,
          { p.hold draft.userId (some { user with nukeBalance := transaction.balanceAfter }) with stage := .idle })
    | .allowed userId user =>
      if grantsSince s.world userId (dayStart answer.now) = [] then
        some (s, { p with stage := .checked userId user })
      else some (s, { p with stage := .idle })
    | .checked userId user => some (s, { p with stage := .recording (allowanceDraft userId user answer.now) })

/-- The entries recorded since the start are what the balances have moved by. -/
def Conserved (start w : World) : Prop :=
  ∃ applied, w.transactions = start.transactions ++ applied ∧
    ∀ userId, balance w userId = balance start userId + sumOf (applied.filter fun t => t.userId = userId)

def Session.locking (p : Session) : Option Uuid :=
  match p.stage, p.todo with
  | .recording draft, _ => some draft.userId
  | .idle, .record draft :: _ => some draft.userId
  | .idle, .dailyAllowance userId :: _ => some userId
  | _, _ => none

def Current (s : LockedWorld) (p : Session) : Prop :=
  ∀ userId ∈ p.locking, ∀ user ∈ p.held userId, user.nukeBalance = balance s.world userId

instance (s : LockedWorld) (p : Session) : Decidable (Current s p) :=
  inferInstanceAs (Decidable (∀ userId ∈ p.locking, ∀ user ∈ p.held userId, user.nukeBalance = balance s.world userId))

/-- The object that an entry is computed on, and whose row it stands for. -/
def Stage.copy : Stage → Option (Uuid × User)
  | .locked draft user | .priced draft user _ => some (draft.userId, user)
  | _ => none

def Mirrors (i : Nat) (s : LockedWorld) (userId : Uuid) (user : User) : Prop :=
  s.lockedBy userId = some i ∧ ∃ row, s.world.users userId = some row ∧ row.nukeBalance = user.nukeBalance

def Local (i : Nat) (s : LockedWorld) (p : Session) : Prop := ∀ c ∈ p.stage.copy, Mirrors i s c.1 c.2

inductive Turned (i : Nat) (s : LockedWorld) (p : Session) : LockedWorld → Session → Prop
  | quiet {q : Session} (hq : q.stage.copy = none) : Turned i s p s q
  | released {q : Session} (hq : q.stage.copy = none) : Turned i s p (release s i) q
  | locked {userId : Uuid} {row : User} {q : Session} (hfree : s.lockedBy userId = none ∨ s.lockedBy userId = some i)
      (hlocking : p.locking = some userId) (hrow : s.world.users userId = some row)
      (hq : ∀ c ∈ q.stage.copy, c = (userId, (p.held userId).getD row)) : Turned i s p (s.lock userId i) q
  | priced {q : Session} (hq : q.stage.copy = p.stage.copy) : Turned i s p s q
  | recorded {draft : TransactionDraft} {user : User} {maxBalance : Int} {now : Instant} {q : Session}
      (hp : p.stage.copy = some (draft.userId, user)) (hq : q.stage.copy = none) :
      Turned i s p
        (release { s with world := flush s.world user (transactionFor (recordedAt s.world maxBalance now) user draft) } i) q

variable {i : Nat} {s u : LockedWorld} {p q : Session} {answer : Answer}

theorem lockRow_turned {r : Session} {userId : Uuid} {next : User → Stage}
    (h : lockRow i s r userId next = some (u, q)) (hheld : r.held = p.held) (hlocking : p.locking = some userId)
    (hnext : ∀ user, ∀ c ∈ (next user).copy, c = (userId, user)) : Turned i s p u q := by
  rw [lockRow] at h
  split at h
  next hfree =>
    split at h
    · cases h
      exact .quiet rfl
    next row hrow =>
      cases h
      apply Turned.locked hfree hlocking hrow
      rw [← hheld]
      exact hnext _
  · cases h

theorem copy_locked (draft : TransactionDraft) (user : User) :
    ∀ c ∈ (Stage.locked draft user).copy, c = (draft.userId, user) := fun _ hc => (Option.some.inj hc).symm

theorem start_turned {operation : Operation} {rest : List Operation} (hidle : p.stage = .idle)
    (htodo : p.todo = operation :: rest) (h : start i s { p with todo := rest } operation = some (u, q)) :
    Turned i s p u q := by
  have hcopy : p.stage.copy = none := by rw [hidle]; rfl
  cases operation with
  | load | forget =>
      cases h
      exact .quiet hcopy
  | commit | rollback =>
      cases h
      exact .released hcopy
  | record draft =>
      rw [start] at h
      exact lockRow_turned h rfl (by rw [Session.locking, hidle, htodo]) (copy_locked draft)
  | dailyAllowance userId =>
      rw [start] at h
      refine lockRow_turned h rfl (by rw [Session.locking, hidle, htodo]) ?_
      intro user c hc
      by_cases hactive : user.isActive
      · rw [if_pos hactive] at hc
        cases hc
      · rw [if_neg hactive] at hc
        cases hc
  | reconcile server plan =>
      simp only [start] at h
      split at h
      · cases h
        exact .quiet hcopy
      · split at h
        · cases h
          exact .quiet rfl
        · cases h
          exact .quiet hcopy

theorem advance_turned (h : advance i s p answer = some (u, q)) : Turned i s p u q := by
  rw [advance] at h
  split at h
  · cases h
    exact .released rfl
  · split at h
    next hstage =>
      split at h
      · cases h
      next htodo => exact start_turned hstage htodo h
    next draft hstage => exact lockRow_turned h rfl (by rw [Session.locking, hstage]) (copy_locked draft)
    next hstage =>
      cases h
      exact .priced (by rw [hstage]; rfl)
    next hstage =>
      dsimp only at h
      split at h
      · cases h
        exact .quiet rfl
      · split at h
        · cases h
          exact .released rfl
        · cases h
          exact .recorded (by rw [hstage]; rfl) rfl
    · split at h <;> (cases h; exact .quiet rfl)
    · cases h
      exact .quiet rfl

theorem lockedBy_release_of_ne {j : Nat} (hj : j ≠ i) {userId : Uuid} (h : s.lockedBy userId = some j) :
    (release s i).lockedBy userId = some j := by
  have hother : s.lockedBy userId ≠ some i := by
    rw [h]
    exact fun hi => hj (Option.some.inj hi)
  exact (if_neg hother).trans h

theorem users_flush_of_ne {w : World} {user : User} {t : CreditTransaction} {userId : Uuid} (h : userId ≠ t.userId) :
    (flush w user t).users userId = w.users userId := by
  rw [flush]
  split
  · rfl
  · exact Function.update_of_ne h _ _

theorem Turned.kept (hlocal : Local i s p) (h : Turned i s p u q) {j : Nat} (hj : j ≠ i) {userId : Uuid}
    (hlock : s.lockedBy userId = some j) :
    u.lockedBy userId = some j ∧ u.world.users userId = s.world.users userId := by
  cases h with
  | quiet | priced => exact ⟨hlock, rfl⟩
  | released => exact ⟨lockedBy_release_of_ne hj hlock, rfl⟩
  | @locked other _ _ hfree =>
      have hne : userId ≠ other := by
        rintro rfl
        rw [hlock] at hfree
        rcases hfree with hfree | hfree
        · cases hfree
        · exact hj (Option.some.inj hfree)
      exact ⟨(Function.update_of_ne hne _ _).trans hlock, rfl⟩
  | @recorded draft _ _ _ _ hp =>
      have hmine := (hlocal _ hp).1
      have hne : userId ≠ draft.userId := by
        rintro rfl
        exact hj (Option.some.inj (hlock.symm.trans hmine))
      exact ⟨lockedBy_release_of_ne hj hlock, users_flush_of_ne hne⟩

theorem Turned.local_other (hlocal : Local i s p) (h : Turned i s p u q) {j : Nat} (hj : j ≠ i) {r : Session}
    (hr : Local j s r) : Local j u r := by
  intro c hc
  obtain ⟨hlock, row, hrow, hbalance⟩ := hr c hc
  obtain ⟨hlock', hrow'⟩ := h.kept hlocal hj hlock
  exact ⟨hlock', row, hrow'.trans hrow, hbalance⟩

theorem Turned.local_own (hlocal : Local i s p) (hcurrent : Current s p) (h : Turned i s p u q) : Local i u q := by
  cases h with
  | quiet hq | released hq | recorded _ hq =>
      intro c hc
      rw [hq] at hc
      cases hc
  | @locked userId row _ _ hlocking hrow hq =>
      intro c hc
      rw [hq c hc]
      refine ⟨Function.update_self _ _ _, row, hrow, ?_⟩
      cases hheld : p.held userId with
      | none => rfl
      | some user =>
          have hsame := hcurrent userId hlocking user hheld
          rw [balance, hrow] at hsame
          exact hsame.symm
  | priced hq =>
      intro c hc
      rw [hq] at hc
      exact hlocal c hc

theorem balance_flush {w : World} {user row : User} {t : CreditTransaction} (hrow : w.users t.userId = some row)
    (hmirror : row.nukeBalance = user.nukeBalance) (hafter : t.balanceAfter = user.nukeBalance + t.amount)
    (userId : Uuid) : balance (flush w user t) userId = balance w userId + if t.userId = userId then t.amount else 0 := by
  have hrowBalance : balance w t.userId = user.nukeBalance := by rw [balance, hrow, ← hmirror]
  rw [flush]
  split
  next hunchanged =>
    have hzero : t.amount = 0 := by omega
    change balance w userId = _
    rw [hzero, ite_self, add_zero]
  · by_cases hself : t.userId = userId
    · subst hself
      rw [balance_post_self hrow, if_pos rfl, hrowBalance, hafter]
    · rw [balance_post_of_ne (Ne.symm hself), if_neg hself, add_zero]

theorem transactions_flush (w : World) (user : User) (t : CreditTransaction) :
    (flush w user t).transactions = w.transactions ++ [t] := by
  rw [flush]
  split <;> rfl

theorem Conserved.balance {start w : World} (h : Conserved start w) (userId : Uuid) :
    balance w userId = balance start userId + sumOf (ledgerOf w userId) - sumOf (ledgerOf start userId) := by
  obtain ⟨applied, hrows, hbalance⟩ := h
  rw [hbalance, ledgerOf, ledgerOf, hrows, List.filter_append, sumOf_append]
  omega

theorem Conserved.flush {start w : World} {user row : User} {t : CreditTransaction} (h : Conserved start w)
    (hrow : w.users t.userId = some row) (hmirror : row.nukeBalance = user.nukeBalance)
    (hafter : t.balanceAfter = user.nukeBalance + t.amount) : Conserved start (flush w user t) := by
  obtain ⟨applied, hrows, hbalance⟩ := h
  refine ⟨applied ++ [t], by rw [transactions_flush, hrows, List.append_assoc], fun userId => ?_⟩
  rw [balance_flush hrow hmirror hafter, hbalance, List.filter_append, sumOf_append, List.filter_cons, List.filter_nil]
  by_cases hself : t.userId = userId
  · simp only [hself, if_true, decide_true, sumOf_singleton]
    omega
  · simp only [hself, if_false, decide_false, Bool.false_eq_true]
    rw [add_assoc]
    rfl

theorem Turned.conserved {start : World} (hs : Conserved start s.world) (hlocal : Local i s p)
    (h : Turned i s p u q) : Conserved start u.world := by
  cases h with
  | quiet | released | locked | priced => exact hs
  | recorded hp =>
      obtain ⟨_, row, hrow, hmirror⟩ := hlocal _ hp
      exact hs.flush hrow hmirror rfl

/-- Where no session locks a row of which it holds an object with another
balance, no update of a balance is lost. -/
theorem balances_conserved (start : World) (events : List (Event (List Operation) Answer))
    (h : AllSteps (step begin advance) (Before Current) ⟨⟨start, fun _ => none⟩, []⟩ events) :
    AllStates (step begin advance) (fun s => Conserved start s.shared.world) ⟨⟨start, fun _ => none⟩, []⟩ events := by
  have hstart : Conserved start start := ⟨[], (List.append_nil _).symm, fun _ => (add_zero _).symm⟩
  have hsound : AllStates (step begin advance) (Sound (fun s : LockedWorld => Conserved start s.world) Local)
      ⟨⟨start, fun _ => none⟩, []⟩ events := by
    apply allStates_of_allSteps _ ⟨hstart, fun i p hp => nomatch hp⟩ h
    intro s e t hs hcurrent ht
    apply hs.step hcurrent ht
    · intro i s todo _ c hc
      cases hc
    · intro i s p answer u q hs hlocal hcurrent hturn
      have hturned := advance_turned hturn
      exact ⟨hturned.conserved hs hlocal, hturned.local_own hlocal hcurrent⟩
    · intro i s p answer u q j r hj _ hlocal hr hturn
      exact (advance_turned hturn).local_other hlocal hj hr
  exact hsound.mono fun s hs => hs.1

def adaWorld : World :=
  { blankWorld with users := fun u => if u = 1 then some { newUser "ada" with nukeBalance := 0 } else none }

def grantToSelf : List Operation :=
  [.load 1, .record ⟨1, 10, .adminGrant, "Admin grant: thanks", some 1, none, []⟩]

def turn (i : Nat) : Event (List Operation) Answer := .turn i ⟨0, false⟩

def grantTurns (i : Nat) : List (Event (List Operation) Answer) := [turn i, turn i, turn i, turn i]

/-- One grant after the other. -/
theorem balances_conserved_in_turn :
    AllStates (step begin advance) (fun s => Conserved adaWorld s.shared.world) ⟨⟨adaWorld, fun _ => none⟩, []⟩
      (.call grantToSelf :: grantTurns 0 ++ .call grantToSelf :: grantTurns 1) :=
  balances_conserved adaWorld _ (by decide +kernel)

def bothLoaded : List (Event (List Operation) Answer) :=
  [.call grantToSelf, .call grantToSelf, turn 0, turn 1] ++
    [turn 0, turn 0, turn 0, turn 1, turn 1, turn 1]

theorem grant_lost :
    ¬ ∀ (start : World) (events : List (Event (List Operation) Answer)),
      AllStates (step begin advance) (fun s => Conserved start s.shared.world) ⟨⟨start, fun _ => none⟩, []⟩ events := by
  intro h
  have hend : ∃ t, run (step begin advance) ⟨⟨adaWorld, fun _ => none⟩, []⟩ bothLoaded = some t ∧
      balance t.shared.world 1 = 10 ∧ sumOf (ledgerOf t.shared.world 1) = 20 :=
    ⟨_, rfl, by decide +kernel, by decide +kernel⟩
  obtain ⟨t, hrun, hbalance, hledger⟩ := hend
  have hmoved := ((h adaWorld bothLoaded).last hrun).balance 1
  rw [hbalance, hledger] at hmoved
  revert hmoved
  decide

theorem flush_eq_post {w : World} {user : User} {t : CreditTransaction} (huser : w.users t.userId = some user) :
    flush w user t = post w t := by
  rw [flush]
  split
  next hunchanged =>
    have hsame : { user with nukeBalance := t.balanceAfter } = user := by rw [hunchanged]
    rw [post, huser, Option.map_some, hsame, ← huser, Function.update_eq_self]
  · rfl

/-- An entry that a new session records with no other in between is the one that
the handler records. -/
theorem record_alone (w : World) (draft : TransactionDraft) (htype : draft.type ≠ .dailyAllowance) :
    (alone advance ⟨w.now, false⟩ 3 ⟨w, fun _ => none⟩ (begin [.record draft])).1.world =
      final (createTransaction draft) w := by
  cases huser : w.users draft.userId with
  | none =>
      rw [createTransaction, final_get_bind, huser]
      simp only [alone, advance, begin, start, lockRow, huser, final_throw, Bool.false_eq_true, if_false, true_or, if_true]
  | some user =>
      have hrecorded : recordedAt w w.settings.creditsMaxBalance w.now = w := rfl
      rw [DailyAllowance.final_createTransaction huser]
      simp only [alone, advance, begin, start, lockRow, huser, Bool.false_eq_true, if_false, true_or, if_true,
        Option.getD_none, LockedWorld.lock, hrecorded, htype, false_and]
      by_cases hneg : (transactionFor w user draft).balanceAfter < 0
      · simp only [if_pos hneg]
      · simp only [if_neg hneg]
        exact flush_eq_post huser

theorem allowance_alone (w : World) (userId : Uuid) :
    (alone advance ⟨w.now, false⟩ 6 ⟨w, fun _ => none⟩ (begin [.dailyAllowance userId])).1.world =
      final (grantDailyAllowance userId) w := by
  rw [← DailyAllowance.grant_alone]
  cases huser : w.users userId with
  | none =>
      simp only [alone, advance, begin, start, lockRow, DailyAllowance.advance, huser, Option.isSome_none,
        Bool.false_eq_true, if_false, true_or, if_true]
  | some user =>
      by_cases hactive : user.isActive
      · by_cases hnone : grantsSince w userId (dayStart w.now) = []
        · have hrecorded : recordedAt w w.settings.creditsMaxBalance w.now = w := rfl
          have hfirst : grantsOn w.transactions userId (w.now / day) = [] :=
            DailyAllowance.grantsOn_of_grantsSince hnone le_rfl
          have hdraft : (allowanceDraft userId user w.now).userId = userId := rfl
          by_cases hneg : (transactionFor w user (allowanceDraft userId user w.now)).balanceAfter < 0
          · simp only [alone, advance, begin, start, lockRow, DailyAllowance.advance, huser, Option.isSome_none, hactive,
              Option.getD_none, Bool.false_eq_true, if_false, true_or, if_true, hnone, hdraft, LockedWorld.lock, Session.hold,
              Function.update_self, or_true, Option.getD_some, hrecorded, if_pos hneg, lt_irrefl, LockedWorld.unlock]
          · simp only [alone, advance, begin, start, lockRow, DailyAllowance.advance, huser, Option.isSome_none, hactive,
              Option.getD_none, Bool.false_eq_true, if_false, true_or, if_true, hnone, hdraft, LockedWorld.lock, Session.hold,
              Function.update_self, or_true, Option.getD_some, hrecorded, if_neg hneg, lt_irrefl, LockedWorld.unlock, hfirst,
              ne_eq, not_true_eq_false, and_false]
            exact flush_eq_post huser
        · simp only [alone, advance, begin, start, lockRow, DailyAllowance.advance, huser, Option.isSome_none, hactive,
            Option.getD_none, Bool.false_eq_true, if_false, true_or, if_true, LockedWorld.lock, if_neg hnone, Session.hold,
            LockedWorld.unlock]
      · simp only [alone, advance, begin, start, lockRow, DailyAllowance.advance, huser, Option.isSome_none, hactive,
          Option.getD_none, Bool.false_eq_true, if_false, true_or, if_true, LockedWorld.lock, LockedWorld.unlock, Session.hold]

end NukeLab.BalanceSessions
