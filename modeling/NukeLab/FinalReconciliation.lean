import NukeLab.Billing
import NukeLab.Interleaving

namespace NukeLab.FinalReconciliation

open Program Machine Interleaving Tables Records State Ledger Billing

/-- The last two arguments of a reconciliation are the plan and the balance in
the object its session already holds for the owner, which a query under the row
lock hands back unrefreshed. -/
inductive Request
  | reconcile (server : Server) (plan : ServerPlan) (held : Option Int)
  | record (draft : TransactionDraft)

inductive Phase
  | reconcile (server : Server) (plan : ServerPlan) (held : Option Int)
  | charging (server : Server) (plan : ServerPlan) (held : Option Int) (duration additionalCost balance : Int)
  | charged (server : Server) (amount : Int)
  | record (draft : TransactionDraft)
  | returned (amount : Int)
  | raised (raise : Raise)
  | done

def begin : Request → Phase
  | .reconcile server plan held => .reconcile server plan held
  | .record draft => .record draft

/-- What is left of the cost of the session, when it has a cost. -/
def additionalCost (server : Server) (plan : ServerPlan) : Option (Int × Int) :=
  match server.startedAt, server.stoppedAt with
  | some startedAt, some stoppedAt =>
    let duration := stoppedAt - startedAt
    if plan.costPerHour ≤ 0 ∨ duration ≤ 0 then none
    else
      let additional := max 1 (truncatedCost duration plan.costPerHour) - server.totalCost
      if additional ≤ 0 then none else some (duration, additional)
  | _, _ => none

def chargeDraft (server : Server) (plan : ServerPlan) (duration additional balance : Int) : TransactionDraft :=
  if balance ≥ additional then
    { userId := server.userId, amount := -additional, type := .serverUsage,
      description := "Server usage reconciliation: " ++ reconciliationText server duration plan.costPerHour,
      actorId := none, serverId := some server.id, metadata := [] }
  else
    { userId := server.userId, amount := -balance, type := .serverUsage,
      description :=
        "Partial server usage reconciliation: " ++ reconciliationText server duration plan.costPerHour ++
          ". Remaining " ++ toString (additional - balance) ++ " NUKE unpaid.",
      actorId := none, serverId := some server.id, metadata := [] }

/-- One ledger entry, computed for the user as the session sees the row. -/
def recordFor (s : World) (held : Option Int) (draft : TransactionDraft) : Except Raise World :=
  match s.users draft.userId with
  | none => .error (.http 404 ("User " ++ uuidText draft.userId ++ " not found"))
  | some user =>
    let seen := { user with nukeBalance := held.getD user.nukeBalance }
    let transaction := transactionFor s seen draft
    if transaction.balanceAfter < 0 then
      .error (.http 400 ("Insufficient credits. Current: " ++ toString seen.nukeBalance ++ ", Required: " ++
        toString draft.amount.natAbs))
    else .ok (post s transaction)

/-- `totalCost` is added to in the object read, not in the row. -/
def withCharge (server : Server) (amount : Int) (row : Server) : Server :=
  { row with totalCost := server.totalCost + amount }

theorem id_withCharge (server : Server) (amount : Int) (row : Server) : (withCharge server amount row).id = row.id := rfl

/-- The balance is read in one turn, without a lock, and charged in another. -/
def advance : Advance World Phase Instant := fun _ s p now =>
  match p with
  | .reconcile server plan held =>
    match additionalCost server plan with
    | none => some (s, .returned 0)
    | some (duration, additional) =>
      let balance := balance s server.userId
      if balance ≥ additional ∨ balance > 0 then some (s, .charging server plan held duration additional balance)
      else some (s, .returned 0)
  | .charging server plan held duration additional balance =>
    match recordFor { s with now := now } held (chargeDraft server plan duration additional balance) with
    | .error raise => some (s, .raised raise)
    | .ok u => some (u, .charged server (if balance ≥ additional then additional else balance))
  | .charged server amount =>
    some ({ s with servers := s.servers.modify server.id (withCharge server amount) (id_withCharge server amount) },
      .returned amount)
  | .record draft =>
    match recordFor { s with now := now } none draft with
    | .error raise => some (s, .raised raise)
    | .ok u => some (u, .done)
  | .returned _ | .raised _ | .done => none

/-- The amount left the owner's balance and went to the ledger, and nothing else moved. -/
structure Collected (server : Server) (amount : Int) (s u : World) : Prop where
  balance : ∀ userId, balance u userId = balance s userId - if userId = server.userId then amount else 0
  ledger : ∃ t, u.transactions = s.transactions ++ [t] ∧ t.userId = server.userId ∧ t.amount = -amount ∧
    t.type = .serverUsage ∧ t.serverId = some server.id
  solvent : 0 ≤ Ledger.balance u server.userId

/-- What a turn of a reconciliation is to come to: what is to bill, out of the
balance as it stands, is charged, and nothing is raised. -/
inductive Collects (s : World) : Phase → World → Phase → Prop
  | nothing {server plan held} (h : toBill s server plan = 0) :
      Collects s (.reconcile server plan held) s (.returned 0)
  | read {server plan held duration additional} (h : 0 < toBill s server plan) :
      Collects s (.reconcile server plan held) s
        (.charging server plan held duration additional (balance s server.userId))
  | charged {server plan held duration additional balance u}
      (hcollected : Collected server (toBill s server plan) s u) :
      Collects s (.charging server plan held duration additional balance) u (.charged server (toBill s server plan))
  | recorded {server amount u} (hbalances : ∀ userId, balance u userId = balance s userId)
      (hledger : u.transactions = s.transactions) :
      Collects s (.charged server amount) u (.returned amount)

def Phase.reconciling : Phase → Bool
  | .reconcile _ _ _ | .charging _ _ _ _ _ _ | .charged _ _ => true
  | _ => false

/-- At the charge, the balance covers as much of the debt as when it was read,
and the session does not hold another. -/
def Steady (s : World) : Phase → Prop
  | .charging server plan held _ additional read =>
    toBill s server plan = min additional read ∧ held.getD (balance s server.userId) = balance s server.userId
  | _ => True

instance (s : World) : (p : Phase) → Decidable (Steady s p)
  | .charging _ _ _ _ _ _ => inferInstanceAs (Decidable (_ ∧ _))
  | .reconcile _ _ _ | .charged _ _ | .record _ | .returned _ | .raised _ | .done => .isTrue trivial

def Local (_ : Nat) (_ : World) : Phase → Prop
  | .charging server plan _ duration additional read => additionalCost server plan = some (duration, additional) ∧ 0 < read
  | _ => True

theorem toBill_of_additionalCost_none (s : World) {server : Server} {plan : ServerPlan}
    (h : additionalCost server plan = none) : toBill s server plan = 0 := by
  cases hs : server.startedAt with
  | none => simp only [toBill, hs]
  | some startedAt =>
      cases ht : server.stoppedAt with
      | none => simp only [toBill, hs, ht]
      | some stoppedAt =>
          simp only [additionalCost, hs, ht] at h
          by_cases hfree : plan.costPerHour ≤ 0 ∨ stoppedAt - startedAt ≤ 0
          · exact toBill_of_not_owed s hs ht hfree
          · rw [if_neg hfree] at h
            rw [not_or, not_le, not_le] at hfree
            rw [toBill_of_owed s hs ht hfree.1 hfree.2]
            generalize max 1 (truncatedCost (stoppedAt - startedAt) plan.costPerHour) - server.totalCost = additional at h ⊢
            by_cases hpaid : additional ≤ 0
            · omega
            · cases (if_neg hpaid).symm.trans h

theorem toBill_of_additionalCost (s : World) {server : Server} {plan : ServerPlan} {duration additional : Int}
    (h : additionalCost server plan = some (duration, additional)) :
    0 < additional ∧ toBill s server plan = max 0 (min additional (balance s server.userId)) := by
  cases hs : server.startedAt with
  | none => simp only [additionalCost, hs, reduceCtorEq] at h
  | some startedAt =>
      cases ht : server.stoppedAt with
      | none => simp only [additionalCost, hs, ht, reduceCtorEq] at h
      | some stoppedAt =>
          simp only [additionalCost, hs, ht] at h
          by_cases hfree : plan.costPerHour ≤ 0 ∨ stoppedAt - startedAt ≤ 0
          · exact nomatch (if_pos hfree).symm.trans h
          · rw [if_neg hfree] at h
            rw [not_or, not_le, not_le] at hfree
            rw [toBill_of_owed s hs ht hfree.1 hfree.2]
            generalize max 1 (truncatedCost (stoppedAt - startedAt) plan.costPerHour) - server.totalCost = owed at h ⊢
            by_cases hpaid : owed ≤ 0
            · exact nomatch (if_pos hpaid).symm.trans h
            · rw [if_neg hpaid] at h
              cases h
              exact ⟨not_le.mp hpaid, rfl⟩

theorem advance_local {i : Nat} {s u : World} {p q : Phase} {now : Instant} (h : advance i s p now = some (u, q)) :
    Local i u q := by
  cases p with
  | reconcile server plan held =>
      simp only [advance] at h
      split at h
      · cases h
        trivial
      next hcost =>
        split at h
        next hread =>
          cases h
          have hpos := (toBill_of_additionalCost s hcost).1
          exact ⟨hcost, by omega⟩
        · cases h
          trivial
  | charging | record =>
      simp only [advance] at h
      split at h <;> (cases h; trivial)
  | charged =>
      cases h
      trivial
  | returned | raised | done => exact nomatch h

theorem chargeDraft_amount (server : Server) (plan : ServerPlan) (duration additional read : Int) :
    (chargeDraft server plan duration additional read).amount = -min additional read ∧
      (chargeDraft server plan duration additional read).userId = server.userId ∧
      (chargeDraft server plan duration additional read).type = .serverUsage ∧
      (chargeDraft server plan duration additional read).serverId = some server.id := by
  rw [chargeDraft]
  split
  next h => exact ⟨by rw [min_eq_left h], rfl, rfl, rfl⟩
  next h => exact ⟨by rw [min_eq_right (not_le.mp h).le], rfl, rfl, rfl⟩

/-- A debit is refused when the balance the session sees is short of it, and is
posted against that balance otherwise. -/
theorem recordFor_debit {s : World} (held : Option Int) {draft : TransactionDraft} {user : User} {amount : Int}
    (huser : s.users draft.userId = some user) (hamount : draft.amount = -amount) (hpos : 0 ≤ amount) :
    if held.getD user.nukeBalance < amount then ∃ raise, recordFor s held draft = .error raise
    else ∃ t, recordFor s held draft = .ok (post s t) ∧ t.userId = draft.userId ∧ t.amount = -amount ∧
      t.balanceAfter = held.getD user.nukeBalance - amount ∧ t.type = draft.type ∧ t.serverId = draft.serverId := by
  let seen := { user with nukeBalance := held.getD user.nukeBalance }
  have heff : (transactionFor s seen draft).amount = -amount := by
    rw [← hamount]
    exact effectiveAmount_of_nonpos (by omega)
  have hafter : (transactionFor s seen draft).balanceAfter = held.getD user.nukeBalance - amount := by
    rw [sub_eq_add_neg, ← heff]
    rfl
  split
  next hshort =>
    simp only [recordFor, huser]
    exact ⟨_, if_pos (by rw [hafter]; omega)⟩
  next hcovers =>
    refine ⟨transactionFor s seen draft, ?_, rfl, heff, hafter, rfl, rfl⟩
    simp only [recordFor, huser]
    exact if_neg (by rw [hafter]; omega)

theorem balance_post_self {s : World} {t : CreditTransaction} {user : User} (huser : s.users t.userId = some user) :
    balance (post s t) t.userId = t.balanceAfter := by
  simp only [balance, post, Function.update_self, huser, Option.map_some]

theorem balance_post_of_ne {s : World} {t : CreditTransaction} {userId : Uuid} (h : userId ≠ t.userId) :
    balance (post s t) userId = balance s userId := by
  simp only [balance, post, Function.update_of_ne h]

theorem charging_collects_iff {i : Nat} {s u : World} {server : Server} {plan : ServerPlan} {held : Option Int}
    {duration additional read : Int} {q : Phase} {now : Instant}
    (hp : Local i s (.charging server plan held duration additional read))
    (h : advance i s (.charging server plan held duration additional read) now = some (u, q)) :
    Collects s (.charging server plan held duration additional read) u q ↔
      Steady s (.charging server plan held duration additional read) := by
  obtain ⟨hcost, hread⟩ := hp
  obtain ⟨hadditional, hbill⟩ := toBill_of_additionalCost s hcost
  obtain ⟨hamount, huserId, htype, hserverId⟩ := chargeDraft_amount server plan duration additional read
  have hasked : (if read ≥ additional then additional else read) = min additional read := by
    split
    next hle => rw [min_eq_left hle]
    next hlt => rw [min_eq_right (not_le.mp hlt).le]
  simp only [advance, hasked] at h
  generalize hdraft : chargeDraft server plan duration additional read = draft at h hamount huserId htype hserverId
  have hasking : 0 < min additional read := lt_min hadditional hread
  simp only [Steady]
  generalize min additional read = amount at *
  cases huser : s.users server.userId with
  | none =>
      have hbalance : balance s server.userId = 0 := by simp only [balance, huser]
      have herror : recordFor { s with now := now } held draft =
          .error (.http 404 ("User " ++ uuidText draft.userId ++ " not found")) := by
        simp only [recordFor, huserId, huser]
      rw [herror] at h
      cases h
      constructor
      · exact fun hc => by cases hc
      · intro hsteady
        omega
  | some user =>
      have hbalance : balance s server.userId = user.nukeBalance := by simp only [balance, huser]
      have hdebit := recordFor_debit (s := { s with now := now }) held (huserId ▸ huser) hamount hasking.le
      by_cases hshort : held.getD user.nukeBalance < amount
      · rw [if_pos hshort] at hdebit
        obtain ⟨raise, hraise⟩ := hdebit
        rw [hraise] at h
        cases h
        constructor
        · exact fun hc => by cases hc
        · rintro ⟨hsame, hseen⟩
          rw [hbalance] at hseen
          omega
      · rw [if_neg hshort] at hdebit
        obtain ⟨t, ht, htuser, htamount, htafter, httype, htserver⟩ := hdebit
        rw [ht] at h
        cases h
        have htserverUser : t.userId = server.userId := htuser.trans huserId
        have hself : balance (post { s with now := now } t) server.userId = t.balanceAfter := by
          rw [← htserverUser]
          exact balance_post_self (s := { s with now := now }) (htserverUser ▸ huser)
        constructor
        · rintro (_ | _ | hcollected | _)
          have hmoved := hcollected.balance server.userId
          rw [if_pos rfl, hself, htafter, hbalance] at hmoved
          refine ⟨rfl, ?_⟩
          rw [hbalance]
          omega
        · rintro ⟨hsame, hseen⟩
          have hcurrent : held.getD user.nukeBalance = user.nukeBalance := by rwa [hbalance] at hseen
          rw [← hsame]
          refine .charged ⟨fun userId => ?_, ⟨t, rfl, htserverUser, hsame ▸ htamount, httype.trans htype,
            htserver.trans hserverId⟩, ?_⟩
          · by_cases hu : userId = server.userId
            · rw [hu, if_pos rfl, hself, htafter, hcurrent, hbalance, hsame]
            · rw [if_neg hu, sub_zero, balance_post_of_ne (htserverUser.symm ▸ hu)]
              rfl
          · rw [hself, htafter]
            omega

theorem turn_collects_iff {i : Nat} {s u : World} {p q : Phase} {now : Instant} (hp : Local i s p)
    (h : advance i s p now = some (u, q)) (hreconciling : p.reconciling) : Collects s p u q ↔ Steady s p := by
  cases p with
  | reconcile server plan held =>
      refine iff_of_true ?_ trivial
      simp only [advance] at h
      split at h
      next hcost =>
        cases h
        exact .nothing (toBill_of_additionalCost_none s hcost)
      next duration additional hcost =>
        obtain ⟨hadditional, hbill⟩ := toBill_of_additionalCost s hcost
        split at h
        · cases h
          exact .read (by omega)
        · cases h
          exact .nothing (by omega)
  | charging server plan held duration additional read => exact charging_collects_iff hp h
  | charged server amount =>
      cases h
      exact iff_of_true (.recorded (fun _ => rfl) rfl) trivial
  | record | returned | raised | done => exact nomatch hreconciling

/-- A run's reconciliations all charge what there is to bill, and raise nothing,
exactly when no balance moves under one between its reading and its charge in a
way that tells, and none is charged against a balance its session still holds. -/
theorem reconciliations_collect_iff (prior : World) (events : List (Event Request Instant)) :
    AllSteps (step begin advance) (EveryTurn advance fun _ s p u q => p.reconciling → Collects s p u q) ⟨prior, []⟩ events ↔
      AllSteps (step begin advance) (Before Steady) ⟨prior, []⟩ events := by
  have hsound : AllStates (step begin advance) (Sound (fun _ => True) Local) ⟨prior, []⟩ events := by
    apply allStates_sound
    · intro i s request _
      cases request <;> trivial
    · exact fun i s p now u q _ _ h => ⟨trivial, advance_local h⟩
    · intro i s p now u q j r _ _ _ hr _
      cases r <;> exact hr
    · exact ⟨trivial, fun i p hp => nomatch hp⟩
  apply allSteps_everyTurn_iff _ hsound
  intro i s p now u q _ hp h
  by_cases hreconciling : p.reconciling
  · rw [forall_prop_of_true hreconciling]
    exact turn_collects_iff hp h hreconciling
  · refine iff_of_true (fun h => absurd h hreconciling) ?_
    cases p with
    | reconcile | charging | charged => exact absurd rfl hreconciling
    | record | returned | raised | done => trivial

def hourRun : Server :=
  { newServer 5 1 3 50 "lab" 0 with status := .stopped, stoppedAt := some hour }

def owned : World :=
  { blankWorld with users := fun u => if u = 1 then some { newUser "ada" with nukeBalance := 10 } else none }

def spend (amount : Int) : TransactionDraft where
  userId := 1
  amount := -amount
  type := .serverUsage
  description := "Server usage"
  actorId := none
  serverId := none
  metadata := []

/-- Another charge comes between: the stop is refused for want of credits. -/
theorem spent_between_not_collected :
    ¬ AllSteps (step begin advance) (EveryTurn advance fun _ s p u q => p.reconciling → Collects s p u q) ⟨owned, []⟩
      [.call (.reconcile hourRun (newPlan "small" 7) none), .call (.record (spend 5)), .turn 0 hour, .turn 1 hour,
        .turn 0 hour] := by
  rw [reconciliations_collect_iff]
  decide +kernel

theorem createTransaction_recordFor (w : World) (draft : TransactionDraft) :
    match recordFor w none draft with
    | .ok u => ∃ t, (createTransaction draft).run w = .ok t u
    | .error raise => (createTransaction draft).run w = .error raise w := by
  cases huser : w.users draft.userId with
  | none => simp only [recordFor, createTransaction, huser, EStateM.run_bind, EStateM.run_get, run_throw]
  | some user =>
      by_cases hneg : (transactionFor w user draft).balanceAfter < 0
      · simp only [recordFor, createTransaction, huser, EStateM.run_bind, EStateM.run_get, Option.getD_none, hneg, if_true,
          run_throw]
      · have hrun := createTransaction_run draft huser (not_lt.mp hneg)
        simp only [recordFor, huser, Option.getD_none, hneg, if_false, hrun, EStateM.Result.ok.injEq, and_true, exists_eq']

theorem charging_alone (w : World) (server : Server) (plan : ServerPlan) (duration additional read : Int)
    (description : String)
    (hdraft : chargeDraft server plan duration additional read =
      { userId := server.userId, amount := -min additional read, type := .serverUsage, description := description,
        actorId := none, serverId := some server.id, metadata := [] }) :
    (alone advance w.now 2 w (.charging server plan none duration additional read)).1 =
      final (chargeServer server (min additional read) description) w := by
  have hasked : (if read ≥ additional then additional else read) = min additional read := by
    split
    next hle => rw [min_eq_left hle]
    next hlt => rw [min_eq_right (not_le.mp hlt).le]
  have hcharge := createTransaction_recordFor w (chargeDraft server plan duration additional read)
  cases hrecord : recordFor w none (chargeDraft server plan duration additional read) with
  | ok u =>
      simp only [hrecord] at hcharge
      obtain ⟨t, ht⟩ := hcharge
      have hturn : advance 0 w (.charging server plan none duration additional read) w.now =
          some (u, .charged server (min additional read)) := by
        simp only [advance, hasked, hrecord]
      rw [hdraft] at ht
      rw [alone_of_some hturn, chargeServer, consumeCredits, final_bind_of_ok ht]
      rfl
  | error raise =>
      simp only [hrecord] at hcharge
      have hturn : advance 0 w (.charging server plan none duration additional read) w.now = some (w, .raised raise) := by
        simp only [advance, hrecord]
      rw [hdraft] at hcharge
      rw [alone_of_some hturn, alone_of_none rfl, chargeServer, consumeCredits, final_bind, hcharge]

/-- A reconciliation that no other call comes between does what the handler does. -/
theorem reconcile_alone (w : World) (server : Server) (plan : ServerPlan) :
    (alone advance w.now 3 w (.reconcile server plan none)).1 = final (reconcileServerBilling server plan) w := by
  cases hs : server.startedAt with
  | none => simp only [alone, advance, additionalCost, reconcileServerBilling, hs, final_pure]
  | some startedAt =>
      cases ht : server.stoppedAt with
      | none => simp only [alone, advance, additionalCost, reconcileServerBilling, hs, ht, final_pure]
      | some stoppedAt =>
          rw [alone]
          simp only [advance, additionalCost, reconcileServerBilling, hs, ht]
          by_cases hcost : plan.costPerHour ≤ 0
          · simp only [hcost, true_or, if_true, alone, advance, final_pure]
          by_cases hduration : stoppedAt - startedAt ≤ 0
          · simp only [hcost, hduration, or_true, if_true, if_false, alone, advance, final_pure]
          simp only [hcost, hduration, or_self, if_false]
          generalize max 1 (truncatedCost (stoppedAt - startedAt) plan.costPerHour) - server.totalCost = additional
          by_cases hadditional : additional ≤ 0
          · simp only [hadditional, if_true, alone, advance, final_pure]
          simp only [hadditional, if_false]
          rw [final_bind_of_ok (run_getBalance server.userId w)]
          by_cases hcovers : balance w server.userId ≥ additional
          · simp only [hcovers, true_or, if_true]
            rw [charging_alone w server plan _ additional _ _ (by rw [chargeDraft, if_pos hcovers, min_eq_left hcovers]),
              min_eq_left hcovers, final_bind_pure]
          by_cases hsome : balance w server.userId > 0
          · simp only [hcovers, hsome, or_true, if_true, if_false]
            rw [charging_alone w server plan _ additional _ _
                (by rw [chargeDraft, if_neg hcovers, min_eq_right (not_le.mp hcovers).le]),
              min_eq_right (not_le.mp hcovers).le, final_bind_pure]
          · simp only [hcovers, hsome, or_self, if_false, final_pure]
            exact congrArg Prod.fst (alone_of_none rfl)

end NukeLab.FinalReconciliation
