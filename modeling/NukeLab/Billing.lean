import NukeLab.Double
import NukeLab.Ledger
import NukeLab.GpuAllocator
import NukeLab.Spawner

namespace NukeLab.Billing

open Double Records State Ledger GpuAllocator

/-- The cost of an exact runtime, in the float arithmetic of the service: the
microseconds as seconds, as hours, times the hourly cost, truncated. -/
def truncatedCost (duration : Int) (costPerHour : Int) : Int :=
  ⌊mul (div (div duration 1000000) 3600) costPerHour⌋

/-- What one run session owes: nothing when it took no time or the plan is
free, and at least one credit otherwise. -/
def owedFor (startedAt stoppedAt : Instant) (costPerHour : Int) : Int :=
  if costPerHour ≤ 0 then 0
  else if stoppedAt - startedAt ≤ 0 then 0
  else max 1 (truncatedCost (stoppedAt - startedAt) costPerHour)

def formatDuration (duration : Int) : String :=
  let hours := duration / hour
  let minutes := duration % hour / minute
  let secs := duration % minute / second
  if hours > 0 then toString hours ++ "h " ++ toString minutes ++ "m " ++ toString secs ++ "s"
  else if minutes > 0 then toString minutes ++ "m " ++ toString secs ++ "s"
  else toString secs ++ "s"

def reconciliationText (server : Server) (duration costPerHour : Int) : String :=
  "'" ++ server.name ++ "' (" ++ formatDuration duration ++ " at " ++ toString costPerHour ++ " NUKE/hour)"

/-- Charges the server's owner and adds the charge to what the server has cost. -/
def chargeServer (server : Server) (amount : Int) (description : String) : Handler Unit := do
  let _ ← consumeCredits server.userId amount description (some server.id)
  modifyServer server.id fun s => { s with totalCost := server.totalCost + amount }

def reconcileServerBilling (server : Server) (plan : ServerPlan) : Handler Int := do
  match server.startedAt, server.stoppedAt with
  | some startedAt, some stoppedAt =>
    if plan.costPerHour ≤ 0 then return 0
    let duration := stoppedAt - startedAt
    if duration ≤ 0 then return 0
    let additionalCost := max 1 (truncatedCost duration plan.costPerHour) - server.totalCost
    if additionalCost ≤ 0 then return 0
    let balance ← getBalance server.userId
    if balance ≥ additionalCost then
      chargeServer server additionalCost
        ("Server usage reconciliation: " ++ reconciliationText server duration plan.costPerHour)
      return additionalCost
    else if balance > 0 then
      chargeServer server balance
        ("Partial server usage reconciliation: " ++ reconciliationText server duration plan.costPerHour ++
          ". Remaining " ++ toString (additionalCost - balance) ++ " NUKE unpaid.")
      return balance
    else return 0
  | _, _ => return 0

def reconcileWith (server : Server) : Option ServerPlan → Handler Unit
  | none => return
  | some plan => do
    let _ ← reconcileServerBilling server plan

def billingAmount (plan : ServerPlan) : Int := max 1 ⌊mul plan.costPerHour (1 / 4)⌋

def stopDepleted (server : Server) (plan : ServerPlan) : Handler Unit := do
  let now ← utcNow
  modifyServer server.id fun s =>
    { s with containerId := none, status := .stopped, stoppedAt := some now, stopReason := some "credit_depleted" }
  release server.id
  reconcileWith { server with stoppedAt := some now } (some plan)

def depletionStop (server : Server) (plan : ServerPlan) (runtime : Runtime) : Handler Unit := do
  if ← Spawner.delete runtime server.containerId then stopDepleted server plan

def chargeTick (server : Server) (plan : ServerPlan) : Handler Unit := do
  chargeServer server (billingAmount plan)
    ("Server usage: '" ++ server.name ++ "' (15 min at " ++ toString plan.costPerHour ++ " NUKE/hour)")
  let now ← utcNow
  modifyServer server.id fun s => { s with lastBilledAt := some now }

/-- One server's turn in the periodic billing. An error in it is logged and the
next server has its turn. -/
def billServer (runtime : Runtime) (server : Server) (plan : ServerPlan) : Handler Unit := do
  if plan.costPerHour ≤ 0 then return
  let currentBalance ← getBalance server.userId
  if currentBalance ≤ 0 then
    if (← get).settings.serverAutoStopOnDepletion then logged (depletionStop server plan runtime)
  else logged (chargeTick server plan)

def runningWithPlans (w : World) : List (Server × ServerPlan) :=
  w.servers.rows.filterMap fun server =>
    if server.status = .running then (server.planId.bind w.plans).map fun plan => (server, plan) else none

def processNukeBilling (runtime : Uuid → Runtime) : Handler Unit := do
  (runningWithPlans (← get)).forM fun row => billServer (runtime row.1.id) row.1 row.2

def chargedTo (w : World) (serverId : Uuid) : Int :=
  ((w.transactions.filter fun t => t.serverId = some serverId ∧ t.type = .serverUsage).map fun t => -t.amount).sum

/-- What a charge to a server's owner does, when the balance covers it. -/
structure Charges (server : Server) (amount : Int) (w w' : World) : Prop where
  balance : ∀ u, balance w' u = balance w u - if u = server.userId then amount else 0
  ledger : ∃ t, w'.transactions = w.transactions ++ [t] ∧ t.userId = server.userId ∧ t.amount = -amount ∧
    t.type = .serverUsage ∧ t.serverId = some server.id
  servers : w'.servers = w.servers.modify server.id (fun s => { s with totalCost := server.totalCost + amount })
    fun _ => rfl
  plans : w'.plans = w.plans
  quotas : w'.quotas = w.quotas
  gpuAllocations : w'.gpuAllocations = w.gpuAllocations
  settings : w'.settings = w.settings
  now : w'.now = w.now

theorem chargedTo_append {w w' : World} {t : CreditTransaction} (h : w'.transactions = w.transactions ++ [t])
    (serverId : Uuid) :
    chargedTo w' serverId =
      chargedTo w serverId + if t.serverId = some serverId ∧ t.type = .serverUsage then -t.amount else 0 := by
  simp only [chargedTo, h, List.filter_append, List.map_append, List.sum_append, List.filter_cons, List.filter_nil,
    decide_eq_true_eq]
  split
  · rw [List.map_cons, List.map_nil, List.sum_singleton]
  · rw [List.map_nil, List.sum_nil]

theorem effectiveAmount_of_nonpos {maxBalance currentBalance amount : Int} (h : amount ≤ 0) :
    effectiveAmount maxBalance currentBalance amount = amount :=
  if_neg fun hpos => absurd hpos.1 (not_lt.mpr h)

/-- A charge the balance covers goes through. -/
theorem chargeServer_run {w : World} {server : Server} {user : User} {amount : Int} (description : String)
    (huser : w.users server.userId = some user) (hpos : 0 ≤ amount) (hle : amount ≤ user.nukeBalance) :
    ∃ w', (chargeServer server amount description).run w = .ok () w' ∧ Charges server amount w w' := by
  let draft : TransactionDraft :=
    { userId := server.userId, amount := -amount, type := .serverUsage, description := description,
      actorId := none, serverId := some server.id, metadata := [] }
  have heff : (transactionFor w user draft).amount = -amount := effectiveAmount_of_nonpos (by simp only [draft]; omega)
  have hafter : (transactionFor w user draft).balanceAfter = user.nukeBalance - amount := by
    rw [sub_eq_add_neg, ← heff]
    rfl
  have hrun := createTransaction_run draft huser (by omega)
  refine ⟨{ post w (transactionFor w user draft) with
    servers := w.servers.modify server.id (fun s => { s with totalCost := server.totalCost + amount }) fun _ => rfl },
    ?_, ?_, ⟨transactionFor w user draft, rfl, rfl, heff, rfl, rfl⟩, rfl, rfl, rfl, rfl, rfl, rfl⟩
  · simp only [chargeServer, consumeCredits, EStateM.run_bind, hrun, modifyServer, EStateM.run_modify, draft]
    rfl
  · intro u
    by_cases hu : u = server.userId
    · subst hu
      simp only [balance, post, transactionFor, draft, Function.update_self, huser, Option.map_some, if_true]
      exact hafter
    · simp only [balance, post, transactionFor, draft, Function.update_of_ne hu, if_neg hu, sub_zero]

/-- What reconciling a server takes from its owner: what the session owes past
what the server has cost, as far as the balance goes. -/
def toBill (w : World) (server : Server) (plan : ServerPlan) : Int :=
  match server.startedAt, server.stoppedAt with
  | some startedAt, some stoppedAt =>
    if owedFor startedAt stoppedAt plan.costPerHour = 0 then 0
    else max 0 (min (owedFor startedAt stoppedAt plan.costPerHour - server.totalCost) (balance w server.userId))
  | _, _ => 0

/-- Reconciling charges what is to bill, and where there is nothing it leaves
the world alone. It never raises. -/
inductive Reconciled (server : Server) (plan : ServerPlan) (w : World) : World → Prop
  | nothing (h : toBill w server plan = 0) : Reconciled server plan w w
  | charged {w' : World} (h : 0 < toBill w server plan) (hcharges : Charges server (toBill w server plan) w w') :
      Reconciled server plan w w'

theorem owedFor_pos {startedAt stoppedAt : Instant} {costPerHour : Int} (hcost : 0 < costPerHour)
    (hduration : 0 < stoppedAt - startedAt) :
    owedFor startedAt stoppedAt costPerHour = max 1 (truncatedCost (stoppedAt - startedAt) costPerHour) := by
  rw [owedFor, if_neg (not_le.mpr hcost), if_neg (not_le.mpr hduration)]

theorem user_of_balance_pos {w : World} {userId : Uuid} (h : 0 < balance w userId) :
    ∃ user, w.users userId = some user ∧ balance w userId = user.nukeBalance := by
  cases hu : w.users userId with
  | none => simp only [balance, hu, lt_irrefl] at h
  | some user => exact ⟨user, rfl, by simp only [balance, hu]⟩

theorem toBill_of_owed (w : World) {server : Server} {plan : ServerPlan} {startedAt stoppedAt : Instant}
    (hs : server.startedAt = some startedAt) (ht : server.stoppedAt = some stoppedAt)
    (hcost : 0 < plan.costPerHour) (hduration : 0 < stoppedAt - startedAt) :
    toBill w server plan =
      max 0 (min (max 1 (truncatedCost (stoppedAt - startedAt) plan.costPerHour) - server.totalCost)
        (balance w server.userId)) := by
  have howed := owedFor_pos hcost hduration
  have hne : owedFor startedAt stoppedAt plan.costPerHour ≠ 0 := by
    rw [howed]
    exact (lt_of_lt_of_le one_pos (le_max_left 1 _)).ne'
  simp only [toBill, hs, ht]
  rw [if_neg hne, howed]

theorem toBill_of_not_owed (w : World) {server : Server} {plan : ServerPlan} {startedAt stoppedAt : Instant}
    (hs : server.startedAt = some startedAt) (ht : server.stoppedAt = some stoppedAt)
    (h : plan.costPerHour ≤ 0 ∨ stoppedAt - startedAt ≤ 0) : toBill w server plan = 0 := by
  have howed : owedFor startedAt stoppedAt plan.costPerHour = 0 := by
    rcases h with h | h
    · rw [owedFor, if_pos h]
    · rw [owedFor, if_pos h, ite_self]
  simp only [toBill, hs, ht, if_pos howed]

theorem chargeServer_reconciled {w : World} {server : Server} {plan : ServerPlan} {amount : Int}
    (description : String) (hbill : toBill w server plan = amount) (hpos : 0 < amount)
    (hle : amount ≤ balance w server.userId) :
    ∃ w', (chargeServer server amount description >>= fun _ => pure amount : Handler Int).run w =
        .ok (toBill w server plan) w' ∧ Reconciled server plan w w' := by
  obtain ⟨user, huser, hb⟩ := user_of_balance_pos (lt_of_lt_of_le hpos hle)
  obtain ⟨w', hrun, hcharges⟩ := chargeServer_run description huser hpos.le (hb ▸ hle)
  refine ⟨w', by rw [EStateM.run_bind, hrun, hbill]; rfl, .charged (hbill ▸ hpos) (hbill ▸ hcharges)⟩

theorem reconcileServerBilling_run (w : World) (server : Server) (plan : ServerPlan) :
    ∃ w', (reconcileServerBilling server plan).run w = .ok (toBill w server plan) w' ∧
      Reconciled server plan w w' := by
  have hnothing (h : toBill w server plan = 0) :
      ∃ w', (pure 0 : Handler Int).run w = .ok (toBill w server plan) w' ∧ Reconciled server plan w w' :=
    ⟨w, by rw [h]; rfl, .nothing h⟩
  cases hs : server.startedAt with
  | none =>
      simp only [reconcileServerBilling, hs]
      exact hnothing (by simp only [toBill, hs])
  | some startedAt =>
      cases ht : server.stoppedAt with
      | none =>
          simp only [reconcileServerBilling, hs, ht]
          exact hnothing (by simp only [toBill, hs, ht])
      | some stoppedAt =>
          simp only [reconcileServerBilling, hs, ht]
          by_cases hcost : plan.costPerHour ≤ 0
          · rw [if_pos hcost]
            exact hnothing (toBill_of_not_owed w hs ht (Or.inl hcost))
          by_cases hduration : stoppedAt - startedAt ≤ 0
          · rw [if_neg hcost, if_pos hduration]
            exact hnothing (toBill_of_not_owed w hs ht (Or.inr hduration))
          have hbill := toBill_of_owed w hs ht (not_le.mp hcost) (not_le.mp hduration)
          rw [if_neg hcost, if_neg hduration]
          generalize max 1 (truncatedCost (stoppedAt - startedAt) plan.costPerHour) - server.totalCost = additional
            at hbill ⊢
          by_cases hadd : additional ≤ 0
          · rw [if_pos hadd]
            exact hnothing (by omega)
          rw [if_neg hadd]
          simp only [EStateM.run_bind, getBalance, EStateM.run_get, EStateM.run_pure]
          by_cases hcover : balance w server.userId ≥ additional
          · rw [if_pos hcover]
            exact chargeServer_reconciled _ (by omega) (by omega) hcover
          by_cases hsome : balance w server.userId > 0
          · rw [if_neg hcover, if_pos hsome]
            exact chargeServer_reconciled _ (by omega) hsome le_rfl
          · rw [if_neg hcover, if_neg hsome]
            exact hnothing (by omega)

end NukeLab.Billing
