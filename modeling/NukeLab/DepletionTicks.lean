import NukeLab.BillingLifetime

namespace NukeLab.DepletionTicks

open Program Machine Tables Records State Ledger Billing Settlement Exits BillingLifetime

abbrev Row := Server × ServerPlan

def owed (rows : List Row) (userId : Uuid) : Int :=
  (rows.map fun row => if row.1.userId = userId then tickAmount row.2 else 0).sum

/-- No owner's money ends inside the tick of one of its servers: at each of them
it is used up already, or covers that one as well. -/
def Affordable (purse : Uuid → Int) (rows : List Row) : Prop :=
  ∀ before row after, rows = before ++ row :: after →
    purse row.1.userId ≤ owed before row.1.userId ∨
      owed before row.1.userId + tickAmount row.2 ≤ purse row.1.userId

/-- Between the start and the end of a tick the server was charged for it, or
was stopped for want of credit. -/
def ChargedOrStopped (w w' : World) (row : Row) : Prop :=
  ∃ s, w'.servers.find row.1.id = some s ∧
    ((s.status = .running ∧ s.totalCost = row.1.totalCost + billingAmount row.2 ∧
        chargedTo w' row.1.id = chargedTo w row.1.id + billingAmount row.2) ∨
      (s.status = .stopped ∧ s.stopReason = some "credit_depleted"))

def staysUp (w' : World) (server : Server) : Bool := (w'.servers.find server.id).any fun s => s.status = .running

def ticksOf (w' : World) (rows : List Row) (userId : Uuid) : Int :=
  owed (rows.filter fun row => staysUp w' row.1) userId

/-- No server that costs anything kept running without being charged, and each
owner paid the ticks of the servers that kept running and no others. -/
structure NoUnpaidRunning (rows : List Row) (w w' : World) : Prop where
  paid : ∀ row ∈ rows, 0 < row.2.costPerHour → ChargedOrStopped w w' row
  balances : ∀ userId, balance w' userId = balance w userId - ticksOf w' rows userId

section Purses

variable {purse purse' : Uuid → Int} {row : Row} {rows : List Row}

theorem tickAmount_nonneg (plan : ServerPlan) : 0 ≤ tickAmount plan := by
  unfold tickAmount
  split
  · exact le_rfl
  · exact zero_le_one.trans (le_max_left _ _)

theorem billingAmount_pos (plan : ServerPlan) : 0 < billingAmount plan := lt_of_lt_of_le one_pos (le_max_left _ _)

@[simp] theorem owed_nil (userId : Uuid) : owed [] userId = 0 := rfl

theorem owed_cons (row : Row) (rows : List Row) (userId : Uuid) :
    owed (row :: rows) userId = (if row.1.userId = userId then tickAmount row.2 else 0) + owed rows userId := by
  rw [owed, List.map_cons, List.sum_cons, ← owed]

theorem owed_nonneg (rows : List Row) (userId : Uuid) : 0 ≤ owed rows userId := by
  induction rows with
  | nil => exact le_rfl
  | cons row rows ih =>
      rw [owed_cons]
      have htick := tickAmount_nonneg row.2
      split
      · omega
      · omega

theorem affordable_cons :
    Affordable purse (row :: rows) ↔
      (purse row.1.userId ≤ 0 ∨ tickAmount row.2 ≤ purse row.1.userId) ∧
        Affordable (fun u => purse u - if row.1.userId = u then tickAmount row.2 else 0) rows := by
  constructor
  · intro h
    refine ⟨?_, fun before next after hrows => ?_⟩
    · simpa using h [] row rows rfl
    · have hnext := h (row :: before) next after (by rw [hrows, List.cons_append])
      rw [owed_cons] at hnext
      dsimp only
      omega
  · rintro ⟨hhead, htail⟩ before next after hrows
    cases before with
    | nil =>
        obtain ⟨rfl, rfl⟩ := List.cons.inj hrows
        simpa using hhead
    | cons first before =>
        obtain ⟨rfl, hrest⟩ := List.cons.inj hrows
        have hnext := htail before next after hrest
        rw [owed_cons]
        dsimp only at hnext
        omega

theorem Affordable.of_broke (h : Affordable purse rows)
    (hsame : ∀ u, purse u = purse' u ∨ (purse u ≤ 0 ∧ purse' u ≤ 0)) : Affordable purse' rows := by
  intro before next after hrows
  have hnext := h before next after hrows
  have howed := owed_nonneg before next.1.userId
  rcases hsame next.1.userId with heq | ⟨-, hbroke⟩
  · rwa [heq] at hnext
  · exact .inl (hbroke.trans howed)

theorem affordable_congr (hsame : ∀ u, purse u = purse' u ∨ (purse u ≤ 0 ∧ purse' u ≤ 0)) :
    Affordable purse rows ↔ Affordable purse' rows :=
  ⟨fun h => h.of_broke hsame, fun h => h.of_broke fun u => (hsame u).imp Eq.symm And.symm⟩

end Purses

/-- What one turn of a billing round changes: the server's row, and what was
charged for it and to its owner. -/
structure Turned (server row : Server) (amount : Int) (w w' : World) : Prop where
  row : w'.servers.find server.id = some row
  others : ∀ id, id ≠ server.id → w'.servers.find id = w.servers.find id
  charged : ∀ id, chargedTo w' id = chargedTo w id + if server.id = id then amount else 0
  balance : ∀ u, balance w' u = balance w u - if server.userId = u then amount else 0
  settings : w'.settings = w.settings

/-- The ways a turn goes, with automatic stops on and the runtime answering. The
last is the one nothing is done in: some money is left, and less than the tick. -/
inductive Turn (server : Server) (plan : ServerPlan) (w w' : World) : Prop
  | free (hcost : plan.costPerHour ≤ 0) (hsame : w' = w)
  | charged (hcost : 0 < plan.costPerHour) (hcover : billingAmount plan ≤ balance w server.userId) (row : Server)
      (hstatus : row.status = server.status) (htotal : row.totalCost = server.totalCost + billingAmount plan)
      (hturned : Turned server row (billingAmount plan) w w')
  | stopped (hcost : 0 < plan.costPerHour) (hbroke : balance w server.userId ≤ 0) (row : Server)
      (hstatus : row.status = .stopped) (hreason : row.stopReason = some "credit_depleted")
      (hturned : Turned server row 0 w w')
  | unpaid (hcost : 0 < plan.costPerHour) (hsome : 0 < balance w server.userId)
      (hshort : balance w server.userId < billingAmount plan) (hsame : w' = w)

section Turns

variable {w : World} {runtime : Runtime} {server : Server} {plan : ServerPlan}

theorem Turned.refl (hfind : w.servers.find server.id = some server) : Turned server server 0 w w := by
  refine ⟨hfind, fun _ _ => rfl, fun id => ?_, fun u => ?_, rfl⟩
  · rw [ite_self, add_zero]
  · rw [ite_self, sub_zero]

theorem chargeServer_short {user : User} {amount : Int} (description : String)
    (huser : w.users server.userId = some user) (hpos : 0 ≤ amount) (hshort : user.nukeBalance < amount) :
    ∃ raise, (chargeServer server amount description).run w = .error raise w := by
  let draft : TransactionDraft :=
    { userId := server.userId, amount := -amount, type := .serverUsage, description := description,
      actorId := none, serverId := some server.id, metadata := [] }
  have heff : (transactionFor w user draft).amount = -amount := effectiveAmount_of_nonpos (by simp only [draft]; omega)
  have hafter : (transactionFor w user draft).balanceAfter = user.nukeBalance - amount := by
    rw [sub_eq_add_neg, ← heff]
    rfl
  have hneg : (transactionFor w user draft).balanceAfter < 0 := by omega
  refine ⟨.http 400 ("Insufficient credits. Current: " ++ toString user.nukeBalance ++ ", Required: " ++
    toString draft.amount.natAbs), ?_⟩
  have hrun : (createTransaction draft).run w = .error (.http 400 ("Insufficient credits. Current: " ++
      toString user.nukeBalance ++ ", Required: " ++ toString draft.amount.natAbs)) w := by
    rw [createTransaction, EStateM.run_bind, EStateM.run_get]
    simp only [draft] at huser ⊢
    rw [huser]
    dsimp only
    rw [if_pos hneg]
    rfl
  rw [chargeServer, consumeCredits, EStateM.run_bind]
  exact hrun ▸ rfl

theorem toBill_of_broke (w : World) (server : Server) (plan : ServerPlan) (hbroke : balance w server.userId ≤ 0) :
    toBill w server plan = 0 := by
  unfold toBill
  split
  · split
    · rfl
    · omega
  · rfl

theorem stopDepleted_turned (hfind : w.servers.find server.id = some server) (plan : ServerPlan)
    (hbroke : balance w server.userId ≤ 0) :
    Turned server
      { server with
        containerId := none, status := .stopped, stoppedAt := some w.now, stopReason := some "credit_depleted" }
      0 w (final (stopDepleted server plan) w) := by
  let stamp : Server → Server := fun s =>
    { s with containerId := none, status := .stopped, stoppedAt := some w.now, stopReason := some "credit_depleted" }
  let w₀ := stamped w server.id stamp fun _ => rfl
  obtain ⟨w₁, hrun, hreconciled⟩ := reconcileServerBilling_run w₀ { server with stoppedAt := some w.now } plan
  have hbill : toBill w₀ { server with stoppedAt := some w.now } plan = 0 :=
    toBill_of_broke w₀ _ plan hbroke
  have hsame : w₁ = w₀ := by
    cases hreconciled with
    | nothing h => rfl
    | charged h hcharges => exact absurd hbill h.ne'
  have hf : final (stopDepleted server plan) w = w₀ := by
    rw [← hsame]
    exact final_of_ok (by rw [show (stopDepleted server plan).run w =
      (reconcileWith { server with stoppedAt := some w.now } (some plan)).run w₀ from rfl, reconcileWith,
      EStateM.run_bind, hrun]; rfl)
  rw [hf]
  refine ⟨Table.find_modify_self stamp (fun _ => rfl) hfind, fun id hid => ?_, fun id => ?_, fun u => ?_, rfl⟩
  · exact Table.find_modify_of_ne stamp (fun _ => rfl) hid
  · rw [ite_self, add_zero]
    rfl
  · rw [ite_self, sub_zero]
    rfl

theorem billServer_turn (hfind : w.servers.find server.id = some server)
    (hauto : w.settings.serverAutoStopOnDepletion = true) (hd : runtime.deletes = true) (plan : ServerPlan) :
    Turn server plan w (final (billServer runtime server plan) w) := by
  by_cases hcost : plan.costPerHour ≤ 0
  · exact .free hcost (billServer_free runtime hcost)
  have hcost : 0 < plan.costPerHour := not_le.mp hcost
  have hpos := billingAmount_pos plan
  by_cases hbroke : balance w server.userId ≤ 0
  · have hf : final (billServer runtime server plan) w =
        final (stopDepleted server plan) (final (Spawner.removeContainer server.containerId) w) := by
      rw [billServer, if_neg (not_le.mpr hcost), final_bind_of_ok (run_getBalance _ _), if_pos hbroke, final_get_bind,
        if_pos hauto, final_logged, depletionStop, final_delete hd, if_pos rfl]
    have hturned := stopDepleted_turned (w := final (Spawner.removeContainer server.containerId) w) hfind plan hbroke
    rw [hf]
    exact .stopped hcost hbroke _ rfl rfl
      ⟨hturned.row, hturned.others, hturned.charged, hturned.balance, hturned.settings⟩
  by_cases hcover : billingAmount plan ≤ balance w server.userId
  · obtain ⟨w₁, hcharges, hf⟩ := billServer_charged runtime hcost hcover
    have hbilled := Charges.billed hcharges hpos
    have hrow := Table.find_modify_self (fun s => { s with lastBilledAt := some w₁.now }) (fun _ => rfl)
      (hbilled.row hfind rfl)
    rw [hf]
    refine .charged hcost hcover _ ?_ ?_
      ⟨hrow, fun id hid => ?_, hbilled.charged, fun u => ?_, hcharges.settings⟩
    · rfl
    · rfl
    · rw [Table.find_modify_of_ne _ _ hid, hcharges.servers, Table.find_modify_of_ne _ _ hid]
    · refine (hcharges.balance u).trans ?_
      simp only [eq_comm]
  · obtain ⟨user, huser, hb⟩ := user_of_balance_pos (not_le.mp hbroke)
    obtain ⟨raise, hrun⟩ := chargeServer_short
      ("Server usage: '" ++ server.name ++ "' (15 min at " ++ toString plan.costPerHour ++ " NUKE/hour)")
      huser hpos.le (hb ▸ not_le.mp hcover)
    refine .unpaid hcost (not_le.mp hbroke) (not_le.mp hcover) ?_
    rw [billServer, if_neg (not_le.mpr hcost), final_bind_of_ok (run_getBalance _ _), if_neg hbroke, final_logged,
      chargeTick, final_bind, hrun]

theorem Turn.turned {w' : World} (h : Turn server plan w w') (hfind : w.servers.find server.id = some server) :
    ∃ row amount, Turned server row amount w w' := by
  cases h with
  | free _ hsame | unpaid _ _ _ hsame =>
      subst hsame
      exact ⟨server, 0, .refl hfind⟩
  | charged _ _ row _ _ hturned => exact ⟨row, _, hturned⟩
  | stopped _ _ row _ _ hturned => exact ⟨row, _, hturned⟩

theorem run_logged (body : Handler Unit) (w : World) : (logged body).run w = .ok () (final body w) := by
  rw [logged, run_tryCatch, final]
  cases body.run w <;> rfl

/-- A turn never raises: the next server has its own whatever this one's did. -/
theorem billServer_run (runtime : Runtime) (server : Server) (plan : ServerPlan) (w : World) :
    (billServer runtime server plan).run w = .ok () (final (billServer runtime server plan) w) := by
  have hrun : ∃ w', (billServer runtime server plan).run w = .ok () w' := by
    unfold billServer
    split
    · exact ⟨w, rfl⟩
    rw [EStateM.run_bind, run_getBalance]
    dsimp only
    split
    · rw [EStateM.run_bind, EStateM.run_get]
      dsimp only
      split
      · exact ⟨_, run_logged _ w⟩
      · exact ⟨w, rfl⟩
    · exact ⟨_, run_logged _ w⟩
  obtain ⟨w', hrun⟩ := hrun
  rw [hrun, final_of_ok hrun]

end Turns

section Rounds

variable {w w' : World} {row : Row} {rows : List Row}

def billAll (runtime : Uuid → Runtime) (rows : List Row) : Handler Unit :=
  rows.forM fun row => billServer (runtime row.1.id) row.1 row.2

theorem final_billAll_cons (runtime : Uuid → Runtime) (row : Row) (rows : List Row) (w : World) :
    final (billAll runtime (row :: rows)) w =
      final (billAll runtime rows) (final (billServer (runtime row.1.id) row.1 row.2) w) :=
  final_bind_of_ok (billServer_run _ _ _ w) _

/-- The rows are the ones stored, up and under different ids, and automatic
stops are on. -/
structure Billable (rows : List Row) (w : World) : Prop where
  ids : (rows.map fun row => row.1.id).Nodup
  stored : ∀ row ∈ rows, w.servers.find row.1.id = some row.1
  running : ∀ row ∈ rows, row.1.status = .running
  auto : w.settings.serverAutoStopOnDepletion = true

theorem Billable.turn (h : Billable (row :: rows) w) {runtime : Uuid → Runtime}
    (hd : ∀ id, (runtime id).deletes = true) :
    Turn row.1 row.2 w (final (billServer (runtime row.1.id) row.1 row.2) w) :=
  billServer_turn (h.stored row List.mem_cons_self) h.auto (hd _) row.2

theorem Billable.notMem (h : Billable (row :: rows) w) {next : Row} (hnext : next ∈ rows) : row.1.id ≠ next.1.id := by
  intro hid
  exact (List.nodup_cons.mp h.ids).1 (List.mem_map.mpr ⟨next, hnext, hid.symm⟩)

theorem Billable.rest (h : Billable (row :: rows) w) {server : Server} {amount : Int}
    (hturned : Turned row.1 server amount w w') : Billable rows w' := by
  refine ⟨(List.nodup_cons.mp h.ids).2, fun next hnext => ?_, fun next hnext => ?_, ?_⟩
  · rw [hturned.others _ (h.notMem hnext).symm]
    exact h.stored next (List.mem_cons_of_mem _ hnext)
  · exact h.running next (List.mem_cons_of_mem _ hnext)
  · rw [hturned.settings]
    exact h.auto

theorem billAll_elsewhere {runtime : Uuid → Runtime} (hd : ∀ id, (runtime id).deletes = true) {id : Uuid}
    (h : Billable rows w) (hid : ∀ row ∈ rows, row.1.id ≠ id) :
    (final (billAll runtime rows) w).servers.find id = w.servers.find id ∧
      chargedTo (final (billAll runtime rows) w) id = chargedTo w id := by
  induction rows generalizing w with
  | nil => exact ⟨rfl, rfl⟩
  | cons row rows ih =>
      obtain ⟨server, amount, hturned⟩ := (h.turn hd).turned (h.stored row List.mem_cons_self)
      have hne := hid row List.mem_cons_self
      obtain ⟨hfind, hcharged⟩ := ih (h.rest hturned) fun next hnext => hid next (List.mem_cons_of_mem _ hnext)
      rw [final_billAll_cons]
      refine ⟨hfind.trans (hturned.others id hne.symm), hcharged.trans ?_⟩
      rw [hturned.charged, if_neg hne, add_zero]

theorem ticksOf_cons (w' : World) (row : Row) (rows : List Row) (userId : Uuid) :
    ticksOf w' (row :: rows) userId =
      (if row.1.userId = userId ∧ staysUp w' row.1 then tickAmount row.2 else 0) + ticksOf w' rows userId := by
  unfold ticksOf
  by_cases hup : staysUp w' row.1
  · rw [List.filter_cons, if_pos hup, owed_cons]
    simp only [hup, and_true]
  · rw [List.filter_cons, if_neg hup, if_neg fun h => hup h.2, zero_add]

theorem noUnpaidRunning_cons {v : World}
    (hbalance : ∀ u, balance v u =
      balance w u - if row.1.userId = u ∧ staysUp w' row.1 then tickAmount row.2 else 0)
    (hcharged : ∀ next ∈ rows, chargedTo v next.1.id = chargedTo w next.1.id)
    (hhead : 0 < row.2.costPerHour → ChargedOrStopped w w' row) :
    NoUnpaidRunning (row :: rows) w w' ↔ NoUnpaidRunning rows v w' := by
  have hnext (next : Row) (hmem : next ∈ rows) : ChargedOrStopped v w' next ↔ ChargedOrStopped w w' next := by
    rw [ChargedOrStopped, ChargedOrStopped, hcharged next hmem]
  constructor
  · intro h
    refine ⟨fun next hmem hcost => (hnext next hmem).mpr (h.paid next (List.mem_cons_of_mem _ hmem) hcost), fun u => ?_⟩
    rw [h.balances u, ticksOf_cons, hbalance u]
    omega
  · intro h
    refine ⟨fun next hmem hcost => ?_, fun u => ?_⟩
    · rcases List.mem_cons.mp hmem with rfl | hmem
      · exact hhead hcost
      · exact (hnext next hmem).mp (h.paid next hmem hcost)
    · rw [h.balances u, ticksOf_cons, hbalance u]
      omega

theorem billAll_pays_iff {runtime : Uuid → Runtime} (hd : ∀ id, (runtime id).deletes = true) (h : Billable rows w) :
    NoUnpaidRunning rows w (final (billAll runtime rows) w) ↔ Affordable (balance w) rows := by
  induction rows generalizing w with
  | nil =>
      refine iff_of_true ⟨fun row hrow => absurd hrow List.not_mem_nil, fun u => (sub_zero _).symm⟩ ?_
      exact fun before row after hrows => absurd hrows.symm (List.append_ne_nil_of_right_ne_nil _ nofun)
  | cons row rows ih =>
      have hstored := h.stored row List.mem_cons_self
      have hturn := h.turn hd
      obtain ⟨_, _, hturned⟩ := hturn.turned hstored
      have hrest := h.rest hturned
      have hlater := billAll_elsewhere hd hrest fun next hnext => (h.notMem hnext).symm
      have hothers (next : Row) (hnext : next ∈ rows) :
          chargedTo (final (billServer (runtime row.1.id) row.1 row.2) w) next.1.id = chargedTo w next.1.id := by
        rw [hturned.charged, if_neg (h.notMem hnext), add_zero]
      have hrunning := h.running row List.mem_cons_self
      rw [final_billAll_cons, affordable_cons]
      have hih := ih hrest
      generalize final (billServer (runtime row.1.id) row.1 row.2) w = v at *
      generalize final (billAll runtime rows) v = w' at *
      cases hturn with
      | free hcost hsame =>
          subst hsame
          have htick : tickAmount row.2 = 0 := if_pos hcost
          rw [noUnpaidRunning_cons _ hothers fun hpos => absurd hpos (not_lt.mpr hcost), hih, htick]
          · simp only [ite_self, sub_zero, le_total, true_and]
          · intro u
            rw [htick, ite_self, sub_zero]
      | charged hcost hcover server hstatus htotal hturned =>
          have htick : tickAmount row.2 = billingAmount row.2 := if_neg (not_le.mpr hcost)
          have hrow : w'.servers.find row.1.id = some server := hlater.1.trans hturned.row
          have hup : staysUp w' row.1 = true := by
            rw [staysUp, hrow, Option.any_some, hstatus, hrunning]
            rfl
          rw [noUnpaidRunning_cons _ hothers fun _ => ⟨server, hrow, .inl ⟨hstatus.trans hrunning, htotal, ?_⟩⟩, hih]
          · rw [htick, and_iff_right (.inr hcover)]
            exact iff_of_eq (congrArg (Affordable · rows) (funext hturned.balance))
          · intro u
            simp only [hup, and_true]
            rw [htick, hturned.balance]
          · rw [hlater.2, hturned.charged, if_pos rfl]
      | stopped hcost hbroke server hstatus hreason hturned =>
          have hrow : w'.servers.find row.1.id = some server := hlater.1.trans hturned.row
          have hdown : staysUp w' row.1 = false := by
            rw [staysUp, hrow, Option.any_some, hstatus]
            rfl
          rw [noUnpaidRunning_cons _ hothers fun _ => ⟨server, hrow, .inr ⟨hstatus, hreason⟩⟩, hih,
            and_iff_right (.inl hbroke)]
          · refine affordable_congr fun u => ?_
            have htick := tickAmount_nonneg row.2
            rw [hturned.balance, ite_self, sub_zero]
            by_cases hu : row.1.userId = u
            · subst hu
              rw [if_pos rfl]
              exact .inr ⟨hbroke, by omega⟩
            · rw [if_neg hu, sub_zero]
              exact .inl rfl
          · intro u
            rw [hdown, hturned.balance, ite_self, if_neg fun h => Bool.false_ne_true h.2]
      | unpaid hcost hsome hshort hsame =>
          subst hsame
          have htick : tickAmount row.2 = billingAmount row.2 := if_neg (not_le.mpr hcost)
          refine iff_of_false (fun hpays => ?_) fun hafford => ?_
          · obtain ⟨server, hrow, hcases⟩ := hpays.paid row List.mem_cons_self hcost
            obtain rfl := Option.some.inj ((hlater.1.trans hstored).symm.trans hrow)
            rcases hcases with ⟨-, htotal, -⟩ | ⟨hstatus, -⟩
            · have hpos := billingAmount_pos row.2
              omega
            · exact absurd (hrunning.symm.trans hstatus) nofun
          · have hhead := hafford.1
            omega

theorem mem_runningWithPlans (hrow : row ∈ runningWithPlans w) :
    row.1 ∈ w.servers.rows ∧ row.1.status = .running := by
  obtain ⟨server, hserver, hplan⟩ := List.mem_filterMap.mp hrow
  obtain ⟨hrunning, hplan⟩ := Option.ite_none_right_eq_some.mp hplan
  obtain ⟨plan, -, rfl⟩ := Option.map_eq_some_iff.mp hplan
  exact ⟨hserver, hrunning⟩

theorem fst_of_runningWithPlans {server : Server}
    (h : (if server.status = .running then (server.planId.bind w.plans).map fun plan => (server, plan) else none) =
      some row) : row.1 = server := by
  obtain ⟨-, h⟩ := Option.ite_none_right_eq_some.mp h
  obtain ⟨plan, -, rfl⟩ := Option.map_eq_some_iff.mp h
  rfl

theorem billable_runningWithPlans (hauto : w.settings.serverAutoStopOnDepletion = true) :
    Billable (runningWithPlans w) w := by
  refine ⟨?_, fun row hrow => Table.find_of_mem (mem_runningWithPlans hrow).1,
    fun row hrow => (mem_runningWithPlans hrow).2, hauto⟩
  have hids : w.servers.rows.Pairwise fun s t => s.id ≠ t.id := List.pairwise_map.mp w.servers.nodup
  refine List.pairwise_map.mpr (List.pairwise_filterMap.mpr (hids.imp fun hne row hrow next hnext => ?_))
  rwa [fst_of_runningWithPlans hrow, fst_of_runningWithPlans hnext]

end Rounds

/-- A container runtime that deletes what it is told to, whatever it is asked about. -/
structure Answering where
  runtime : Uuid → Runtime
  deletes : ∀ id, (runtime id).deletes = true

inductive Event
  | tick (answering : Answering)
  | other (request : Handler Unit)

/-- A database under ticks and whatever else is done between them. A tick with
automatic stops off is not followed. -/
def step : Step World Event
  | w, .tick answering =>
    if w.settings.serverAutoStopOnDepletion then some (final (processNukeBilling answering.runtime) w) else none
  | w, .other request => some (final request w)

def Paid (w : World) : Event → Prop
  | .tick answering => NoUnpaidRunning (runningWithPlans w) w (final (processNukeBilling answering.runtime) w)
  | .other _ => True

/-- Along the servers of the tick, no owner's balance ends inside the amount of one. -/
def Covered (w : World) : Event → Prop
  | .tick _ => Affordable (balance w) (runningWithPlans w)
  | .other _ => True

/-- No server runs on unpaid through the ticks of a run exactly when at each of
them every balance either covers the next server or is used up before it. -/
theorem ticks_paid_iff (w : World) (events : List Event) :
    AllSteps step Paid w events ↔ AllSteps step Covered w events := by
  refine allSteps_iff (P := fun _ => True) (fun _ _ _ _ _ _ => trivial) (fun w event w' _ hstep => ?_) events trivial
  cases event with
  | tick answering =>
      obtain ⟨hauto, -⟩ := Option.ite_none_right_eq_some.mp hstep
      exact billAll_pays_iff answering.deletes (billable_runningWithPlans hauto)
  | other request => exact Iff.rfl

def shortWorld : World :=
  { blankWorld with
    users := fun u => if u = 1 then some { newUser "ada" with nukeBalance := 1 } else none
    plans := fun p => if p = 3 then some (newPlan "small" 8) else none
    servers := (Table.empty Server.id).insert (newServer 5 1 3 9 "lab" 0) }

/-- It runs on with the one credit untouched, tick after tick. -/
theorem short_runs_on :
    ¬ AllSteps step Paid shortWorld
      (List.replicate 2 (.tick ⟨fun _ => obedient .running, fun _ => rfl⟩)) := by
  intro h
  have hrows : runningWithPlans shortWorld = [(newServer 5 1 3 9 "lab" 0, newPlan "small" 8)] := rfl
  have hafter : ((final (processNukeBilling fun _ => obedient .running) shortWorld).servers.find 5).map
      (fun server => (server.status, server.totalCost)) = some (.running, 0) := by
    decide +kernel
  obtain ⟨server, hserver, hcases⟩ := (h _ rfl).1.paid _ (hrows ▸ List.mem_singleton_self _) (by decide)
  have hfound : (final (processNukeBilling fun _ => obedient .running) shortWorld).servers.find 5 = some server := hserver
  rw [hfound, Option.map_some, Option.some.injEq, Prod.mk.injEq] at hafter
  rcases hcases with ⟨-, htotal, -⟩ | ⟨hstatus, -⟩
  · exact absurd (hafter.2.symm.trans htotal) (by decide +kernel)
  · exact absurd (hafter.1.symm.trans hstatus) nofun

end NukeLab.DepletionTicks
