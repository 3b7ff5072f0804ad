import NukeLab.Exits
import NukeLab.Launches
import NukeLab.Machine

namespace NukeLab.BillingLifetime

open Program Machine Tables Records State Ledger Quota Spawner Billing Lifecycle Settlement Exits Launches

def sessionOwed (w : World) (server : Server) : Int :=
  match planOf w server, server.startedAt with
  | some plan, some startedAt => owedFor startedAt w.now plan.costPerHour
  | _, _ => 0

/-- One server's life: what its closed sessions owed, and what the ticks inside
the open one have charged. -/
structure Lifetime where
  world : World
  owed : Int
  ticked : Int

def Lifetime.begin (w : World) : Lifetime := ⟨w, 0, 0⟩

inductive Event
  | create (runtime : Runtime) (commits : Commits) (request : SpawnRequest) (planId : Uuid)
  | queue (runtime : Runtime) (commits : Commits) (request : SpawnRequest) (planId : Uuid)
  | launch (path : StartPath) (runtime : Runtime)
  | tick (runtime : Runtime)
  | stop (path : ExitPath) (runtime : Runtime)
  | deposit (userId : Uuid) (amount : Int) (actorId : Uuid) (reason : String)
  | wait (duration : Nat)

/-- Where a request that raises nothing ends. -/
def returned {α : Type} (h : Handler α) (w : World) : Option World :=
  match h.run w with
  | .ok _ w' => some w'
  | .error _ _ => none

def tickAmount (plan : ServerPlan) : Int := if plan.costPerHour ≤ 0 then 0 else billingAmount plan

/-- The events of one server's life. A request that raises begins no session,
and where the owner's balance does not cover a charge the life is not followed
any further. Beginning a session on a running server ends the one before it. -/
def step (id : Uuid) : Step Lifetime Event := fun s event =>
  let w := s.world
  match event, w.servers.find id with
  | .create runtime commits request planId, none =>
    match w.users request.userId with
    | some user =>
      if request.serverId = id then
        (returned (provision runtime commits request planId user) w).map fun w' => { s with world := w' }
      else none
    | none => none
  | .queue runtime commits request planId, none =>
    match w.users request.userId, w.plans planId with
    | some user, some plan =>
      if request.serverId = id then
        (returned (provisionQueued runtime commits request planId plan user) w).map fun w' => { s with world := w' }
      else none
    | _, _ => none
  | .launch path runtime, some row =>
    if begins path w runtime row then
      (returned (Launches.launch path runtime row) w).map fun w' =>
        { world := w', owed := s.owed + (if row.status = .running then sessionOwed w row else 0), ticked := 0 }
    else none
  | .tick runtime, some row =>
    match planOf w row with
    | some plan =>
      if row.status = .running ∧ tickAmount plan ≤ balance w row.userId then
        some { s with world := final (billServer runtime row plan) w, ticked := s.ticked + tickAmount plan }
      else none
    | none => none
  | .stop path runtime, some row =>
    let w' := final (leave path runtime row) w
    if row.status = .running ∧ (parts path w runtime row).isSome ∧ (w'.servers.find id).isSome ∧
        sessionOwed w row - row.totalCost ≤ balance w row.userId then
      some { world := w', owed := s.owed + sessionOwed w row, ticked := 0 }
    else none
  | .deposit userId amount actorId reason, _ =>
    some { s with world := final (grantCredits userId amount (some actorId) reason "admin_panel" []) w }
  | .wait duration, _ => some { s with world := { w with now := w.now + duration } }
  | _, _ => none

/-- The charges recorded are what the closed sessions owed and what the open one
has been ticked for; when no session is open, what was owed and no more. -/
def Exact (id : Uuid) (s : Lifetime) : Prop := chargedTo s.world id = s.owed + s.ticked

instance (id : Uuid) : DecidablePred (Exact id) := fun _ => inferInstanceAs (Decidable (_ = _))

/-- The event closes no session; or one whose ticks came to exactly what it
owed; or, by a path that bills, the first one to owe anything, with its ticks
short of that. -/
def ClosesSquare (id : Uuid) (s : Lifetime) (event : Event) : Prop :=
  match event, s.world.servers.find id with
  | .launch _ _, some row => row.status = .running → s.ticked = sessionOwed s.world row
  | .stop path runtime, some row =>
    s.ticked = sessionOwed s.world row ∨
      ((parts path s.world runtime row).any Parts.bills ∧ s.owed = 0 ∧ s.ticked < sessionOwed s.world row)
  | _, _ => True

/-- What holds in every state: the row's running total is what was charged. -/
structure Tracked (id : Uuid) (s : Lifetime) : Prop where
  owed_nonneg : 0 ≤ s.owed
  ticked_nonneg : 0 ≤ s.ticked
  absent : s.world.servers.find id = none → chargedTo s.world id = 0 ∧ s.owed = 0 ∧ s.ticked = 0
  cost : ∀ row, s.world.servers.find id = some row → row.totalCost = chargedTo s.world id
  charged_nonneg : 0 ≤ chargedTo s.world id
  idle : ∀ row, s.world.servers.find id = some row → row.status ≠ .running → s.ticked = 0

section Charges

variable {w w' : World} {id : Uuid}

theorem sessionOwed_nonneg (w : World) (server : Server) : 0 ≤ sessionOwed w server := by
  unfold sessionOwed
  split
  · unfold owedFor
    split
    · exact le_rfl
    · split
      · exact le_rfl
      · exact zero_le_one.trans (le_max_left _ _)
  · exact le_rfl

theorem chargedTo_congr (h : w'.transactions = w.transactions) (id : Uuid) : chargedTo w' id = chargedTo w id := by
  rw [chargedTo, chargedTo, h]

theorem chargedTo_recorded {draft : TransactionDraft} (h : Recorded draft w w')
    (hother : draft.serverId ≠ some id ∨ draft.type ≠ .serverUsage) : chargedTo w' id = chargedTo w id := by
  cases h with
  | refused => rfl
  | posted user huser hnonneg =>
      rw [chargedTo_append rfl, if_neg, add_zero]
      rintro ⟨hserver, htype⟩
      exact hother.elim (fun h => h hserver) fun h => h htype

theorem servers_recorded {draft : TransactionDraft} (h : Recorded draft w w') : w'.servers = w.servers := by
  cases h <;> rfl

/-- Where the balance covers it, a stop is due what its session owes past what
the server has cost. -/
theorem due_eq {server : Server} (hcost : 0 ≤ server.totalCost)
    (hcover : sessionOwed w server - server.totalCost ≤ balance w server.userId) :
    due w server = max 0 (sessionOwed w server - server.totalCost) := by
  cases hp : planOf w server with
  | none =>
      simp only [due, sessionOwed, hp]
      omega
  | some plan =>
      cases hs : server.startedAt with
      | none =>
          simp only [due, sessionOwed, hp, hs, toBill]
          omega
      | some startedAt =>
          simp only [sessionOwed, hp, hs] at hcover
          simp only [due, sessionOwed, hp, toBill, hs]
          split
          · omega
          · rw [min_eq_left hcover]

end Charges

structure Metered (server : Server) (bill : Int) (w w' : World) : Prop where
  charged : chargedTo w' server.id = chargedTo w server.id + bill
  row : ∃ row, w'.servers.find server.id = some row ∧ row.status = .stopped ∧
    row.totalCost = server.totalCost + bill

section Stops

variable {server : Server}

theorem stopAndSettle_metered (w : World) (hfind : w.servers.find server.id = some server)
    {stamp : Instant → Server → Server} (hid : ∀ now s, (stamp now s).id = s.id)
    (hkeeps : ∀ now, KeepsTerms (stamp now)) (hstamp : ∀ now s, (stamp now s).stoppedAt = some now) :
    Metered server (due w server) w (final (stopAndSettle server.id stamp hid) w) := by
  have hk := hkeeps w.now
  obtain ⟨w₁, quotas, hf, hbilled, -⟩ := stopAndSettle_billed w hfind hkeeps hstamp
  have hrow : (stamped w server.id (stamp w.now) (hid w.now)).servers.find (stamp w.now server).id =
      some (stamp w.now server) := by
    rw [hk.id]
    exact Table.find_modify_self _ (hid w.now) hfind
  have hbilledRow := hbilled.row hrow rfl
  rw [hk.id] at hbilledRow
  rw [hf]
  refine ⟨?_, _, hbilledRow, hk.status server, ?_⟩
  · refine (hbilled.charged server.id).trans ?_
    rw [if_pos (hk.id server)]
    rfl
  · simp only [hk.totalCost]

theorem stopAndRelease_metered (w : World) (hfind : w.servers.find server.id = some server)
    {stamp : Server → Server} (hid : ∀ s, (stamp s).id = s.id) (hkeeps : KeepsTerms stamp) :
    Metered server 0 w (final (stopAndRelease server.id stamp hid) w) := by
  refine ⟨(add_zero _).symm, stamp server, Table.find_modify_self _ hid hfind, hkeeps.status server, ?_⟩
  rw [hkeeps.totalCost, add_zero]

theorem Metered.decrementFor {bill : Int} {w w' : World} (h : Metered server bill w w') :
    Metered server bill w (final (Lifecycle.decrementFor server) w') := by
  cases hp : server.planId with
  | none => simpa only [Lifecycle.decrementFor, hp, final_pure] using h
  | some planId =>
      obtain ⟨quota, hrun, -⟩ := adjustUsage_run Quantities.Usage.monus server.userId planId w'
      simp only [Lifecycle.decrementFor, hp, final_bind_pure]
      rw [decrementUsage, final_of_ok hrun]
      exact ⟨h.charged, h.row⟩

theorem stopDepleted_metered (w : World) (hfind : w.servers.find server.id = some server) {plan : ServerPlan}
    (hplan : planOf w server = some plan) : Metered server (due w server) w (final (stopDepleted server plan) w) := by
  let stamp : Server → Server := fun s =>
    { s with containerId := none, status := .stopped, stoppedAt := some w.now, stopReason := some "credit_depleted" }
  obtain ⟨w₁, hrun, hbilled⟩ :=
    reconcileWith_run (stamped w server.id stamp fun _ => rfl) { server with stoppedAt := some w.now } (some plan)
  have hbill : due w server = toBill w { server with stoppedAt := some w.now } plan := by simp only [due, hplan]
  have hrow := hbilled.row (Table.find_modify_self stamp (fun _ => rfl) hfind) rfl
  rw [show final (stopDepleted server plan) w = w₁ from final_of_ok hrun, hbill]
  refine ⟨?_, _, hrow, rfl, rfl⟩
  refine (hbilled.charged server.id).trans ?_
  rw [if_pos rfl]
  rfl

theorem metered_of_left {w w' : World} {ps : Parts} (h : Left server w ps w')
    (hfind : w.servers.find server.id = some server) (hstays : (w'.servers.find server.id).isSome) :
    Metered server (if ps.bills then due w server else 0) w w' := by
  cases h with
  | settled containers stamp hid hkeeps hstamp =>
      have h := stopAndSettle_metered { w with containers := containers } hfind hid hkeeps hstamp
      exact ⟨h.charged, h.row⟩
  | released containers stamp hid hkeeps hstamp =>
      have h := stopAndRelease_metered { w with containers := containers } hfind hid hkeeps
      exact ⟨h.charged, h.row⟩
  | limited containers stamp hid hkeeps hstamp =>
      have h := (stopAndRelease_metered { w with containers := containers } hfind hid hkeeps).decrementFor
      exact ⟨h.charged, h.row⟩
  | depleted containers plan hplan =>
      have h := stopDepleted_metered { w with containers := containers } hfind hplan
      exact ⟨h.charged, h.row⟩
  | synced => exact ⟨(add_zero _).symm, _, Table.find_modify_self _ (by intro _; rfl) hfind, rfl, (add_zero _).symm⟩
  | deleted w' husers hquotas hsettings hservers hrows =>
      rw [hservers, Table.find_erase_self] at hstays
      exact absurd hstays (by decide)

theorem billServer_charged {w : World} (runtime : Runtime) {plan : ServerPlan} (hcost : 0 < plan.costPerHour)
    (hcover : billingAmount plan ≤ balance w server.userId) :
    ∃ w₁, Charges server (billingAmount plan) w w₁ ∧
      final (billServer runtime server plan) w =
        { w₁ with
          servers := w₁.servers.modify server.id (fun s => { s with lastBilledAt := some w₁.now }) fun _ => rfl } := by
  have hpos : 0 < billingAmount plan := lt_of_lt_of_le one_pos (le_max_left _ _)
  have hbalance : 0 < balance w server.userId := hpos.trans_le hcover
  obtain ⟨user, huser, hb⟩ := user_of_balance_pos hbalance
  obtain ⟨w₁, hrun, hcharges⟩ := chargeServer_run
    ("Server usage: '" ++ server.name ++ "' (15 min at " ++ toString plan.costPerHour ++ " NUKE/hour)")
    huser hpos.le (hb ▸ hcover)
  refine ⟨w₁, hcharges, ?_⟩
  rw [billServer, if_neg (not_le.mpr hcost), final_bind_of_ok (run_getBalance _ _), if_neg (not_le.mpr hbalance),
    final_logged, chargeTick, final_bind_of_ok hrun]
  rfl

theorem billServer_free {w : World} (runtime : Runtime) {plan : ServerPlan} (hcost : plan.costPerHour ≤ 0) :
    final (billServer runtime server plan) w = w := by
  rw [billServer, if_pos hcost, final_pure]

theorem billServer_metered {w : World} (runtime : Runtime) {plan : ServerPlan}
    (hfind : w.servers.find server.id = some server) (hcover : tickAmount plan ≤ balance w server.userId) :
    chargedTo (final (billServer runtime server plan) w) server.id =
        chargedTo w server.id + tickAmount plan ∧
      ∃ row, (final (billServer runtime server plan) w).servers.find server.id = some row ∧
        row.status = server.status ∧ row.totalCost = server.totalCost + tickAmount plan := by
  by_cases hcost : plan.costPerHour ≤ 0
  · rw [billServer_free runtime hcost, tickAmount, if_pos hcost, add_zero, add_zero]
    exact ⟨rfl, server, hfind, rfl, rfl⟩
  rw [tickAmount, if_neg hcost] at hcover ⊢
  have hpos : 0 < billingAmount plan := lt_of_lt_of_le one_pos (le_max_left _ _)
  obtain ⟨w₁, hcharges, hf⟩ := billServer_charged runtime (not_le.mp hcost) hcover
  have hbilled := Charges.billed hcharges hpos
  rw [hf]
  refine ⟨(hbilled.charged server.id).trans (by rw [if_pos rfl]), _,
    Table.find_modify_self _ (by intro _; rfl) (hbilled.row hfind rfl), rfl, rfl⟩

end Stops

section Steps

variable {id : Uuid} {s t : Lifetime}

inductive Stepped (id : Uuid) (s : Lifetime) : Event → Lifetime → Prop
  | created {event : Event} {request : SpawnRequest} {planId : Uuid} {v w' : World}
      (hsquare : ClosesSquare id s event) (hnone : s.world.servers.find id = none) (hid : request.serverId = id)
      (hv : v = s.world ∨ ∃ draft, draft.serverId = none ∧ Recorded draft s.world v)
      (hcreated : Created request planId v w') : Stepped id s event { s with world := w' }
  | launched {path : StartPath} {runtime : Runtime} {row : Server} {w' : World}
      (hrow : s.world.servers.find id = some row)
      (hlaunched : Launched row (launchedUsage path s.world row) s.world w') :
      Stepped id s (.launch path runtime)
        { world := w', owed := s.owed + (if row.status = .running then sessionOwed s.world row else 0), ticked := 0 }
  | ticked {runtime : Runtime} {row : Server} {plan : ServerPlan} (hrow : s.world.servers.find id = some row)
      (hrunning : row.status = .running) (hcover : tickAmount plan ≤ balance s.world row.userId) :
      Stepped id s (.tick runtime)
        { s with world := final (billServer runtime row plan) s.world, ticked := s.ticked + tickAmount plan }
  | stopped {path : ExitPath} {runtime : Runtime} {row : Server} {ps : Parts} {w' : World}
      (hrow : s.world.servers.find id = some row) (hrunning : row.status = .running)
      (hparts : parts path s.world runtime row = some ps) (hleft : Left row s.world ps w')
      (hstays : (w'.servers.find id).isSome)
      (hcover : sessionOwed s.world row - row.totalCost ≤ balance s.world row.userId) :
      Stepped id s (.stop path runtime) { world := w', owed := s.owed + sessionOwed s.world row, ticked := 0 }
  | deposited {userId actorId : Uuid} {amount : Int} {reason : String} {draft : TransactionDraft} {w' : World}
      (hdraft : draft.type ≠ .serverUsage) (hrecorded : Recorded draft s.world w') :
      Stepped id s (.deposit userId amount actorId reason) { s with world := w' }
  | waited {duration : Nat} :
      Stepped id s (.wait duration) { s with world := { s.world with now := s.world.now + duration } }

theorem returned_eq_some {α : Type} {h : Handler α} {w w' : World} {Q : α → World → Prop}
    (hreturns : Returns h w Q) (hr : returned h w = some w') : ∃ a, Q a w' := by
  unfold returned at hr
  cases hrun : h.run w with
  | ok a v =>
      rw [hrun] at hr
      cases hr
      exact ⟨a, hreturns a w' hrun⟩
  | error raise v =>
      rw [hrun] at hr
      exact nomatch hr

theorem step_stepped {event : Event} (h : step id s event = some t) : Stepped id s event t := by
  cases hfind : s.world.servers.find id with
  | none =>
      cases event with
      | create runtime commits request planId =>
          simp only [step, hfind] at h
          cases hu : s.world.users request.userId with
          | none => simp only [hu, reduceCtorEq] at h
          | some user =>
              simp only [hu, Option.ite_none_right_eq_some, Option.map_eq_some_iff] at h
              obtain ⟨hid, w', hr, rfl⟩ := h
              obtain ⟨_, hcreated⟩ := returned_eq_some provision_returns hr
              exact .created (by simp only [ClosesSquare]) hfind hid (.inl rfl) hcreated
      | queue runtime commits request planId =>
          simp only [step, hfind] at h
          cases hu : s.world.users request.userId with
          | none => simp only [hu, reduceCtorEq] at h
          | some user =>
              cases hp : s.world.plans planId with
              | none => simp only [hu, hp, reduceCtorEq] at h
              | some plan =>
                  simp only [hu, hp, Option.ite_none_right_eq_some, Option.map_eq_some_iff] at h
                  obtain ⟨hid, w', hr, rfl⟩ := h
                  obtain ⟨_, v, hv, hcreated⟩ := returned_eq_some provisionQueued_returns hr
                  exact .created (by simp only [ClosesSquare]) hfind hid hv hcreated
      | deposit userId amount actorId reason =>
          cases h
          exact .deposited (by simp only [ne_eq, reduceCtorEq, not_false_eq_true]) (createTransaction_recorded _ _)
      | wait duration =>
          cases h
          exact .waited
      | launch path runtime => simp only [step, hfind, reduceCtorEq] at h
      | tick runtime => simp only [step, hfind, reduceCtorEq] at h
      | stop path runtime => simp only [step, hfind, reduceCtorEq] at h
  | some row =>
      cases event with
      | create runtime commits request planId => simp only [step, hfind, reduceCtorEq] at h
      | queue runtime commits request planId => simp only [step, hfind, reduceCtorEq] at h
      | deposit userId amount actorId reason =>
          cases h
          exact .deposited (by simp only [ne_eq, reduceCtorEq, not_false_eq_true]) (createTransaction_recorded _ _)
      | wait duration =>
          cases h
          exact .waited
      | launch path runtime =>
          simp only [step, hfind, Option.ite_none_right_eq_some, Option.map_eq_some_iff] at h
          obtain ⟨hbegins, w', hr, rfl⟩ := h
          obtain ⟨_, hlaunched⟩ := returned_eq_some (launch_returns path hbegins) hr
          exact .launched hfind hlaunched
      | tick runtime =>
          simp only [step, hfind] at h
          cases hp : planOf s.world row with
          | none => simp only [hp, reduceCtorEq] at h
          | some plan =>
              simp only [hp, Option.ite_none_right_eq_some, Option.some.injEq] at h
              obtain ⟨⟨hrunning, hcover⟩, rfl⟩ := h
              exact .ticked hfind hrunning hcover
      | stop path runtime =>
          simp only [step, hfind, Option.ite_none_right_eq_some, Option.some.injEq] at h
          obtain ⟨⟨hrunning, hparts, hstays, hcover⟩, rfl⟩ := h
          obtain ⟨ps, hps⟩ := Option.isSome_iff_exists.mp hparts
          have hid : row.id = id := Table.key_of_find hfind
          exact .stopped hfind hrunning hps (leave_left path hps) hstays hcover

/-- What a step does: the tracked state stays tracked, and exactness is kept by
exactly the steps that close their session square. -/
structure Kept (id : Uuid) (s : Lifetime) (event : Event) (t : Lifetime) : Prop where
  tracked : Tracked id t
  exact_iff : Exact id s → (Exact id t ↔ ClosesSquare id s event)

theorem kept_of_same {event : Event} (hs : Tracked id s) (hsquare : ClosesSquare id s event) {w' : World}
    (hcharged : chargedTo w' id = chargedTo s.world id) (hservers : w'.servers = s.world.servers) :
    Kept id s event { s with world := w' } := by
  refine ⟨⟨hs.owed_nonneg, hs.ticked_nonneg, ?_, ?_, ?_, ?_⟩, fun hexact => ?_⟩
  · simpa only [hservers, hcharged] using hs.absent
  · simpa only [hservers, hcharged] using hs.cost
  · simpa only [hcharged] using hs.charged_nonneg
  · simpa only [hservers] using hs.idle
  · exact iff_of_true (hcharged.trans hexact) hsquare

theorem kept_created {event : Event} {request : SpawnRequest} {planId : Uuid} {v w' : World} (hs : Tracked id s)
    (hsquare : ClosesSquare id s event) (hnone : s.world.servers.find id = none) (hid : request.serverId = id)
    (hv : v = s.world ∨ ∃ draft, draft.serverId = none ∧ Recorded draft s.world v)
    (hcreated : Created request planId v w') : Kept id s event { s with world := w' } := by
  obtain ⟨hcharged, howed, hticked⟩ := hs.absent hnone
  obtain ⟨hvcharged, hvservers⟩ : chargedTo v id = 0 ∧ v.servers = s.world.servers := by
    rcases hv with rfl | ⟨draft, hdraft, hrecorded⟩
    · exact ⟨hcharged, rfl⟩
    · refine ⟨(chargedTo_recorded hrecorded (.inl ?_)).trans hcharged, servers_recorded hrecorded⟩
      rw [hdraft]
      exact nofun
  cases hcreated with
  | saved row quota mounts hv' hrow hquota =>
      have hrowid : row.id = id := hrow.id.trans hid
      have hfind : (v.servers.insert row).find id = some row := by
        rw [← hrowid]
        exact Table.find_insert_self (by rw [hrowid, hvservers, hnone])
      have hzero := (chargedTo_congr hv'.transactions id).trans hvcharged
      refine ⟨⟨hs.owed_nonneg, hs.ticked_nonneg, fun h => ?_, fun r hr => ?_, hzero.ge, fun r hr hne => ?_⟩, fun _ => ?_⟩
      · exact absurd (hfind.symm.trans h) nofun
      · cases hfind.symm.trans hr
        exact hrow.totalCost.trans hzero.symm
      · cases hfind.symm.trans hr
        exact absurd hrow.status hne
      · refine iff_of_true (hzero.trans ?_) hsquare
        rw [howed, hticked, add_zero]

theorem kept_launched {path : StartPath} {runtime : Runtime} {row : Server} {usage : Quantities.Usage} {w' : World}
    (hs : Tracked id s) (hrow : s.world.servers.find id = some row) (hlaunched : Launched row usage s.world w') :
    Kept id s (.launch path runtime)
      { world := w', owed := s.owed + (if row.status = .running then sessionOwed s.world row else 0), ticked := 0 } := by
  obtain rfl : row.id = id := Table.key_of_find hrow
  have howed := sessionOwed_nonneg s.world row
  have howed₀ := hs.owed_nonneg
  have hidle := hs.idle row hrow
  cases hlaunched with
  | @opened v f hid hv hf hstatus husage =>
      have hfind : (v.servers.modify row.id f hid).find row.id = some (f row) :=
        Table.find_modify_self f hid (hv.servers ▸ hrow)
      have hcharged := chargedTo_congr hv.transactions row.id
      refine ⟨⟨?_, le_rfl, fun h => ?_, fun r hr => ?_, ?_, fun r hr hne => rfl⟩, fun hexact => ?_⟩
      · dsimp only
        split <;> omega
      · exact absurd (hfind.symm.trans h) nofun
      · cases hfind.symm.trans hr
        rw [hf.totalCost, hs.cost row hrow]
        exact hcharged.symm
      · exact hcharged ▸ hs.charged_nonneg
      · have hafter : chargedTo { v with servers := v.servers.modify row.id f hid } row.id = s.owed + s.ticked :=
          hcharged.trans hexact
        simp only [Exact, ClosesSquare, hrow, hafter]
        by_cases hrunning : row.status = .running
        · simp only [hrunning, if_true, forall_const]
          omega
        · simp only [hrunning, if_false, false_imp_iff, iff_true]
          have := hidle hrunning
          omega

theorem kept_ticked {runtime : Runtime} {row : Server} {plan : ServerPlan} (hs : Tracked id s)
    (hrow : s.world.servers.find id = some row) (hrunning : row.status = .running)
    (hcover : tickAmount plan ≤ balance s.world row.userId) :
    Kept id s (.tick runtime)
      { s with world := final (billServer runtime row plan) s.world, ticked := s.ticked + tickAmount plan } := by
  obtain rfl : row.id = id := Table.key_of_find hrow
  obtain ⟨hcharged, r', hfind, hstatus, hcost⟩ := billServer_metered runtime hrow hcover
  have hamount : 0 ≤ tickAmount plan := by
    unfold tickAmount
    split
    · exact le_rfl
    · exact zero_le_one.trans (le_max_left _ _)
  have hticked := hs.ticked_nonneg
  have hnonneg := hs.charged_nonneg
  refine ⟨⟨hs.owed_nonneg, ?_, fun h => ?_, fun r hr => ?_, ?_, fun r hr hne => ?_⟩, fun hexact => ?_⟩
  · dsimp only
    omega
  · exact absurd (hfind.symm.trans h) nofun
  · cases hfind.symm.trans hr
    rw [hcost, hcharged, hs.cost row hrow]
  · dsimp only
    omega
  · cases hfind.symm.trans hr
    exact absurd (hstatus.trans hrunning) hne
  · simp only [Exact, ClosesSquare, iff_true] at hexact ⊢
    omega

theorem kept_stopped {path : ExitPath} {runtime : Runtime} {row : Server} {ps : Parts} {w' : World}
    (hs : Tracked id s) (hrow : s.world.servers.find id = some row)
    (hparts : parts path s.world runtime row = some ps) (hleft : Left row s.world ps w')
    (hstays : (w'.servers.find id).isSome)
    (hcover : sessionOwed s.world row - row.totalCost ≤ balance s.world row.userId) :
    Kept id s (.stop path runtime) { world := w', owed := s.owed + sessionOwed s.world row, ticked := 0 } := by
  obtain rfl : row.id = id := Table.key_of_find hrow
  obtain ⟨hcharged, r', hfind, hstatus, hcost⟩ := metered_of_left hleft hrow hstays
  have hrowcost := hs.cost row hrow
  have hnonneg := hs.charged_nonneg
  have hdue := due_eq (hrowcost ▸ hnonneg) hcover
  have howed := sessionOwed_nonneg s.world row
  have howed₀ := hs.owed_nonneg
  have hticked := hs.ticked_nonneg
  refine ⟨⟨?_, le_rfl, fun h => ?_, fun r hr => ?_, ?_, fun r hr hne => rfl⟩, fun hexact => ?_⟩
  · dsimp only
    omega
  · exact absurd (hfind.symm.trans h) nofun
  · cases hfind.symm.trans hr
    rw [hcost, hcharged, hrowcost]
  · dsimp only
    rw [hcharged]
    split <;> omega
  · simp only [Exact, ClosesSquare, hrow, hparts, Option.any_some] at hexact ⊢
    rw [hcharged]
    cases ps.bills with
    | true =>
        simp only [if_true, true_and]
        omega
    | false =>
        simp only [Bool.false_eq_true, if_false, false_and, or_false]
        omega

theorem kept_step {event : Event} (hs : Tracked id s) (h : step id s event = some t) : Kept id s event t := by
  cases step_stepped h with
  | created hsquare hnone hid hv hcreated => exact kept_created hs hsquare hnone hid hv hcreated
  | launched hrow hlaunched => exact kept_launched hs hrow hlaunched
  | ticked hrow hrunning hcover => exact kept_ticked hs hrow hrunning hcover
  | stopped hrow hrunning hparts hleft hstays hcover => exact kept_stopped hs hrow hparts hleft hstays hcover
  | deposited hdraft hrecorded =>
      refine kept_of_same hs (by simp only [ClosesSquare]) (chargedTo_recorded hrecorded (.inr hdraft)) ?_
      exact servers_recorded hrecorded
  | waited => exact kept_of_same hs (by simp only [ClosesSquare]) rfl rfl

end Steps

/-- A server's charges are exact in every state of its life exactly when every
session of it is closed square. -/
theorem billing_exact_iff (id : Uuid) (w : World) (hnew : w.servers.find id = none) (hfree : chargedTo w id = 0)
    (events : List Event) :
    AllStates (step id) (Exact id) (.begin w) events ↔ AllSteps (step id) (ClosesSquare id) (.begin w) events := by
  have htracked : Tracked id (.begin w) :=
    ⟨le_rfl, le_rfl, fun _ => ⟨hfree, rfl, rfl⟩, fun row hrow => absurd (hnew.symm.trans hrow) nofun, hfree.ge,
      fun _ _ _ => rfl⟩
  refine allStates_iff_allSteps (fun s event t hs h => (kept_step hs h).tracked)
    (fun s event t hs hexact h => (kept_step hs h).exact_iff hexact) events htracked ?_
  exact hfree

def sampleWorld : World :=
  { blankWorld with
    users := fun u => if u = 1 then some (newUser "ada") else none
    plans := fun p => if p = 3 then some (newPlan "small" 7) else none
    environments := fun e => if e = 4 then some { slug := "dev", image := "dev:1", toolImage := none } else none }

def sampleRequest : SpawnRequest where
  userId := 1
  username := "ada"
  serverName := "lab"
  environmentId := some 4
  cpu := 1
  memory := 2048
  disk := 10240
  gpu := 0
  gpuDevices := []
  volumeMounts := []
  serverId := 5

def oneSession : List Event :=
  [.create (obedient .running) .succeed sampleRequest 3, .tick (obedient .running), .wait 3600000000,
    .stop .stop (obedient .running)]

theorem billing_exact_iff_sample :
    AllStates (step 5) (Exact 5) (.begin sampleWorld) oneSession ↔
      AllSteps (step 5) (ClosesSquare 5) (.begin sampleWorld) oneSession :=
  billing_exact_iff 5 sampleWorld rfl rfl oneSession

/-- A second hour of the same server is not charged: what the first one cost
counts against it. -/
theorem second_session_not_exact :
    ¬ AllStates (step 5) (Exact 5) (.begin sampleWorld)
      (oneSession ++ [.launch (.start ⟨true, none⟩ "ada") (obedient .stopped), .wait 3600000000,
        .stop .stop (obedient .running)]) := by
  decide +kernel

end NukeLab.BillingLifetime
