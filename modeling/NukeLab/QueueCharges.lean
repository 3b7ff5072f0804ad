import NukeLab.CreationAtomicity
import NukeLab.ServerQueue

namespace NukeLab.QueueCharges

open Program Tables Records State Ledger GpuAllocator Quota DockerNames Spawner Lifecycle Launches ServerQueue Creation
open CreationAtomicity hiding Untouched IdsBelow

/-- A server of the entry's name and owner is there that was not before, and it runs. -/
def Started (entry : QueueEntry) (w t : World) : Prop :=
  ∃ row ∈ t.servers.rows, row ∉ w.servers.rows ∧ row.userId = entry.userId ∧ row.name = entry.serverName ∧
    row.status = .running

structure Unmoved (userId : Uuid) (w t : World) : Prop where
  balance : balance t userId = balance w userId
  transactions : t.transactions = w.transactions
  gpuAllocations : ∀ row, row ∈ t.gpuAllocations ↔ row ∈ w.gpuAllocations

def charges (userId : Uuid) (amount : Int) : List (Uuid × Int) := if amount > 0 then [(userId, -amount)] else []

structure ChargedOnce (userId : Uuid) (amount : Int) (w t : World) : Prop where
  balance : balance t userId = balance w userId - amount
  transactions : ∃ rows, t.transactions = w.transactions ++ rows ∧
    rows.map (fun r => (r.userId, r.amount)) = charges userId amount

def due (w : World) (plan : ServerPlan) : Int :=
  if w.settings.creditsEnabled ∧ plan.costPerHour > 0 then plan.costPerHour else 0

/-- An entry that ends with a server has paid for it once, and any other entry for nothing. -/
def Settled (entry : QueueEntry) (w t : World) : Prop :=
  (Started entry w t → ∀ plan ∈ w.plans entry.planId, ChargedOnce entry.userId (due w plan) w t) ∧
    (¬ Started entry w t → Unmoved entry.userId w t)

inductive Ending
  /-- before the usage is recalculated -/
  | unadmitted
  /-- after that, with the first hour charged or not, and devices reserved or not -/
  | broken (charged reserved : Bool)
  | saved
  deriving DecidableEq

/-- Where an entry's turn ends, told from the world before and what is answered meanwhile. -/
def ending (runtime : Runtime) (commits : Commits) (w : World) (entry : QueueEntry) : Ending :=
  match admission w entry with
  | .error _ => .unadmitted
  | .ok (plan, _) =>
    let w := recalculatedWorld w entry.userId none
    if (spawnRefusal w (quotaOf w entry.userId) entry.userId entry.planId none).isSome ∨ lacksCredits w entry plan ∨
        (reserves w plan ∧ ¬ allocatable w plan.gpuLimit) then .broken false false
    else if due w plan > 0 ∧ ¬ commits.charge then .broken false (reserves w plan)
    else if (spawnFails runtime w plan.gpuLimit []).isSome then .broken (due w plan > 0) false
    else if ¬ commits.server then .broken (due w plan > 0) (reserves w plan)
    else .saved

/-- What ending there must find, and must not have done, to leave nothing behind. -/
def Harmless (w : World) : Ending → Prop
  | .unadmitted | .saved => True
  | .broken charged reserved => NothingStale w ∧ charged = false ∧ reserved = false

/-- Identifiers are drawn from a supply no one has seen. -/
structure IdsBelow (w : World) : Prop where
  servers : ∀ server ∈ w.servers.rows, server.id < w.nextUuid
  gpuAllocations : ∀ row ∈ w.gpuAllocations, row.serverId < w.nextUuid

theorem due_nonneg (w : World) (plan : ServerPlan) : 0 ≤ due w plan := by
  unfold due
  split <;> omega

theorem due_congr {w v : World} (h : v.settings = w.settings) (plan : ServerPlan) : due v plan = due w plan := by
  rw [due, due, h]

/-- How far a turn has come: what it has charged, and what it has reserved for
the server to be. -/
structure Reached (w : World) (userId serverId : Uuid) (amount : Int) (reserved : Bool) (s : World) : Prop where
  settings : s.settings = w.settings
  plans : s.plans = w.plans
  servers : s.servers = w.servers
  charged : ChargedOnce userId amount w s
  gpuAllocations : ∃ rows, s.gpuAllocations = w.gpuAllocations ++ rows ∧ (rows ≠ [] ↔ reserved = true) ∧
    ∀ row ∈ rows, row.serverId = serverId

section Stages

variable {w s t : World} {userId serverId : Uuid} {amount : Int} {reserved : Bool}

theorem charged_nothing (w : World) (userId : Uuid) : ChargedOnce userId 0 w w :=
  ⟨(sub_zero _).symm, [], (List.append_nil _).symm, rfl⟩

theorem ChargedOnce.of_eq (h : ChargedOnce userId amount w s) (husers : t.users = s.users)
    (htransactions : t.transactions = s.transactions) : ChargedOnce userId amount w t := by
  obtain ⟨hbalance, hrows⟩ := h
  refine ⟨?_, htransactions ▸ hrows⟩
  rw [← hbalance, Ledger.balance, Ledger.balance, husers]

theorem reached_start (w : World) (userId serverId : Uuid) : Reached w userId serverId 0 false w :=
  ⟨rfl, rfl, rfl, charged_nothing w userId, [], (List.append_nil _).symm, by simp, nofun⟩

theorem Reached.offBooks (h : Reached w userId serverId amount reserved s) (hbooks : OffBooks s t)
    (hgpu : t.gpuAllocations = s.gpuAllocations) : Reached w userId serverId amount reserved t :=
  ⟨hbooks.settings.trans h.settings, hbooks.plans.trans h.plans, hbooks.servers.trans h.servers,
    h.charged.of_eq hbooks.users hbooks.transactions, hgpu ▸ h.gpuAllocations⟩

theorem Reached.updateEntry (h : Reached w userId serverId amount reserved s) (id : Uuid) (f : QueueEntry → QueueEntry) :
    Reached w userId serverId amount reserved (final (updateEntry id f) s) :=
  h.offBooks {} rfl

theorem Reached.giveUp (h : Reached w userId serverId amount reserved s)
    (hfresh : ∀ row ∈ w.gpuAllocations, row.serverId ≠ serverId) (entry : QueueEntry) (raise : Raise) :
    Reached w userId serverId amount false (final (giveUp entry serverId raise) s) := by
  obtain ⟨rows, hrows, -, hids⟩ := h.gpuAllocations
  refine ⟨h.settings, h.plans, h.servers, h.charged.of_eq rfl rfl, [], ?_, by simp, nofun⟩
  change withoutServer s.gpuAllocations serverId = _
  rw [hrows, withoutServer, List.filter_append, List.filter_eq_self.mpr, List.filter_eq_nil_iff.mpr]
  · simpa using hids
  · simpa using hfresh

/-- A turn that is broken off has settled its entry just when it has charged and
reserved nothing, and there was nothing to reap before it. -/
theorem Reached.settled_iff {entry : QueueEntry} (hids : IdsBelow w) (hnonneg : 0 ≤ amount)
    (h : Reached (recalculatedWorld w entry.userId none) entry.userId w.nextUuid amount reserved t) :
    Settled entry w t ↔ NothingStale w ∧ ¬ 0 < amount ∧ reserved = false := by
  have hservers : t.servers = w.servers := h.servers
  have hidle : ¬ Started entry w t := by
    rintro ⟨row, hrow, hnew, -⟩
    exact hnew (hservers ▸ hrow)
  have hunmoved : Settled entry w t ↔ Unmoved entry.userId w t :=
    ⟨fun hsettled => hsettled.2 hidle, fun hunmoved => ⟨fun hstarted => absurd hstarted hidle, fun _ => hunmoved⟩⟩
  rw [hunmoved, ← mem_recalculated_iff w entry.userId]
  obtain ⟨rows, hrows, hreserved, hserverId⟩ := h.gpuAllocations
  obtain ⟨charged, hcharged, hcharges⟩ := h.charged.transactions
  have hcharged : t.transactions = w.transactions ++ charged := hcharged
  constructor
  · intro hsame
    have hnone : rows = [] := by
      refine List.eq_nil_iff_forall_not_mem.mpr fun row hrow => ?_
      have hold := (hsame.gpuAllocations row).mp (hrows ▸ List.mem_append_right _ hrow)
      exact (hids.gpuAllocations row hold).ne (hserverId row hrow)
    refine ⟨fun row => ?_, fun hpos => ?_, ?_⟩
    · rw [← hsame.gpuAllocations row, hrows, hnone, List.append_nil]
    · rw [hsame.transactions, List.self_eq_append_right] at hcharged
      simp [hcharged, charges, hpos] at hcharges
    · rw [← Bool.not_eq_true, ← hreserved]
      exact not_not.mpr hnone
  · rintro ⟨hkept, hfree, hunreserved⟩
    have hnone : rows = [] := by
      rw [← Bool.not_eq_true, ← hreserved] at hunreserved
      exact not_not.mp hunreserved
    have hcharged' : charged = [] := by
      rw [charges, if_neg hfree] at hcharges
      exact List.map_eq_nil_iff.mp hcharges
    refine ⟨?_, ?_, fun row => ?_⟩
    · rw [h.charged.balance, le_antisymm (not_lt.mp hfree) hnonneg, sub_zero]
      rfl
    · rw [hcharged, hcharged', List.append_nil]
    · rw [hrows, hnone, List.append_nil, hkept]

theorem devices_returns {plan : ServerPlan} {v : World} (hv : Begun w [] v) (hbooks : OffBooks w v)
    (hfresh : ∀ row ∈ w.gpuAllocations, row.serverId ≠ serverId) (userId : Uuid) :
    Returns (ensureGpuDevices serverId plan.gpuLimit) v fun _ t =>
      (reserves w plan = true → allocatable w plan.gpuLimit = true) ∧ t.users = w.users ∧
        Reached w userId serverId 0 (reserves w plan) t := by
  intro devices t hr
  have ht := trans_of OffBooks hbooks (final_of_ok hr ▸ ensureGpuDevices_offBooks serverId plan.gpuLimit v)
  have hreserves : reserves v plan = reserves w plan := by rw [reserves, reserves, hv.settings]
  have hallocatable := allocatable_congr hv.settings hv.gpuAllocations plan.gpuLimit
  obtain ⟨hall, rfl⟩ := ensureGpuDevices_returns (fun row hrow => hfresh row (hv.gpuAllocations ▸ hrow)) devices t hr
  rw [hreserves, hallocatable] at hall
  refine ⟨hall, ht.users, ht.settings, ht.plans, ht.servers, (charged_nothing w userId).of_eq ht.users ht.transactions, ?_⟩
  exact (reserved_of_begun hv serverId fun h => hallocatable ▸ hall h).gpuAllocations

theorem devices_raises {plan : ServerPlan} {v : World} (hv : Begun w [] v) (hbooks : OffBooks w v) (userId : Uuid) :
    Raises (ensureGpuDevices serverId plan.gpuLimit) v fun raise t =>
      (∃ status detail, raise = .http status detail) ∧ (reserves w plan = true ∧ allocatable w plan.gpuLimit = false) ∧
        Reached w userId serverId 0 false t := by
  intro raise t hr
  obtain ⟨hhttp, hshort, rfl⟩ := ensureGpuDevices_raises raise t hr
  rw [reserves, hv.settings, allocatable_congr hv.settings hv.gpuAllocations] at hshort
  refine ⟨hhttp, hshort, hbooks.settings, hbooks.plans, hbooks.servers,
    (charged_nothing w userId).of_eq hbooks.users hbooks.transactions, [], ?_, by simp, by simp⟩
  rw [List.append_nil, hv.gpuAllocations]

theorem chargeQueued_run {commits : Commits} {request : SpawnRequest} {plan : ServerPlan} {user : User}
    (huser : s.users request.userId = some user) (hcovered : 0 < due s plan → due s plan ≤ user.nukeBalance) :
    (chargeQueued commits request plan).run s =
      if due s plan > 0 then
        if commits.charge then .ok () (post s (transactionFor s user (queuedCharge request plan)))
        else .error (.exception commits.message) s
      else .ok () s := by
  by_cases hdue : s.settings.creditsEnabled = true ∧ plan.costPerHour > 0
  · have hamount : due s plan = plan.costPerHour := if_pos hdue
    have hcovered : plan.costPerHour ≤ user.nukeBalance := hamount ▸ hcovered (hamount ▸ hdue.2)
    rw [hamount, if_pos hdue.2]
    cases hcharge : commits.charge with
    | false =>
        simp only [chargeQueued, EStateM.run_bind, EStateM.run_get, if_pos hdue, hcharge, Bool.false_eq_true,
          not_false_eq_true, if_true, if_false]
        rfl
    | true =>
        have heffective : effectiveAmount s.settings.creditsMaxBalance user.nukeBalance (-plan.costPerHour) =
            -plan.costPerHour := if_neg fun h => by omega
        have hrun := createTransaction_run (queuedCharge request plan) huser
          (by simp only [transactionFor, queuedCharge, heffective]; omega)
        have hconsume : (consumeCredits request.userId plan.costPerHour
            ("Initial spawn cost for queued server '" ++ request.serverName ++ "'") none).run s = _ := hrun
        simp only [chargeQueued, EStateM.run_bind, EStateM.run_get, if_pos hdue, hcharge, not_true, if_false, if_true,
          hconsume, EStateM.run_pure]
  · have hamount : due s plan = 0 := if_neg hdue
    rw [hamount, if_neg (lt_irrefl _)]
    simp only [chargeQueued, EStateM.run_bind, EStateM.run_get, if_neg hdue, EStateM.run_pure]

theorem Reached.posted {request : SpawnRequest} {plan : ServerPlan} {user : User}
    (h : Reached w request.userId serverId 0 reserved s) (huser : s.users request.userId = some user)
    (hdue : due w plan > 0) :
    Reached w request.userId serverId (due w plan) reserved
      (post s (transactionFor s user (queuedCharge request plan))) := by
  obtain ⟨hsettings, hplans, hservers, ⟨hbalance, rows, hrows, hcharges⟩, hgpu⟩ := h
  have hnil : rows = [] := List.map_eq_nil_iff.mp hcharges
  have hamount : due w plan = plan.costPerHour := if_pos (by
    by_contra hno
    exact absurd hdue (by rw [due, if_neg hno]; exact lt_irrefl _))
  have heffective : effectiveAmount s.settings.creditsMaxBalance user.nukeBalance (-plan.costPerHour) =
      -plan.costPerHour := if_neg fun h => by omega
  refine ⟨hsettings, hplans, hservers, ⟨?_, [transactionFor s user (queuedCharge request plan)], ?_, ?_⟩, hgpu⟩
  · have hold : Ledger.balance s request.userId = user.nukeBalance := by rw [Ledger.balance, huser]
    rw [sub_zero, hold] at hbalance
    simp only [Ledger.balance, post, transactionFor, queuedCharge, Function.update_self, huser, Option.map_some,
      heffective, hamount]
    rw [hbalance, Ledger.balance]
    omega
  · rw [post, hrows, hnil, List.append_nil]
  · rw [charges, if_pos hdue]
    simp only [List.map_cons, List.map_nil, transactionFor, queuedCharge, heffective, hamount]

theorem charge_returns {commits : Commits} {request : SpawnRequest} {plan : ServerPlan} {user : User}
    (h : Reached w request.userId serverId 0 reserved s) (huser : s.users request.userId = some user)
    (hcovered : 0 < due w plan → due w plan ≤ user.nukeBalance) :
    Returns (chargeQueued commits request plan) s fun _ t =>
      ¬ (due w plan > 0 ∧ ¬ commits.charge) ∧ Reached w request.userId serverId (due w plan) reserved t := by
  intro _ t hr
  have hsame := due_congr h.settings plan
  rw [chargeQueued_run huser (hsame ▸ hcovered), hsame] at hr
  split at hr
  · rename_i hdue
    split at hr
    · rename_i hcharge
      cases hr
      exact ⟨fun hno => hno.2 hcharge, h.posted huser hdue⟩
    · exact nomatch hr
  · rename_i hfree
    cases hr
    have hzero : due w plan = 0 := le_antisymm (not_lt.mp hfree) (due_nonneg w plan)
    exact ⟨fun hno => hfree hno.1, hzero ▸ h⟩

theorem charge_raises {commits : Commits} {request : SpawnRequest} {plan : ServerPlan} {user : User}
    (h : Reached w request.userId serverId 0 reserved s) (huser : s.users request.userId = some user)
    (hcovered : 0 < due w plan → due w plan ≤ user.nukeBalance) :
    Raises (chargeQueued commits request plan) s fun _ t => (due w plan > 0 ∧ commits.charge = false) ∧ t = s := by
  intro raise t hr
  have hsame := due_congr h.settings plan
  rw [chargeQueued_run huser (hsame ▸ hcovered), hsame] at hr
  split at hr
  · rename_i hdue
    split at hr
    · exact nomatch hr
    · rename_i hcharge
      cases hr
      exact ⟨⟨hdue, Bool.not_eq_true _ ▸ hcharge⟩, rfl⟩
  · exact nomatch hr

theorem recordStarted_refused {commits : Commits} (hserver : commits.server = false) (entry : QueueEntry) (new : Server)
    (user : User) : final (recordStarted commits entry new user) s = s := by
  simp only [recordStarted, recordQueued, saveServer, commit, hserver, Bool.false_eq_true, if_false, final,
    EStateM.run_bind, EStateM.run_get, run_throw]

def savedRow (s : World) (entry : QueueEntry) (new : Server) (user : User) : Server :=
  { new with planId := some entry.planId, lastActivity := some s.now, expiresAt := serverExpiry s user }

theorem recordStarted_saves {commits : Commits} (hserver : commits.server = true) (entry : QueueEntry) (new : Server)
    (user : User) :
    ∃ quotas queue, final (recordStarted commits entry new user) s =
      { s with servers := s.servers.insert (savedRow s entry new user), quotas := quotas, queue := queue } := by
  obtain ⟨quota, hrun, -⟩ := adjustUsage_run Quantities.Usage.plus entry.userId entry.planId
    { s with servers := s.servers.insert (savedRow s entry new user) }
  rw [savedRow] at hrun ⊢
  cases hquota : commits.quota with
  | false =>
      refine ⟨s.quotas, s.queue, ?_⟩
      simp only [recordStarted, recordQueued, saveServer, commit, hserver, hquota, final, EStateM.run_bind,
        EStateM.run_get, EStateM.run_modify, EStateM.run_pure, run_throw, if_true, Bool.false_eq_true,
        not_false_eq_true]
  | true =>
      refine ⟨Function.update s.quotas entry.userId (some quota),
        s.queue.map fun e => if e.id = entry.id then { e with status := .started, startedAt := some s.now } else e, ?_⟩
      simp only [recordStarted, recordQueued, saveServer, commit, hserver, hquota, final, EStateM.run_bind,
        EStateM.run_get, EStateM.run_modify, EStateM.run_pure, if_true, not_true, if_false, incrementUsage, hrun,
        run_utcNow, updateEntry]

end Stages

section Turns

variable {w : World} {runtime : Runtime} {commits : Commits} {entry : QueueEntry} {plan : ServerPlan} {user : User}

theorem Reached.started_settled {serverId : Uuid} {reserved : Bool} {s t : World} {row : Server}
    (hnew : w.servers.find row.id = none) (hplan : w.plans entry.planId = some plan)
    (h : Reached (recalculatedWorld w entry.userId none) entry.userId serverId (due w plan) reserved s)
    (hservers : t.servers = w.servers.insert row) (husers : t.users = s.users) (htransactions : t.transactions = s.transactions)
    (huser : row.userId = entry.userId) (hname : row.name = entry.serverName) (hruns : row.status = .running) :
    Settled entry w t := by
  have hstarted : Started entry w t := by
    refine ⟨row, ?_, fun hrow => ?_, huser, hname, hruns⟩
    · rw [hservers, Table.rows_insert_of_new hnew]
      exact List.mem_append_right _ (List.mem_singleton_self row)
    · exact absurd ((Table.find_of_mem hrow).symm.trans hnew) nofun
  refine ⟨fun _ plan' hplan' => ?_, fun hno => absurd hstarted hno⟩
  cases hplan.symm.trans hplan'
  obtain ⟨hbalance, hrows⟩ := h.charged.of_eq husers htransactions
  exact ⟨hbalance, hrows⟩

theorem spawnEntry_settled_iff (hids : IdsBelow w) (hplan : w.plans entry.planId = some plan)
    (huser : w.users entry.userId = some user) (hcovered : 0 < due w plan → due w plan ≤ user.nukeBalance) {e : Ending}
    (hend : e =
      let w := recalculatedWorld w entry.userId none
      if reserves w plan ∧ ¬ allocatable w plan.gpuLimit then .broken false false
      else if due w plan > 0 ∧ ¬ commits.charge then .broken false (reserves w plan)
      else if (spawnFails runtime w plan.gpuLimit []).isSome then .broken (due w plan > 0) false
      else if ¬ commits.server then .broken (due w plan > 0) (reserves w plan)
      else .saved) :
    Settled entry w (final (spawnEntry runtime commits entry plan user) (recalculatedWorld w entry.userId none)) ↔
      Harmless w e := by
  let u := recalculatedWorld w entry.userId none
  change e = if reserves u plan ∧ ¬ allocatable u plan.gpuLimit then .broken false false
      else if due u plan > 0 ∧ ¬ commits.charge then .broken false (reserves u plan)
      else if (spawnFails runtime u plan.gpuLimit []).isSome then .broken (due u plan > 0) false
      else if ¬ commits.server then .broken (due u plan > 0) (reserves u plan)
      else .saved at hend
  have hcovered : 0 < due u plan → due u plan ≤ user.nukeBalance := hcovered
  have hfresh : ∀ row ∈ u.gpuAllocations, row.serverId ≠ w.nextUuid := fun row hrow =>
    (hids.gpuAllocations row (recalculated_subset hrow)).ne
  have hbroken {amount : Int} {reserved : Bool} {t : World} (h : Reached u entry.userId w.nextUuid amount reserved t)
      (hnonneg : 0 ≤ amount) (he : e = .broken (decide (amount > 0)) reserved) : Settled entry w t ↔ Harmless w e := by
    rw [h.settled_iff hids hnonneg, he, Harmless, decide_eq_false_iff_not]
  have hv : Begun u [] { u with nextUuid := w.nextUuid + 1 } := (begun_start u u.quotas).next
  have hbooks : OffBooks u { u with nextUuid := w.nextUuid + 1 } := {}
  unfold spawnEntry
  rw [final_bind_of_ok (show newUuid.run u = .ok w.nextUuid { u with nextUuid := w.nextUuid + 1 } from rfl)]
  refine final_attempt (P := fun t => Settled entry w t ↔ Harmless w e) (fun devices s hr => ?_) fun raise s hr => ?_
  · obtain ⟨hall, husers, hs⟩ := devices_returns hv hbooks hfresh entry.userId devices s hr
    rw [if_neg fun h => h.2 (hall h.1)] at hend
    dsimp only
    refine final_attempt (P := fun t => Settled entry w t ↔ Harmless w e) (fun _ s₁ hr => ?_) fun raise s₁ hr => ?_
    · obtain ⟨hpaid, hs₁⟩ := charge_returns hs (husers ▸ huser) hcovered _ s₁ hr
      rw [if_neg hpaid] at hend
      dsimp only
      refine final_attempt (P := fun t => Settled entry w t ↔ Harmless w e) (fun new s₂ hr => ?_) fun raise s₂ hr => ?_
      · obtain ⟨hfails, hspawned, -⟩ := spawn_spawned new s₂ hr
        obtain ⟨hoff, containerId, rfl⟩ := spawn_returns _ _ _ new s₂ hr
        have hs₂ := hs₁.offBooks hoff hspawned.gpuAllocations
        have hruns : ¬ (spawnFails runtime u plan.gpuLimit []).isSome = true := by
          have hsame := isSome_spawnFails runtime hs₁.settings plan.gpuLimit
          rw [← hsame, show spawnFails runtime s₁ plan.gpuLimit _ = none from hfails]
          exact Bool.false_ne_true
        rw [if_neg hruns] at hend
        dsimp only
        rw [final_logged]
        cases hserver : commits.server with
        | false =>
            rw [recordStarted_refused hserver]
            rw [hserver, if_pos Bool.false_ne_true] at hend
            exact hbroken hs₂ (due_nonneg _ _) hend
        | true =>
            obtain ⟨quotas, queue, ht⟩ := recordStarted_saves (s := s₂) hserver entry _ user
            rw [hserver, if_neg (not_not.mpr rfl)] at hend
            rw [ht, hend]
            refine iff_of_true (hs₂.started_settled ?_ hplan (congrArg (Table.insert · _) hs₂.servers) rfl rfl rfl rfl rfl) trivial
            exact Table.find_eq_none_iff.mpr fun s hs => (hids.servers s hs).ne
      · obtain ⟨-, ensured, hfails, hspawned⟩ := spawn_raises raise s₂ hr
        have hs₂ := hs₁.offBooks (final_of_error hr ▸ spawn_offBooks _ _ s₁) hspawned.gpuAllocations
        have hbreaks : (spawnFails runtime u plan.gpuLimit []).isSome = true := by
          have hsame := isSome_spawnFails runtime hs₁.settings plan.gpuLimit
          rw [← hsame, show spawnFails runtime s₁ plan.gpuLimit _ = some ensured from hfails]
          rfl
        rw [if_pos hbreaks] at hend
        exact hbroken (hs₂.giveUp hfresh entry raise) (due_nonneg _ _) hend
    · obtain ⟨hunpaid, rfl⟩ := charge_raises hs (husers ▸ huser) hcovered raise s₁ hr
      rw [if_pos ⟨hunpaid.1, by simp [hunpaid.2]⟩] at hend
      simp only [hunpaid.2, Bool.false_eq_true, if_false]
      exact hbroken hs le_rfl hend
  · obtain ⟨⟨status, detail, rfl⟩, hshort, hs⟩ := devices_raises hv hbooks entry.userId raise s hr
    rw [if_pos ⟨hshort.1, by simp [hshort.2]⟩] at hend
    exact hbroken (hs.updateEntry _ _) le_rfl hend

theorem due_covered (huser : w.users entry.userId = some user) (h : lacksCredits w entry plan = false)
    (hpos : 0 < due w plan) : due w plan ≤ user.nukeBalance := by
  unfold due at hpos ⊢
  split at hpos
  · rename_i hdue
    rw [if_pos hdue]
    simpa [lacksCredits, balance, huser, hdue.1, hdue.2] using h
  · exact absurd hpos (lt_irrefl 0)

/-- An entry's turn has settled it exactly when it ended in a server, or broke off
before anything was charged, reserved or reaped. -/
theorem processEntry_settled_iff (hids : IdsBelow w) :
    Settled entry w (final (processEntry runtime commits entry) w) ↔ Harmless w (ending runtime commits w entry) := by
  obtain ⟨e, hend⟩ : ∃ e, e = ending runtime commits w entry := ⟨_, rfl⟩
  rw [← hend]
  unfold ending at hend
  unfold processEntry
  rw [final_get_bind]
  cases hadmission : admission w entry with
  | error message =>
      rw [hadmission] at hend
      rw [hend]
      refine iff_of_true ⟨?_, fun _ => ⟨rfl, rfl, fun _ => Iff.rfl⟩⟩ trivial
      rintro ⟨row, hrow, hnew, -⟩
      exact absurd hrow hnew
  | ok admitted =>
      obtain ⟨plan, user⟩ := admitted
      obtain ⟨hplan, huser⟩ := admission_ok hadmission
      rw [hadmission] at hend
      dsimp only at hend ⊢
      have hrefused (f : QueueEntry → QueueEntry) (he : e = .broken false false) :
          Settled entry w (final (updateEntry entry.id f) (recalculatedWorld w entry.userId none)) ↔ Harmless w e := by
        have h := (reached_start (recalculatedWorld w entry.userId none) entry.userId w.nextUuid).updateEntry entry.id f
        rw [h.settled_iff hids le_rfl, he]
        exact and_congr_right fun _ => and_congr_left fun _ => iff_of_true (lt_irrefl _) rfl
      rw [final_bind_of_ok (checkSpawnAllowed_run w entry.userId entry.planId)]
      cases hspawn : spawnRefusal (recalculatedWorld w entry.userId none)
          (quotaOf (recalculatedWorld w entry.userId none) entry.userId) entry.userId entry.planId none with
      | some refusal =>
          rw [if_pos (.inl (by rw [hspawn]; rfl))] at hend
          exact hrefused _ hend
      | none =>
          rw [hspawn] at hend
          dsimp only
          rw [final_get_bind]
          split
          · rename_i hlacks
            rw [if_pos (.inr (.inl hlacks))] at hend
            exact hrefused _ hend
          · rename_i hcan
            refine spawnEntry_settled_iff hids hplan huser (due_covered huser (Bool.not_eq_true _ ▸ hcan)) ?_
            rw [hend]
            simp only [Option.isSome_none, Bool.false_eq_true, hcan, false_or]

end Turns

/-- A server named "lab" waits in the queue, at five credits an hour. -/
def labEntry : QueueEntry where
  id := 9
  userId := 1
  environmentId := 3
  planId := 7
  status := .pending
  priority := 0
  serverName := "lab"
  requestedCpu := 1
  requestedMemory := 2048
  requestedDisk := 10240
  requestedAt := 0
  startedAt := none
  errorMessage := none
  retryCount := 0

def queuedWorld : World := { oneUserWorld with queue := [labEntry] }

theorem queuedWorld_ids : IdsBelow queuedWorld :=
  ⟨fun _ h => (List.not_mem_nil h).elim, fun _ h => (List.not_mem_nil h).elim⟩

/-- The server that starts is paid for once. -/
theorem processEntry_settled_iff_lab :
    Settled labEntry queuedWorld (final (processEntry (obedient .running) .succeed labEntry) queuedWorld) := by
  have hend : ending (obedient .running) .succeed queuedWorld labEntry = .saved := by decide +kernel
  rw [processEntry_settled_iff queuedWorld_ids, hend]
  trivial

def driverDown : Runtime := { obedient .running with spawnFault := some .beforeWork }

/-- The first hour is charged before the spawn fails, and nothing gives it back. -/
theorem charged_for_failed_spawn :
    IdsBelow queuedWorld ∧ (getNextInQueue queuedWorld).map QueueEntry.id = some labEntry.id ∧
      ¬ Settled labEntry queuedWorld (final (processEntry driverDown .succeed labEntry) queuedWorld) := by
  refine ⟨queuedWorld_ids, by decide +kernel, fun h => ?_⟩
  have hidle : ¬ Started labEntry queuedWorld (final (processEntry driverDown .succeed labEntry) queuedWorld) := by
    rintro ⟨row, hrow, -⟩
    have hnone : (final (processEntry driverDown .succeed labEntry) queuedWorld).servers.rows.length = 0 := by
      decide +kernel
    rw [List.length_eq_zero_iff.mp hnone] at hrow
    exact List.not_mem_nil hrow
  exact absurd (h.2 hidle).balance (by decide +kernel)

end NukeLab.QueueCharges
