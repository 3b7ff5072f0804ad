import NukeLab.Settlement

namespace NukeLab.Exits

open Program Tables Quantities Records State Ledger GpuAllocator Quota Billing Lifecycle Settlement

inductive ExitPath
  | stop
  | scheduledStop
  | idleShutdown
  | logout
  | autoStop
  | creditDepletion
  | listServers
  | bulkStop
  | delete
  | bulkDelete
  deriving DecidableEq

/-- Which servers a path goes through: the tasks and the logout those that are live, the others any. -/
def ExitPath.selects : ExitPath → ServerStatus → Bool
  | .autoStop, status | .creditDepletion, status => status = .running
  | .idleShutdown, status | .logout, status => status = .running || status = .healthy
  | _, _ => true

def leave (path : ExitPath) (runtime : Runtime) (server : Server) : Handler Unit :=
  match path with
  | .stop => do
    let _ ← performServerStop runtime server
  | .scheduledStop => scheduledStop runtime server
  | .idleShutdown => shutdownIdle runtime server
  | .logout => stopOnLogout runtime server
  | .autoStop => enforceAutoStop runtime server
  | .creditDepletion => do
    match planOf (← get) server with
    | some plan => billServer runtime server plan
    | none => return
  | .listServers => syncStatus runtime server
  | .bulkStop => Lifecycle.bulkStop runtime server
  | .delete => do
    let _ ← performServerDelete runtime server
  | .bulkDelete => Lifecycle.bulkDelete runtime server

def releaseOnly : Parts := ⟨false, false, true, false⟩

/-- A stop that looks at the container first: where it is found stopped already,
only the devices are released. -/
def partsByStatus (runtime : Runtime) : Option Parts :=
  match runtime.status with
  | .unknown => none
  | .stopped => some releaseOnly
  | _ => if runtime.deletes then some .all else none

/-- Which parts of the bookkeeping each path does when it takes a server out, and
`none` where it does not. -/
def parts (path : ExitPath) (w : World) (runtime : Runtime) (server : Server) : Option Parts :=
  match path with
  | .stop => if server.containerId.isSome then partsByStatus runtime else some releaseOnly
  | .scheduledStop =>
    if server.containerId.isSome ∧ server.status = .running ∧ runtime.deletes then some .all else none
  | .idleShutdown => if server.containerId.isSome then partsByStatus runtime else some .all
  | .logout => if server.containerId.isSome then partsByStatus runtime else none
  | .autoStop =>
    match server.expiresAt with
    | some expiresAt => if expiresAt ≤ w.now ∧ runtime.deletes then some ⟨false, true, true, true⟩ else none
    | none => none
  | .creditDepletion =>
    match planOf w server with
    | some plan =>
      if 0 < plan.costPerHour ∧ balance w server.userId ≤ 0 ∧ w.settings.serverAutoStopOnDepletion ∧
          runtime.deletes then
        some ⟨true, false, true, true⟩
      else none
    | none => none
  | .listServers =>
    if server.containerId.isSome ∧ server.status = .running ∧ (runtime.status = .stopped ∨ runtime.status = .paused) then
      some ⟨false, false, false, true⟩
    else none
  | .bulkStop => if server.containerId.isSome ∧ runtime.stops then some releaseOnly else none
  | .delete | .bulkDelete =>
    if server.containerId.isNone ∨ runtime.deletes then some ⟨false, false, true, true⟩ else none

section Paths

variable {w : World} {runtime : Runtime} {server : Server} {ps : Parts}

theorem delete_run (containerId : Option Uuid) :
    (Spawner.delete runtime containerId).run w =
      .ok runtime.deletes (if runtime.deletes then final (Spawner.removeContainer containerId) w else w) := by
  cases h : runtime.deletes <;>
    simp only [Spawner.delete, h, Spawner.removeContainer, EStateM.run_bind, EStateM.run_modify, EStateM.run_pure,
      final_modify, if_true, Bool.false_eq_true, if_false]

theorem final_delete (h : runtime.deletes = true) (containerId : Option Uuid) {α : Type} (f : Bool → Handler α) :
    final (Spawner.delete runtime containerId >>= f) w =
      final (f true) (final (Spawner.removeContainer containerId) w) := by
  rw [final_bind_of_ok (delete_run containerId), h, if_pos rfl]

/-- What leaving by any path comes down to, by the parts of the bookkeeping done.
The containers may change in any way first. -/
inductive Left (server : Server) (w : World) : Parts → World → Prop
  | settled (containers : List Container) (stamp : Instant → Server → Server)
      (hid : ∀ now s, (stamp now s).id = s.id) (hkeeps : ∀ now, KeepsTerms (stamp now))
      (hstamp : ∀ now s, (stamp now s).stoppedAt = some now) :
      Left server w .all (final (stopAndSettle server.id stamp hid) { w with containers := containers })
  | released (containers : List Container) (stamp : Server → Server) (hid : ∀ s, (stamp s).id = s.id)
      (hkeeps : KeepsTerms stamp) (hstamp : (stamp server).stoppedAt = server.stoppedAt) :
      Left server w releaseOnly (final (stopAndRelease server.id stamp hid) { w with containers := containers })
  | limited (containers : List Container) (stamp : Server → Server) (hid : ∀ s, (stamp s).id = s.id)
      (hkeeps : KeepsTerms stamp) (hstamp : (stamp server).stoppedAt = some w.now) :
      Left server w ⟨false, true, true, true⟩
        (final (decrementFor server)
          (final (stopAndRelease server.id stamp hid) { w with containers := containers }))
  | depleted (containers : List Container) (plan : ServerPlan) (hplan : planOf w server = some plan) :
      Left server w ⟨true, false, true, true⟩ (final (stopDepleted server plan) { w with containers := containers })
  | synced :
      Left server w ⟨false, false, false, true⟩
        { w with
          servers := w.servers.modify server.id (fun s => { s with status := .stopped, stoppedAt := some w.now })
            fun _ => rfl }
  | deleted (w' : World) (husers : w'.users = w.users) (hquotas : w'.quotas = w.quotas)
      (hsettings : w'.settings = w.settings) (hservers : w'.servers = w.servers.erase server.id)
      (hrows : w'.gpuAllocations = withoutServer w.gpuAllocations server.id) :
      Left server w ⟨false, false, true, true⟩ w'

theorem stop_left (hparts : parts .stop w runtime server = some ps) :
    Left server w ps (final (performServerStop runtime server) w) := by
  cases hc : server.containerId with
  | none =>
      simp only [parts, hc, Option.isSome_none, Bool.false_eq_true, if_false, Option.some.injEq] at hparts
      subst hparts
      simp only [performServerStop, hc, final_bind_pure]
      exact .released w.containers _ _ ⟨fun _ => rfl, fun _ => rfl, fun _ => rfl, fun _ => rfl, fun _ => rfl, fun _ => rfl⟩ rfl
  | some c =>
      simp only [parts, hc, Option.isSome_some, if_true, partsByStatus] at hparts
      simp only [performServerStop, hc, final_orServerError]
      cases hs : runtime.status with
      | unknown => simp only [hs, reduceCtorEq] at hparts
      | stopped =>
          simp only [hs, Option.some.injEq] at hparts
          subst hparts
          dsimp only
          rw [final_bind_of_ok (delete_run _), final_bind_pure]
          split
          · exact .released _ _ _ ⟨fun _ => rfl, fun _ => rfl, fun _ => rfl, fun _ => rfl, fun _ => rfl, fun _ => rfl⟩ rfl
          · exact .released w.containers _ _ ⟨fun _ => rfl, fun _ => rfl, fun _ => rfl, fun _ => rfl, fun _ => rfl, fun _ => rfl⟩ rfl
      | running | paused =>
          simp only [hs, Option.ite_none_right_eq_some, Option.some.injEq] at hparts
          obtain ⟨hd, rfl⟩ := hparts
          dsimp only
          rw [final_delete hd]
          simp only [not_true, if_false, final_bind_pure, stopLive]
          exact .settled _ _ _ (fun _ => ⟨fun _ => rfl, fun _ => rfl, fun _ => rfl, fun _ => rfl, fun _ => rfl, fun _ => rfl⟩) fun _ _ => rfl

theorem scheduledStop_left
    (hparts : parts .scheduledStop w runtime server = some ps) :
    Left server w ps (final (scheduledStop runtime server) w) := by
  simp only [parts, Option.ite_none_right_eq_some, Option.some.injEq] at hparts
  obtain ⟨⟨hc, hrunning, hd⟩, rfl⟩ := hparts
  rw [scheduledStop, if_pos ⟨hc, hrunning⟩, final_delete hd, if_pos rfl]
  exact .settled _ _ _ (fun _ => ⟨fun _ => rfl, fun _ => rfl, fun _ => rfl, fun _ => rfl, fun _ => rfl, fun _ => rfl⟩) fun _ _ => rfl

theorem idleShutdown_left (hparts : parts .idleShutdown w runtime server = some ps) :
    Left server w ps (final (shutdownIdle runtime server) w) := by
  cases hc : server.containerId with
  | none =>
      simp only [parts, hc, Option.isSome_none, Bool.false_eq_true, if_false, Option.some.injEq] at hparts
      subst hparts
      simp only [shutdownIdle, hc]
      exact .settled w.containers _ _ (fun _ => ⟨fun _ => rfl, fun _ => rfl, fun _ => rfl, fun _ => rfl, fun _ => rfl, fun _ => rfl⟩) fun _ _ => rfl
  | some c =>
      simp only [parts, hc, Option.isSome_some, if_true, partsByStatus] at hparts
      simp only [shutdownIdle, hc]
      cases hs : runtime.status with
      | unknown => simp only [hs, reduceCtorEq] at hparts
      | stopped =>
          simp only [hs, Option.some.injEq] at hparts
          subst hparts
          exact .released w.containers _ _ ⟨fun _ => rfl, fun _ => rfl, fun _ => rfl, fun _ => rfl, fun _ => rfl, fun _ => rfl⟩ rfl
      | running | paused =>
          simp only [hs, Option.ite_none_right_eq_some, Option.some.injEq] at hparts
          obtain ⟨hd, rfl⟩ := hparts
          dsimp only
          rw [final_delete hd, if_pos rfl]
          exact .settled _ _ _ (fun _ => ⟨fun _ => rfl, fun _ => rfl, fun _ => rfl, fun _ => rfl, fun _ => rfl, fun _ => rfl⟩) fun _ _ => rfl

theorem logout_left (hparts : parts .logout w runtime server = some ps) :
    Left server w ps (final (stopOnLogout runtime server) w) := by
  simp only [parts, Option.ite_none_right_eq_some] at hparts
  obtain ⟨hc, hparts⟩ := hparts
  rw [stopOnLogout, if_pos hc]
  simp only [partsByStatus] at hparts
  cases hs : runtime.status with
  | unknown => simp only [hs, reduceCtorEq] at hparts
  | stopped =>
      simp only [hs, Option.some.injEq] at hparts
      subst hparts
      exact .released w.containers _ _ ⟨fun _ => rfl, fun _ => rfl, fun _ => rfl, fun _ => rfl, fun _ => rfl, fun _ => rfl⟩ rfl
  | running | paused =>
      simp only [hs, Option.ite_none_right_eq_some, Option.some.injEq] at hparts
      obtain ⟨hd, rfl⟩ := hparts
      dsimp only
      rw [final_delete hd, if_pos rfl]
      exact .settled _ _ _ (fun _ => ⟨fun _ => rfl, fun _ => rfl, fun _ => rfl, fun _ => rfl, fun _ => rfl, fun _ => rfl⟩) fun _ _ => rfl

theorem autoStop_left (hparts : parts .autoStop w runtime server = some ps) :
    Left server w ps (final (enforceAutoStop runtime server) w) := by
  cases he : server.expiresAt with
  | none => simp only [parts, he, reduceCtorEq] at hparts
  | some expiresAt =>
      simp only [parts, he, Option.ite_none_right_eq_some, Option.some.injEq] at hparts
      obtain ⟨⟨hexpired, hd⟩, rfl⟩ := hparts
      simp only [enforceAutoStop, he]
      rw [final_bind_of_ok (run_utcNow w), if_neg (not_lt.mpr hexpired), final_delete hd, if_pos rfl,
        final_bind_of_ok (stopAndRelease_run _ _ _ _)]
      exact .limited _ _ _ ⟨fun _ => rfl, fun _ => rfl, fun _ => rfl, fun _ => rfl, fun _ => rfl, fun _ => rfl⟩ rfl

theorem listServers_left
    (hparts : parts .listServers w runtime server = some ps) :
    Left server w ps (final (syncStatus runtime server) w) := by
  simp only [parts, Option.ite_none_right_eq_some, Option.some.injEq] at hparts
  obtain ⟨⟨hc, hrunning, hs⟩, rfl⟩ := hparts
  rw [syncStatus, if_pos hc, final_bind_of_ok (run_utcNow w)]
  rcases hs with hs | hs
  all_goals
    simp only [hs, hrunning, if_true]
    exact .synced

theorem bulkStop_left (hparts : parts .bulkStop w runtime server = some ps) :
    Left server w ps (final (Lifecycle.bulkStop runtime server) w) := by
  simp only [parts, Option.ite_none_right_eq_some, Option.some.injEq] at hparts
  obtain ⟨⟨hc, hs⟩, rfl⟩ := hparts
  simp only [Lifecycle.bulkStop, hc, if_true, hs, not_true, if_false]
  exact .released w.containers _ _ ⟨fun _ => rfl, fun _ => rfl, fun _ => rfl, fun _ => rfl, fun _ => rfl, fun _ => rfl⟩ rfl

theorem delete_left (hparts : parts .delete w runtime server = some ps) :
    Left server w ps (final (performServerDelete runtime server) w) := by
  simp only [parts, Option.ite_none_right_eq_some, Option.some.injEq] at hparts
  obtain ⟨hd, rfl⟩ := hparts
  rw [performServerDelete]
  cases hc : server.containerId with
  | none =>
      simp only [Option.isSome_none, Bool.false_eq_true, if_false]
      refine .deleted _ ?_ ?_ ?_ ?_ ?_ <;> rfl
  | some c =>
      have hd : runtime.deletes = true := hd.resolve_left (by simp [hc])
      simp only [Option.isSome_some, if_true]
      rw [final_delete hd]
      simp only [not_true, if_false]
      refine .deleted _ ?_ ?_ ?_ ?_ ?_ <;> rfl

theorem bulkDelete_left (hparts : parts .bulkDelete w runtime server = some ps) :
    Left server w ps (final (Lifecycle.bulkDelete runtime server) w) := by
  simp only [parts, Option.ite_none_right_eq_some, Option.some.injEq] at hparts
  obtain ⟨hd, rfl⟩ := hparts
  rw [Lifecycle.bulkDelete]
  cases hc : server.containerId with
  | none =>
      simp only [Option.isSome_none, Bool.false_eq_true, if_false]
      refine .deleted _ ?_ ?_ ?_ ?_ ?_ <;> rfl
  | some c =>
      have hd : runtime.deletes = true := hd.resolve_left (by simp [hc])
      simp only [Option.isSome_some, if_true]
      rw [final_delete hd]
      simp only [not_true, if_false]
      refine .deleted _ ?_ ?_ ?_ ?_ ?_ <;> rfl

theorem creditDepletion_left (hparts : parts .creditDepletion w runtime server = some ps) :
    Left server w ps (final (leave .creditDepletion runtime server) w) := by
  cases hp : planOf w server with
  | none => simp only [parts, hp, reduceCtorEq] at hparts
  | some plan =>
      simp only [parts, hp, Option.ite_none_right_eq_some, Option.some.injEq] at hparts
      obtain ⟨⟨hcost, hbalance, hauto, hd⟩, rfl⟩ := hparts
      simp only [leave, final_get_bind, hp, billServer, not_le.mpr hcost, if_false]
      rw [final_bind_of_ok (run_getBalance _ _)]
      simp only [hbalance, if_true, final_get_bind, hauto, final_logged, depletionStop]
      rw [final_delete hd, if_pos rfl]
      exact .depleted _ plan hp

/-- Each path does the parts of the bookkeeping it is listed with, and no more. -/
theorem leave_left (path : ExitPath)
    (hparts : parts path w runtime server = some ps) : Left server w ps (final (leave path runtime server) w) := by
  cases path with
  | stop =>
      rw [leave, final_bind_pure]
      exact stop_left hparts
  | scheduledStop => exact scheduledStop_left hparts
  | idleShutdown => exact idleShutdown_left hparts
  | logout => exact logout_left hparts
  | autoStop => exact autoStop_left hparts
  | creditDepletion => exact creditDepletion_left hparts
  | listServers => exact listServers_left hparts
  | bulkStop => exact bulkStop_left hparts
  | delete =>
      rw [leave, final_bind_pure]
      exact delete_left hparts
  | bulkDelete => exact bulkDelete_left hparts

theorem stopDepleted_account (v : World) (plan : ServerPlan) (hfind : v.servers.find server.id = some server)
    (hp : planOf v server = some plan) (lower : Usage → Usage) :
    account server (final (stopDepleted server plan) v) =
      (account server v).apply ⟨true, false, true, true⟩ (due v server) lower := by
  let row : Server := { server with stoppedAt := some v.now }
  let v₁ : World :=
    { v with
      servers := v.servers.modify server.id
        (fun s => { s with containerId := none, status := .stopped, stoppedAt := some v.now,
                           stopReason := some "credit_depleted" }) fun _ => rfl
      gpuAllocations := withoutServer v.gpuAllocations server.id }
  obtain ⟨v₂, hrun, hbilled⟩ := reconcileWith_run v₁ row (some plan)
  have hf : final (stopDepleted server plan) v = v₂ := final_of_ok hrun
  have hrow : (v₁.servers.find server.id).map Server.stoppedAt = some (some v.now) := by
    simp only [v₁, Table.find_modify, hfind, Option.map_some, if_true]
  obtain ⟨r, hr, hstop⟩ := Option.map_eq_some_iff.mp hrow
  rw [hf]
  refine Account.ext ?_ ?_ ?_ ?_
  · refine hbilled.balance.trans ?_
    simp only [due, hp]
    rfl
  · simp only [account, quotaOf, hbilled.quotas, hbilled.settings, v₁]
    rfl
  · simp only [account, hbilled.gpuAllocations, v₁, devicesOf_withoutServer]
    rfl
  · refine (stampedAt_of_billed hbilled server.id).trans ?_
    simp only [hr, stampedAt, hstop]
    exact decide_eq_true rfl

theorem Left.account {w' : World} (h : Left server w ps w') (hfind : w.servers.find server.id = some server) :
    Settlement.account server w' = (Settlement.account server w).apply ps (due w server) (lowered w server) := by
  cases h with
  | settled containers stamp hid hkeeps hstamp =>
      exact stopAndSettle_account { w with containers := containers } hfind hkeeps hstamp
  | released containers stamp hid hkeeps hstamp =>
      exact stopAndRelease_account { w with containers := containers } hfind false hstamp _ _
  | limited containers stamp hid hkeeps hstamp =>
      have hreleased : Settlement.account server
          (final (stopAndRelease server.id stamp hid) { w with containers := containers }) = _ :=
        stopAndRelease_account { w with containers := containers } hfind true hstamp (due w server) (lowered w server)
      rw [decrementFor_account, hreleased]
      exact Account.ext rfl rfl rfl rfl
  | depleted containers plan hplan =>
      exact stopDepleted_account { w with containers := containers } plan hfind hplan _
  | synced =>
      refine Account.ext rfl rfl rfl ?_
      simp only [Settlement.account, Table.find_modify, hfind, Option.map_some, if_true, stampedAt, decide_true,
        Account.apply, Bool.true_or]
  | deleted w' husers hquotas hsettings hservers hrows =>
      refine Account.ext ?_ ?_ ?_ ?_
      · simp only [Settlement.account, balance, husers, Account.apply, Bool.false_eq_true, if_false]
      · simp only [Settlement.account, quotaOf, hquotas, hsettings, Account.apply, Bool.false_eq_true, if_false]
      · simp only [Settlement.account, hrows, devicesOf_withoutServer, Account.apply, if_true]
      · simp only [Settlement.account, hservers, Table.find_erase_self, stampedAt, Account.apply, Bool.true_or]

theorem shares_stopped {w' : World} {userId : Uuid} (stamp : Server → Server) (hid : ∀ s, (stamp s).id = s.id)
    (hservers : w'.servers.rows.map (counted userId) =
      (w.servers.modify server.id stamp hid).rows.map (counted userId))
    (hstatus : ∀ s, (stamp s).status = .stopped) : shares w' userId none = shares w userId (some server.id) := by
  rw [shares_eq, shares_eq_filter, hservers, Table.modify, List.map_map]
  induction w.servers.rows with
  | nil => rfl
  | cons s rows ih =>
      rw [List.map_cons, Function.comp_apply]
      by_cases hs : s.id = server.id
      · rw [if_pos hs, counted_stopped (hstatus s), List.filter_cons_of_neg (by simp), ih,
          List.filter_cons_of_neg (by simp [hs])]
      · have hkept : (s :: rows).filter (fun s => some s.id ≠ some server.id) =
            s :: rows.filter fun s => some s.id ≠ some server.id := List.filter_cons_of_pos (by simpa using hs)
        rw [if_neg hs, hkept, List.map_cons, List.filter_cons, List.filter_cons, ih]

theorem Left.shares {w' : World} (h : Left server w ps w') (userId : Uuid)
    (hfind : w.servers.find server.id = some server) :
    Quota.shares w' userId none = Quota.shares w userId (some server.id) := by
  cases h with
  | settled containers stamp hid hkeeps hstamp =>
      obtain ⟨w₁, quotas, hf, hbilled, -⟩ := stopAndSettle_billed { w with containers := containers } hfind hkeeps hstamp
      rw [hf]
      exact shares_stopped (stamp w.now) (hid w.now) (hbilled.counted userId) (hkeeps w.now).status
  | released containers stamp hid hkeeps hstamp =>
      exact shares_stopped stamp hid rfl hkeeps.status
  | limited containers stamp hid hkeeps hstamp =>
      have hservers : (final (decrementFor server)
          (final (stopAndRelease server.id stamp hid) { w with containers := containers })).servers =
          w.servers.modify server.id stamp hid := by
        cases hp : server.planId with
        | none =>
            simp only [decrementFor, hp, final_pure]
            rfl
        | some planId =>
            obtain ⟨quota, hrun, -⟩ := adjustUsage_run Usage.monus server.userId planId
              (final (stopAndRelease server.id stamp hid) { w with containers := containers })
            simp only [decrementFor, hp, final_bind_pure]
            rw [decrementUsage, final_of_ok hrun]
            rfl
      exact shares_stopped stamp hid (congrArg (fun t => t.rows.map (counted userId)) hservers) hkeeps.status
  | depleted containers plan hplan =>
      let stamp : Server → Server := fun s =>
        { s with containerId := none, status := .stopped, stoppedAt := some w.now, stopReason := some "credit_depleted" }
      obtain ⟨w₁, hrun, hbilled⟩ :=
        reconcileWith_run (stamped { w with containers := containers } server.id stamp fun _ => rfl)
          { server with stoppedAt := some w.now } (some plan)
      rw [show final (stopDepleted server plan) { w with containers := containers } = w₁ from final_of_ok hrun]
      exact shares_stopped stamp (fun _ => rfl) (hbilled.counted userId) fun _ => rfl
  | synced =>
      let stamp : Server → Server := fun s => { s with status := .stopped, stoppedAt := some w.now }
      exact shares_stopped stamp (fun _ => rfl) rfl fun _ => rfl
  | deleted w' husers hquotas hsettings hservers hrows =>
      rw [shares_eq, shares_eq_filter, hservers]
      simp only [Table.erase, Table.filter, ne_eq, Option.some.injEq]

def resumes (path : ExitPath) (runtime : Runtime) (server : Server) : Bool :=
  path = .listServers ∧ server.containerId.isSome ∧ runtime.status = .running ∧ server.status ≠ .running

theorem final_delete_refused (h : runtime.deletes = false) (containerId : Option Uuid) {α : Type} (f : Bool → Handler α) :
    final (Spawner.delete runtime containerId >>= f) w = final (f false) w := by
  rw [final_bind_of_ok (delete_run containerId), h, if_neg Bool.false_ne_true]

/-- A path that takes the server nowhere changes nothing, unless it finds it resumed or bills a tick. -/
theorem leave_stays (path : ExitPath) (hparts : parts path w runtime server = none)
    (hresumes : resumes path runtime server = false) (htick : path ≠ .creditDepletion) :
    final (leave path runtime server) w = w := by
  cases path with
  | stop =>
      cases hc : server.containerId with
      | none => simp only [parts, hc, Option.isSome_none, Bool.false_eq_true, if_false, reduceCtorEq] at hparts
      | some c =>
          simp only [parts, hc, Option.isSome_some, if_true, partsByStatus] at hparts
          simp only [leave, final_bind_pure, performServerStop, hc, final_orServerError]
          cases hs : runtime.status with
          | unknown => rfl
          | stopped => simp only [hs, reduceCtorEq] at hparts
          | running | paused =>
              simp only [hs, ite_eq_right_iff, reduceCtorEq, imp_false, Bool.not_eq_true] at hparts
              dsimp only
              rw [final_delete_refused hparts]
              rfl
  | scheduledStop =>
      simp only [parts, ite_eq_right_iff, reduceCtorEq, imp_false] at hparts
      simp only [leave, scheduledStop]
      split
      · rename_i h
        rw [final_delete_refused (Bool.eq_false_iff.mpr fun hd => hparts ⟨h.1, h.2, hd⟩)]
        rfl
      · rfl
  | idleShutdown =>
      cases hc : server.containerId with
      | none => simp only [parts, hc, Option.isSome_none, Bool.false_eq_true, if_false, reduceCtorEq] at hparts
      | some c =>
          simp only [parts, hc, Option.isSome_some, if_true, partsByStatus] at hparts
          simp only [leave, shutdownIdle, hc]
          cases hs : runtime.status with
          | unknown => rfl
          | stopped => simp only [hs, reduceCtorEq] at hparts
          | running | paused =>
              simp only [hs, ite_eq_right_iff, reduceCtorEq, imp_false, Bool.not_eq_true] at hparts
              dsimp only
              rw [final_delete_refused hparts]
              rfl
  | logout =>
      simp only [leave, stopOnLogout]
      split
      · rename_i hc
        simp only [parts, hc, if_true, partsByStatus] at hparts
        cases hs : runtime.status with
        | unknown => rfl
        | stopped => simp only [hs, reduceCtorEq] at hparts
        | running | paused =>
            simp only [hs, ite_eq_right_iff, reduceCtorEq, imp_false, Bool.not_eq_true] at hparts
            dsimp only
            rw [final_delete_refused hparts]
            rfl
      · rfl
  | autoStop =>
      cases he : server.expiresAt with
      | none => simp only [leave, enforceAutoStop, he, final_bind_of_ok (run_utcNow w), final_pure]
      | some expiresAt =>
          simp only [parts, he, ite_eq_right_iff, reduceCtorEq, imp_false, not_and, Bool.not_eq_true] at hparts
          simp only [leave, enforceAutoStop, he]
          rw [final_bind_of_ok (run_utcNow w)]
          split
          · rfl
          · rename_i hexpired
            rw [final_delete_refused (hparts (not_lt.mp hexpired))]
            rfl
  | creditDepletion => exact absurd rfl htick
  | listServers =>
      simp only [leave, syncStatus]
      split
      · rename_i hc
        rw [final_bind_of_ok (run_utcNow w)]
        cases hs : runtime.status with
        | running =>
            have hrunning : server.status = .running := by simpa [resumes, hc, hs] using hresumes
            simp only [hrunning, ne_eq, not_true, if_false, final_pure]
        | stopped | paused =>
            have hrunning : server.status ≠ .running := by simpa [parts, hc, hs] using hparts
            simp only [hrunning, if_false, final_pure]
        | unknown => rfl
      · rfl
  | bulkStop =>
      simp only [leave, Lifecycle.bulkStop]
      split
      · rename_i hc
        have hs : runtime.stops = false := by simpa [parts, hc] using hparts
        simp only [hs, Bool.false_eq_true, not_false_eq_true, if_true]
        rfl
      · rfl
  | delete =>
      have hkept : server.containerId.isSome = true ∧ runtime.deletes = false := by
        simpa [parts, not_or, Option.isSome_iff_ne_none] using hparts
      simp only [leave, final_bind_pure, performServerDelete, hkept.1, if_true]
      rw [final_delete_refused hkept.2]
      rfl
  | bulkDelete =>
      have hkept : server.containerId.isSome = true ∧ runtime.deletes = false := by
        simpa [parts, not_or, Option.isSome_iff_ne_none] using hparts
      simp only [leave, Lifecycle.bulkDelete, hkept.1, if_true]
      rw [final_delete_refused hkept.2]
      rfl

theorem stopLive_account (hfind : w.servers.find server.id = some server) :
    account server (final (stopLive server.id) w) =
      (account server w).apply .all (due w server) (lowered w server) :=
  stopAndSettle_account w hfind (fun _ => ⟨fun _ => rfl, fun _ => rfl, fun _ => rfl, fun _ => rfl, fun _ => rfl, fun _ => rfl⟩) (fun _ _ => rfl)

end Paths

/-- The account after the whole bookkeeping: the due amount billed, the server's
own allocation given back, no device reserved, the stop stamped. -/
def settledAccount (server : Server) (w : World) : Account where
  balance := balance w server.userId - due w server
  usage := (quotaOf w server.userId).usage.minus (serverUsage server)
  devices := []
  stamped := true

/-- The path leaves the account the user's own stop of a live container leaves,
and that account is the settled one. -/
def AgreesWithStop (path : ExitPath) (runtime : Runtime) (server : Server) (w : World) : Prop :=
  account server (final (leave path runtime server) w) = account server (final (stopLive server.id) w) ∧
    account server (final (leave path runtime server) w) = settledAccount server w

instance (path : ExitPath) (runtime : Runtime) (server : Server) (w : World) :
    Decidable (AgreesWithStop path runtime server w) :=
  inferInstanceAs (Decidable (_ ∧ _))

structure OmitsNothing (ps : Parts) (w : World) (server : Server) : Prop where
  bills : ps.bills = false → due w server = 0
  decrements : ps.decrements = false → lowered w server (quotaOf w server.userId).usage = (quotaOf w server.userId).usage
  releases : ps.releases = false → devicesOf w.gpuAllocations server.id = []
  stamps : ps.stamps = false → stampedAt w.now (w.servers.find server.id) = true

def LowersByAllocation (w : World) (server : Server) : Prop :=
  lowered w server (quotaOf w server.userId).usage = (quotaOf w server.userId).usage.minus (serverUsage server)

theorem leave_agrees_iff (path : ExitPath) (runtime : Runtime) (w : World) (server : Server) (ps : Parts)
    (hfind : w.servers.find server.id = some server) (hparts : parts path w runtime server = some ps) :
    AgreesWithStop path runtime server w ↔ OmitsNothing ps w server ∧ LowersByAllocation w server := by
  rw [AgreesWithStop, (leave_left path hparts).account hfind, stopLive_account hfind]
  constructor
  · rintro ⟨hsame, hsettled⟩
    obtain ⟨hb, hd, hr, hs⟩ := (Account.apply_eq_iff _ ps _ _).mp hsame
    rw [hsame] at hsettled
    exact ⟨⟨hb, hd, hr, hs⟩, congrArg Account.usage hsettled⟩
  · rintro ⟨⟨hb, hd, hr, hs⟩, hlower⟩
    have hsame := (Account.apply_eq_iff (account server w) ps (due w server) (lowered w server)).mpr ⟨hb, hd, hr, hs⟩
    refine ⟨hsame, hsame.trans ?_⟩
    exact Account.ext rfl hlower rfl rfl

def expiredServer : Server := { newServer 5 1 3 6 "lab" 0 with expiresAt := some hour }

def expiredWorld : World :=
  { blankWorld with
    now := hour
    users := fun u => if u = 1 then some (newUser "ada") else none
    plans := fun p => if p = 3 then some (newPlan "small" 7) else none
    servers := (Table.empty Server.id).insert expiredServer
    quotas := fun u =>
      if u = 1 then some { blankWorld.settings.quotaDefaults with usage := ⟨1, 2048, 0, 1⟩, usageDiskMb := 0 }
      else none }

theorem leave_agrees_iff_sample :
    AgreesWithStop .stop (obedient .running) expiredServer expiredWorld ↔
      OmitsNothing .all expiredWorld expiredServer ∧ LowersByAllocation expiredWorld expiredServer :=
  leave_agrees_iff .stop (obedient .running) expiredWorld expiredServer .all (by rfl) (by decide +kernel)

/-- The runtime limit stops the server without billing its last hour. -/
theorem autoStop_disagrees : ¬ AgreesWithStop .autoStop (obedient .running) expiredServer expiredWorld := by
  decide +kernel

end NukeLab.Exits
