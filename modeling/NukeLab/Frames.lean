import NukeLab.Lifecycle

namespace NukeLab.Frames

open Program Quantities Records State Ledger GpuAllocator Quota Billing Lifecycle

/-- A relation of worlds along which the steps of the bookkeeping move: what is
built of these steps moves along it as well. -/
structure Bookkeeping (R : World → World → Prop) : Prop where
  record : ∀ draft, Moves R (createTransaction draft)
  cost : ∀ id cost, Moves R (modifyServer id fun s => { s with totalCost := cost })
  billed : ∀ id (now : Instant), Moves R (modifyServer id fun s => { s with lastBilledAt := some now })
  quota : ∀ userId quota, Moves R (saveQuota userId quota)
  devices : ∀ id, Moves R (release id)
  container : ∀ runtime containerId, Moves R (Spawner.delete runtime containerId)

variable {R : World → World → Prop} [IsPreorder World R]

theorem moves_getBalance (userId : Uuid) : Moves R (getBalance userId) := .of_final_eq fun _ => rfl

theorem moves_utcNow : Moves R utcNow := .of_final_eq fun _ => rfl

theorem moves_findServer (id : Uuid) : Moves R (findServer id) := .of_final_eq fun _ => rfl

theorem moves_logged {m : Handler Unit} (h : Moves R m) : Moves R (logged m) := .tryCatch h fun _ => .pure _

theorem moves_orServerError {α : Type} (detail : String) {body : Handler α} (h : Moves R body) :
    Moves R (orServerError detail body) := by
  refine .tryCatch h fun raise => ?_
  cases raise with
  | http status text => exact .throw _
  | exception text => exact .throw _

theorem moves_getOrCreateUserQuota (hquota : ∀ userId quota, Moves R (saveQuota userId quota)) (userId : Uuid) :
    Moves R (getOrCreateUserQuota userId) :=
  .bind .get fun _ => .bind (hquota _ _) fun _ => .pure _

theorem moves_adjustUsage (hquota : ∀ userId quota, Moves R (saveQuota userId quota)) (move : Usage → Usage → Usage)
    (userId planId : Uuid) : Moves R (adjustUsage move userId planId) := by
  unfold adjustUsage
  refine .bind (moves_getOrCreateUserQuota hquota _) fun _ => .bind .get fun _ => ?_
  split
  · exact .pure _
  · exact .bind (hquota _ _) fun _ => .pure _

namespace Bookkeeping

theorem chargeServer (h : Bookkeeping R) (server : Server) (amount : Int) (description : String) :
    Moves R (chargeServer server amount description) :=
  (h.record _).bind fun _ => h.cost _ _

theorem reconcileServerBilling (h : Bookkeeping R) (server : Server) (plan : ServerPlan) :
    Moves R (reconcileServerBilling server plan) := by
  unfold Billing.reconcileServerBilling
  split
  · refine .ite (.pure _) (.ite (.pure _) (.ite (.pure _) ?_))
    refine .bind (moves_getBalance _) fun _ => ?_
    refine .ite ?_ (.ite ?_ (.pure _))
    · exact .bind (h.chargeServer _ _ _) fun _ => .pure _
    · exact .bind (h.chargeServer _ _ _) fun _ => .pure _
  · exact .pure _

theorem reconcileWith (h : Bookkeeping R) (server : Server) (plan : Option ServerPlan) : Moves R (reconcileWith server plan) := by
  cases plan with
  | none => exact .pure _
  | some plan => exact .bind (h.reconcileServerBilling _ _) fun _ => .pure _

theorem chargeTick (h : Bookkeeping R) (server : Server) (plan : ServerPlan) : Moves R (chargeTick server plan) :=
  .bind (h.chargeServer _ _ _) fun _ => .bind moves_utcNow fun _ => h.billed _ _

theorem stopDepleted (h : Bookkeeping R) (server : Server) (plan : ServerPlan)
    (hstamp : ∀ now : Instant, Moves R (modifyServer server.id fun s =>
      { s with containerId := none, status := .stopped, stoppedAt := some now, stopReason := some "credit_depleted" })) :
    Moves R (stopDepleted server plan) :=
  .bind moves_utcNow fun _ => .bind (hstamp _) fun _ => .bind (h.devices _) fun _ => h.reconcileWith _ _

theorem billServer (h : Bookkeeping R) (runtime : Runtime) (server : Server) (plan : ServerPlan)
    (hstamp : ∀ now : Instant, Moves R (modifyServer server.id fun s =>
      { s with containerId := none, status := .stopped, stoppedAt := some now, stopReason := some "credit_depleted" })) :
    Moves R (billServer runtime server plan) := by
  unfold Billing.billServer
  refine .ite (.pure _) (.bind (moves_getBalance _) fun _ => .ite ?_ ?_)
  · refine .bind .get fun _ => .ite ?_ (.pure _)
    exact moves_logged (.bind (h.container _ _) fun _ => .ite (h.stopDepleted _ _ hstamp) (.pure _))
  · exact moves_logged (h.chargeTick _ _)

theorem settle (h : Bookkeeping R) (serverId : Uuid) : Moves R (settle serverId) := by
  unfold Lifecycle.settle
  refine .bind (moves_findServer _) fun _ => ?_
  split
  · exact .pure _
  · split
    · exact .pure _
    · refine .bind .get fun _ => .bind (h.reconcileWith _ _) fun _ => ?_
      exact .bind (moves_adjustUsage h.quota _ _ _) fun _ => .pure _

theorem stopAndSettle (h : Bookkeeping R) (serverId : Uuid) (stamp : Instant → Server → Server)
    (hid : ∀ now s, (stamp now s).id = s.id) (hstamp : ∀ now, Moves R (modifyServer serverId (stamp now) (hid now))) :
    Moves R (stopAndSettle serverId stamp hid) :=
  .bind moves_utcNow fun _ => .bind (hstamp _) fun _ => .bind (h.devices _) fun _ => h.settle _

theorem stopAndRelease (h : Bookkeeping R) (serverId : Uuid) (stamp : Server → Server) (hid : ∀ s, (stamp s).id = s.id)
    (hstamp : Moves R (modifyServer serverId stamp hid)) : Moves R (stopAndRelease serverId stamp hid) :=
  .bind hstamp fun _ => h.devices _

theorem decrementFor (h : Bookkeeping R) (server : Server) : Moves R (decrementFor server) := by
  unfold Lifecycle.decrementFor
  split
  · exact .pure _
  · exact .bind (moves_adjustUsage h.quota _ _ _) fun _ => .pure _

end Bookkeeping

end NukeLab.Frames
