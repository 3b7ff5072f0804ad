import NukeLab.Lifecycle

namespace NukeLab.Settlement

open Program Tables Quantities Records State Ledger GpuAllocator Quota Billing Lifecycle

/-- What a stop settles, as one server and its owner see it: the owner's
balance and quota usage, the devices still reserved, and whether the row is
stamped with the present time or gone. -/
@[ext] structure Account where
  balance : Int
  usage : Usage
  devices : List Device
  stamped : Bool
  deriving DecidableEq

def stampedAt (now : Instant) : Option Server → Bool
  | none => true
  | some row => row.stoppedAt = some now

def account (server : Server) (w : World) : Account where
  balance := balance w server.userId
  usage := (quotaOf w server.userId).usage
  devices := devicesOf w.gpuAllocations server.id
  stamped := stampedAt w.now (w.servers.find server.id)

/-- What the session of a server still owes, if it stops now. -/
def due (w : World) (server : Server) : Int :=
  match planOf w server with
  | some plan => toBill w { server with stoppedAt := some w.now } plan
  | none => 0

def lowered (w : World) (server : Server) (usage : Usage) : Usage := movedBy Usage.monus (planOf w server) usage

structure Parts where
  bills : Bool
  decrements : Bool
  releases : Bool
  stamps : Bool
  deriving DecidableEq

def Parts.all : Parts := ⟨true, true, true, true⟩

def Account.apply (a : Account) (ps : Parts) (bill : Int) (lower : Usage → Usage) : Account where
  balance := if ps.bills then a.balance - bill else a.balance
  usage := if ps.decrements then lower a.usage else a.usage
  devices := if ps.releases then [] else a.devices
  stamped := ps.stamps || a.stamped

theorem Account.apply_eq_iff (a : Account) (ps : Parts) (bill : Int) (lower : Usage → Usage) :
    a.apply ps bill lower = a.apply .all bill lower ↔
      (ps.bills = false → bill = 0) ∧ (ps.decrements = false → lower a.usage = a.usage) ∧
        (ps.releases = false → a.devices = []) ∧ (ps.stamps = false → a.stamped = true) := by
  obtain ⟨bills, decrements, releases, stamps⟩ := ps
  simp only [Account.ext_iff, Account.apply, Parts.all, if_true, Bool.true_or]
  refine and_congr ?_ (and_congr ?_ (and_congr ?_ ?_))
  · cases bills <;> simp; omega
  · cases decrements <;> simp [eq_comm]
  · cases releases <;> simp
  · cases stamps <;> simp

/-- A row edit of a stop marks the row stopped, and leaves what billing and
quota read alone. -/
structure KeepsTerms (f : Server → Server) : Prop where
  status : ∀ s, (f s).status = .stopped := by intro _; rfl
  id : ∀ s, (f s).id = s.id := by intro _; rfl
  userId : ∀ s, (f s).userId = s.userId := by intro _; rfl
  planId : ∀ s, (f s).planId = s.planId := by intro _; rfl
  startedAt : ∀ s, (f s).startedAt = s.startedAt := by intro _; rfl
  totalCost : ∀ s, (f s).totalCost = s.totalCost := by intro _; rfl

theorem devicesOf_withoutServer (rows : List GpuAllocation) (serverId : Uuid) :
    devicesOf (withoutServer rows serverId) serverId = [] := by
  simp only [devicesOf, withoutServer, List.filter_filter, List.map_eq_nil_iff, List.filter_eq_nil_iff]
  intro row _
  simp

theorem decrementFor_account (server : Server) (w : World) :
    account server (final (decrementFor server) w) =
      { account server w with usage := lowered w server (quotaOf w server.userId).usage } := by
  cases hp : server.planId with
  | none => simp only [decrementFor, hp, final_pure, lowered, planOf, Option.bind_none, account, movedBy]
  | some planId =>
      obtain ⟨quota, hrun, hquota⟩ := adjustUsage_run Usage.monus server.userId planId w
      have hf : final (decrementFor server) w =
          { w with quotas := Function.update w.quotas server.userId (some quota) } := by
        simp only [decrementFor, hp, final_bind_pure]
        exact final_of_ok hrun
      rw [hf]
      refine Account.ext rfl ?_ rfl rfl
      refine (congrArg ResourceQuota.usage (quotaOf_update_self w server.userId quota)).trans ?_
      simp only [hquota, lowered, planOf, hp, Option.bind_some]

/-- What billing a row does: the bill leaves the owner's balance and is recorded
for the server, in the ledger and on the row. -/
structure Billed (row : Server) (bill : Int) (w w' : World) : Prop where
  balance : balance w' row.userId = balance w row.userId - bill
  charged : ∀ id, chargedTo w' id = chargedTo w id + if row.id = id then bill else 0
  servers : ∀ id, w'.servers.find id =
    (w.servers.find id).map fun s => if s.id = row.id ∧ bill ≠ 0 then { s with totalCost := row.totalCost + bill } else s
  counted : ∀ userId, w'.servers.rows.map (counted userId) = w.servers.rows.map (counted userId)
  plans : w'.plans = w.plans
  quotas : w'.quotas = w.quotas
  gpuAllocations : w'.gpuAllocations = w.gpuAllocations
  settings : w'.settings = w.settings
  now : w'.now = w.now

theorem Billed.refl (row : Server) (w : World) : Billed row 0 w w := by
  refine ⟨(sub_zero _).symm, fun id => ?_, fun id => ?_, fun _ => rfl, rfl, rfl, rfl, rfl, rfl⟩
  · rw [ite_self, add_zero]
  · simp only [ne_eq, not_true, and_false, if_false, Option.map_id']

theorem Charges.counted {row : Server} {amount : Int} {w w' : World} (h : Charges row amount w w')
    (userId : Uuid) : w'.servers.rows.map (counted userId) = w.servers.rows.map (counted userId) := by
  rw [h.servers]
  exact Table.map_modify_of_eq _ _ _ fun _ _ => rfl

theorem Charges.billed {row : Server} {amount : Int} {w w' : World} (h : Charges row amount w w')
    (hpos : 0 < amount) : Billed row amount w w' := by
  obtain ⟨t, ht, -, hamount, htype, hserver⟩ := h.ledger
  refine ⟨?_, fun id => ?_, fun id => ?_, Charges.counted h, h.plans, h.quotas, h.gpuAllocations, h.settings, h.now⟩
  · rw [h.balance, if_pos rfl]
  · rw [chargedTo_append ht, hserver, hamount, htype]
    simp only [Option.some.injEq, and_true, neg_neg]
  · rw [h.servers, Table.find_modify]
    simp only [hpos.ne', ne_eq, not_false_eq_true, and_true]

theorem reconcileWith_run (w : World) (row : Server) (plan : Option ServerPlan) :
    ∃ w', (reconcileWith row plan).run w = .ok () w' ∧
      Billed row (match plan with | some plan => toBill w row plan | none => 0) w w' := by
  cases plan with
  | none => exact ⟨w, rfl, .refl row w⟩
  | some plan =>
      obtain ⟨w', hrun, h⟩ := reconcileServerBilling_run w row plan
      refine ⟨w', by simp only [reconcileWith, EStateM.run_bind, hrun, EStateM.run_pure], ?_⟩
      cases h with
      | nothing h0 =>
          simp only [h0]
          exact .refl row w
      | charged hpos hcharges => exact Charges.billed hcharges hpos

theorem stampedAt_of_billed {row : Server} {bill : Int} {w w' : World} (h : Billed row bill w w') (id : Uuid) :
    stampedAt w'.now (w'.servers.find id) = stampedAt w.now (w.servers.find id) := by
  rw [h.now, h.servers id]
  cases w.servers.find id with
  | none => rfl
  | some s =>
      simp only [Option.map_some, stampedAt]
      split <;> rfl

theorem Billed.row {row r : Server} {bill : Int} {w w' : World} (h : Billed row bill w w')
    (hfind : w.servers.find row.id = some r) (hcost : r.totalCost = row.totalCost) :
    w'.servers.find row.id = some { r with totalCost := row.totalCost + bill } := by
  rw [h.servers, hfind, Option.map_some, Option.some.injEq]
  by_cases hbill : bill = 0
  · rw [if_neg fun hne => hne.2 hbill, hbill, add_zero, ← hcost]
  · rw [if_pos ⟨Table.key_of_find hfind, hbill⟩]

theorem settle_billed {w : World} {row : Server} (hfind : w.servers.find row.id = some row)
    (hstamp : row.stoppedAt = some w.now) :
    ∃ w₁ quotas, final (settle row.id) w = { w₁ with quotas := quotas } ∧ Billed row (due w row) w w₁ ∧
      (quotaOf { w₁ with quotas := quotas } row.userId).usage = lowered w row (quotaOf w row.userId).usage := by
  have hrow : { row with stoppedAt := some w.now } = row := by rw [← hstamp]
  cases hp : row.planId with
  | none =>
      have hplan : planOf w row = none := by simp only [planOf, hp, Option.bind_none]
      have hf : final (settle row.id) w = w := by
        simp only [settle, findServer, final, EStateM.run_bind, EStateM.run_get, EStateM.run_pure, hfind, hp]
      simp only [due, lowered, hplan, movedBy]
      exact ⟨w, w.quotas, hf, .refl row w, rfl⟩
  | some planId =>
      have hplan : planOf w row = w.plans planId := by simp only [planOf, hp, Option.bind_some]
      obtain ⟨w₁, hrun₁, h₁⟩ := reconcileWith_run w row (w.plans planId)
      obtain ⟨quota, hrun₂, h₂⟩ := adjustUsage_run Usage.monus row.userId planId w₁
      have hf : final (settle row.id) w =
          { w₁ with quotas := Function.update w₁.quotas row.userId (some quota) } := by
        simp only [settle, findServer, final, EStateM.run_bind, EStateM.run_get, EStateM.run_pure, hfind, hp, hrun₁,
          decrementUsage, hrun₂]
      have hquota : quotaOf w₁ row.userId = quotaOf w row.userId := by simp only [quotaOf, h₁.quotas, h₁.settings]
      simp only [due, lowered, hplan, hrow]
      refine ⟨w₁, _, hf, h₁, ?_⟩
      rw [quotaOf_update_self, h₂, hquota, h₁.plans]

/-- The row edited and the devices freed, which is where every stop begins. -/
def stamped (w : World) (serverId : Uuid) (stamp : Server → Server) (hid : ∀ s, (stamp s).id = s.id) : World :=
  { w with
    servers := w.servers.modify serverId stamp hid
    gpuAllocations := withoutServer w.gpuAllocations serverId }

theorem stopAndSettle_billed (w : World) {server : Server} {stamp : Instant → Server → Server}
    {hid : ∀ now s, (stamp now s).id = s.id} (hfind : w.servers.find server.id = some server)
    (hkeeps : ∀ now, KeepsTerms (stamp now)) (hstamp : ∀ now s, (stamp now s).stoppedAt = some now) :
    ∃ w₁ quotas, final (stopAndSettle server.id stamp hid) w = { w₁ with quotas := quotas } ∧
      Billed (stamp w.now server) (due w server) (stamped w server.id (stamp w.now) (hid w.now)) w₁ ∧
      (quotaOf { w₁ with quotas := quotas } server.userId).usage =
        lowered w server (quotaOf w server.userId).usage := by
  let w₀ := stamped w server.id (stamp w.now) (hid w.now)
  have hk := hkeeps w.now
  have hf : final (stopAndSettle server.id stamp hid) w = final (settle server.id) w₀ := by
    simp only [stopAndSettle, utcNow, modifyServer, release, final, EStateM.run_bind, EStateM.run_get,
      EStateM.run_pure, EStateM.run_modify, stamped, w₀]
  have hrow : w₀.servers.find (stamp w.now server).id = some (stamp w.now server) := by
    rw [hk.id]
    exact Table.find_modify_self _ (hid w.now) hfind
  have hplan : planOf w₀ (stamp w.now server) = planOf w server := by simp only [planOf, hk.planId, w₀, stamped]
  obtain ⟨w₁, quotas, hset, hbilled, husage⟩ := settle_billed hrow (hstamp _ _)
  have hdue : due w₀ (stamp w.now server) = due w server := by
    simp only [due, hplan, toBill, hk.startedAt, hk.totalCost, hk.userId]
    rfl
  rw [hk.id] at hset
  rw [hdue] at hbilled
  rw [hk.userId] at husage
  refine ⟨w₁, quotas, hf.trans hset, hbilled, husage.trans ?_⟩
  rw [lowered, lowered, hplan]
  rfl

theorem stopAndSettle_account (w : World) {server : Server} {stamp : Instant → Server → Server}
    {hid : ∀ now s, (stamp now s).id = s.id} (hfind : w.servers.find server.id = some server)
    (hkeeps : ∀ now, KeepsTerms (stamp now)) (hstamp : ∀ now s, (stamp now s).stoppedAt = some now) :
    account server (final (stopAndSettle server.id stamp hid) w) =
      (account server w).apply .all (due w server) (lowered w server) := by
  have hk := hkeeps w.now
  obtain ⟨w₁, quotas, hf, hbilled, husage⟩ := stopAndSettle_billed w hfind hkeeps hstamp
  have hrow : (stamped w server.id (stamp w.now) (hid w.now)).servers.find server.id = some (stamp w.now server) :=
    Table.find_modify_self _ (hid w.now) hfind
  have hbalance := hbilled.balance
  rw [hk.userId] at hbalance
  rw [hf]
  refine Account.ext hbalance husage ?_ ?_
  · simp only [account, hbilled.gpuAllocations, stamped, devicesOf_withoutServer]
    rfl
  · refine (stampedAt_of_billed hbilled server.id).trans ?_
    rw [hrow]
    simp only [stampedAt, hstamp, stamped, decide_true]
    rfl

theorem stopAndRelease_run (serverId : Uuid) (stamp : Server → Server) (hid : ∀ s, (stamp s).id = s.id) (w : World) :
    (stopAndRelease serverId stamp hid).run w = .ok () (final (stopAndRelease serverId stamp hid) w) := rfl

/-- A stop without settling releases the devices, and stamps only what its edit
of the row stamps. -/
theorem stopAndRelease_account (w : World) {server : Server} {stamp : Server → Server}
    {hid : ∀ s, (stamp s).id = s.id} (hfind : w.servers.find server.id = some server) (stamps : Bool)
    (hstamp : (stamp server).stoppedAt = if stamps then some w.now else server.stoppedAt) (bill : Int)
    (lower : Usage → Usage) :
    account server (final (stopAndRelease server.id stamp hid) w) =
      (account server w).apply ⟨false, false, true, stamps⟩ bill lower := by
  have hrow : (w.servers.modify server.id stamp hid).find server.id = some (stamp server) :=
    Table.find_modify_self _ hid hfind
  have hf : final (stopAndRelease server.id stamp hid) w =
      { w with
        servers := w.servers.modify server.id stamp hid
        gpuAllocations := withoutServer w.gpuAllocations server.id } := by
    simp only [stopAndRelease, modifyServer, release, final, EStateM.run_bind, EStateM.run_modify]
  rw [hf]
  refine Account.ext rfl rfl ?_ ?_
  · exact devicesOf_withoutServer _ _
  · simp only [account, Account.apply, hrow, hfind, stampedAt, hstamp]
    cases stamps <;> simp

end NukeLab.Settlement
