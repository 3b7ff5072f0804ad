import NukeLab.Conservation

namespace NukeLab.LedgerAudit

open Program Machine Records State Ledger Billing Lifecycle Users Frames Conservation

inductive Operation
  | grantCredits (userId : Uuid) (amount : Int) (actorId : Option Uuid) (reason source : String) (extra : Metadata)
  | deductCredits (userId : Uuid) (amount : Int) (actorId : Uuid) (reason : String)
  | consumeCredits (userId : Uuid) (amount : Int) (description : String) (serverId : Option Uuid)
  | grantDailyAllowance (userId : Uuid)
  | processNukeBilling (runtime : Uuid → Runtime)
  | stopServer (serverId : Uuid) (runtime : Runtime)
  | deleteServer (serverId : Uuid) (runtime : Runtime)
  | bulkDeleteServer (serverId : Uuid) (runtime : Runtime)
  | updateUser (userId : Uuid) (data : UserUpdate) (updatedBy : Option Permissions)
  | setMaxBalance (amount : Int)
  | wait (duration : Nat)

def withServer (serverId : Uuid) (f : Server → Handler Unit) : Handler Unit := do
  match ← findServer serverId with
  | some server => f server
  | none => throw (.http 404 "Server not found")

def setMaxBalance (amount : Int) : Handler Unit :=
  modify fun w => { w with settings := { w.settings with creditsMaxBalance := amount } }

def wait (duration : Nat) : Handler Unit := modify fun w => { w with now := w.now + duration }

def perform : Operation → Handler Unit
  | .grantCredits userId amount actorId reason source extra => do
    let _ ← Ledger.grantCredits userId amount actorId reason source extra
  | .deductCredits userId amount actorId reason => do
    let _ ← Ledger.deductCredits userId amount actorId reason
  | .consumeCredits userId amount description serverId => do
    let _ ← Ledger.consumeCredits userId amount description serverId
  | .grantDailyAllowance userId => do
    let _ ← Ledger.grantDailyAllowance userId
  | .processNukeBilling runtime => Billing.processNukeBilling runtime
  | .stopServer serverId runtime => withServer serverId fun server => do
    let _ ← performServerStop runtime server
  | .deleteServer serverId runtime => withServer serverId fun server => do
    let _ ← performServerDelete runtime server
  | .bulkDeleteServer serverId runtime => withServer serverId fun server => bulkDelete runtime server
  | .updateUser userId data updatedBy => Users.updateUser userId data updatedBy
  | .setMaxBalance amount => LedgerAudit.setMaxBalance amount
  | .wait duration => LedgerAudit.wait duration

def after (op : Operation) (w : World) : World := final (perform op) w

def erasedBy (op : Operation) (w : World) (userId : Uuid) : List CreditTransaction :=
  match op with
  | .deleteServer serverId _ =>
    if (w.servers.find serverId).isSome ∧ ((after op w).servers.find serverId).isNone then
      (ledgerOf w userId).filter fun t => t.serverId = some serverId
    else []
  | _ => []

/-- What an operation writes to the user's balance past the ledger. -/
def writtenBy (op : Operation) (w : World) (userId : Uuid) : Int :=
  match op with
  | .updateUser _ _ _ => balance (after op w) userId - balance w userId
  | _ => 0

/-- A run of operations with what its audit has seen: per user, the ledger rows
deleted, the sum written directly to the balance, and whether the balance was
so written after the user's last ledger row. -/
structure Audited where
  world : World
  erased : Uuid → List CreditTransaction
  written : Uuid → Int
  overwritten : Uuid → Bool

def Audited.start (w : World) : Audited := ⟨w, fun _ => [], fun _ => 0, fun _ => false⟩

def overwrittenBy (op : Operation) (w : World) (userId : Uuid) (before : Bool) : Bool :=
  if writtenBy op w userId ≠ 0 then true
  else if (ledgerOf (after op w) userId).length > (ledgerOf w userId).length then false
  else before

def step : Step Audited Operation := fun s op =>
  some { world := after op s.world
         erased := fun u => s.erased u ++ erasedBy op s.world u
         written := fun u => s.written u + writtenBy op s.world u
         overwritten := fun u => overwrittenBy op s.world u (s.overwritten u) }

section Operations

variable (userId : Uuid)

theorem withServer_booked {serverId : Uuid} {f : Server → Handler Unit}
    (h : ∀ server, Moves (Booked userId) (f server)) : Moves (Booked userId) (withServer serverId f) := by
  refine .bind (moves_findServer _) fun _ => ?_
  split
  · exact h _
  · exact .throw _

/-- Every operation keeps the books, but for the two that write one side only. -/
theorem perform_booked (op : Operation) (hdelete : ∀ serverId runtime, op ≠ .deleteServer serverId runtime)
    (hupdate : ∀ owner data updatedBy, op ≠ .updateUser owner data updatedBy) :
    Moves (Booked userId) (perform op) := by
  cases op with
  | grantCredits owner amount actorId reason source extra =>
      exact .bind (createTransaction_booked userId _) fun _ => .pure _
  | deductCredits owner amount actorId reason => exact .bind (createTransaction_booked userId _) fun _ => .pure _
  | consumeCredits owner amount description serverId =>
      exact .bind (createTransaction_booked userId _) fun _ => .pure _
  | grantDailyAllowance owner => exact .bind (grantDailyAllowance_booked userId _) fun _ => .pure _
  | processNukeBilling runtime => exact processNukeBilling_booked userId _
  | stopServer serverId runtime =>
      exact withServer_booked userId fun _ => .bind (performServerStop_booked userId _ _) fun _ => .pure _
  | deleteServer serverId runtime => exact absurd rfl (hdelete serverId runtime)
  | bulkDeleteServer serverId runtime => exact withServer_booked userId fun _ => bulkDelete_booked userId _ _
  | updateUser owner data updatedBy => exact absurd rfl (hupdate owner data updatedBy)
  | setMaxBalance amount => exact moves_booked userId (.modify fun _ => ⟨rfl, rfl⟩)
  | wait duration => exact moves_booked userId (.modify fun _ => ⟨rfl, rfl⟩)

/-- All that deleting a server can do to the books: nothing, or remove exactly
the ledger rows of that server. -/
inductive Deleted (serverId : Uuid) (w w' : World) : Prop
  | refused (hbooks : SameBooks w w') (hservers : w'.servers = w.servers)
  | removed (husers : w'.users = w.users) (hfound : (w.servers.find serverId).isSome)
      (hgone : w'.servers.find serverId = none)
      (hrows : w'.transactions = w.transactions.filter fun t => t.serverId ≠ some serverId)

theorem deleteServer_deleted (serverId : Uuid) (runtime : Runtime) (w : World) :
    Deleted serverId w (after (.deleteServer serverId runtime) w) := by
  cases hfind : w.servers.find serverId with
  | none =>
      have hw : after (.deleteServer serverId runtime) w = w := by
        simp [after, perform, withServer, findServer, final, hfind]
      rw [hw]
      exact .refused (refl_of SameBooks w) rfl
  | some server =>
      have hid : server.id = serverId := Tables.Table.key_of_find hfind
      subst hid
      have hfound : (w.servers.find server.id).isSome := by rw [hfind]; rfl
      have hgone : (w.servers.erase server.id).find server.id = none := Tables.Table.find_erase_self _ _
      have hafter : after (.deleteServer server.id runtime) w = final (performServerDelete runtime server) w := by
        simp only [after, perform, withServer, findServer, final, EStateM.run_bind, EStateM.run_get,
          EStateM.run_pure, hfind]
        cases (performServerDelete runtime server).run w <;> rfl
      rw [hafter, performServerDelete]
      by_cases hc : server.containerId.isSome = true
      · by_cases hd : runtime.deletes = true
        · simp only [hc, if_true, Spawner.delete, hd]
          exact .removed rfl hfound hgone rfl
        · simp only [hc, if_true, Spawner.delete, hd]
          exact .refused ⟨rfl, rfl⟩ rfl
      · simp only [hc]
        exact .removed rfl hfound hgone rfl

def SameLedger (w w' : World) : Prop := w'.transactions = w.transactions

instance : IsPreorder World SameLedger where
  refl _ := rfl
  trans _ _ _ h h' := h'.trans h

theorem updateUser_sameLedger (owner : Uuid) (data : UserUpdate) (updatedBy : Option Permissions) :
    Moves SameLedger (Users.updateUser owner data updatedBy) := by
  refine .bind .get fun _ => ?_
  split
  · exact .throw _
  · split
    · exact .throw _
    · exact .modify fun _ => rfl

end Operations

section Runs

/-- What the audit accounts for: everything on the balance since the first
state is in the ledger, was erased from it, or was written past it. -/
structure Accounted (w₀ : World) (s : Audited) : Prop where
  conserved : ∀ u, balance s.world u =
    balance w₀ u + sumOf (ledgerOf s.world u) + sumOf (s.erased u) + s.written u
  latest : ∀ u, s.erased u = [] → s.overwritten u = false → LatestAgrees s.world u

theorem accounted_start {w₀ : World} (h : w₀.transactions = []) : Accounted w₀ (Audited.start w₀) := by
  have hl : ∀ u, ledgerOf w₀ u = [] := fun u => by simp only [ledgerOf, h, List.filter_nil]
  refine ⟨fun u => ?_, fun u _ _ t ht => ?_⟩
  · simp [Audited.start, hl, sumOf]
  · simp [Audited.start, hl] at ht

theorem not_overwritten {op : Operation} {w : World} {u : Uuid} {before : Bool}
    (h : overwrittenBy op w u before = false) :
    writtenBy op w u = 0 ∧ ((ledgerOf w u).length < (ledgerOf (after op w) u).length ∨ before = false) := by
  rw [overwrittenBy] at h
  split at h
  · exact absurd h (by decide)
  · rename_i hw
    refine ⟨not_not.mp hw, ?_⟩
    split at h
    · rename_i hlt
      exact Or.inl hlt
    · exact Or.inr h

theorem length_of_figures {rows rows' : List CreditTransaction} (h : figures rows = figures rows') :
    rows.length = rows'.length := by
  simpa only [figures, List.length_map] using congrArg List.length h

theorem accounted_of_booked {w₀ : World} {s : Audited} {op : Operation} (hs : Accounted w₀ s)
    (hbooked : ∀ u, Booked u s.world (after op s.world)) (herased : ∀ u, erasedBy op s.world u = [])
    (hwritten : ∀ u, writtenBy op s.world u = 0) {t : Audited} (ht : step s op = some t) : Accounted w₀ t := by
  cases ht
  refine ⟨fun u => ?_, fun u he ho => ?_⟩
  · have hc := hs.conserved u
    have hd := (hbooked u).drift
    simp only [herased, hwritten, List.append_nil, add_zero]
    omega
  · simp only [herased, List.append_nil] at he
    obtain ⟨-, hlen⟩ := not_overwritten ho
    rcases (hbooked u).latest with ⟨hb, hl⟩ | ha
    · rcases hlen with hlt | hbefore
      · exact absurd (length_of_figures hl) (Nat.ne_of_gt hlt)
      · exact (hs.latest u he hbefore).congr hb hl
    · exact ha

theorem sumOf_split (rows : List CreditTransaction) (p : CreditTransaction → Bool) :
    sumOf rows = sumOf (rows.filter p) + sumOf (rows.filter fun t => !p t) := by
  induction rows with
  | nil => rfl
  | cons t rows ih =>
      cases h : p t <;> simp only [sumOf, List.filter_cons, h, List.map_cons, List.sum_cons, if_true, Bool.not_true,
        Bool.not_false, Bool.false_eq_true, if_false] at ih ⊢ <;> omega

theorem accounted_deleteServer {w₀ : World} {s t : Audited} {serverId : Uuid} {runtime : Runtime}
    (hs : Accounted w₀ s) (ht : step s (.deleteServer serverId runtime) = some t) : Accounted w₀ t := by
  have hd := deleteServer_deleted serverId runtime s.world
  cases hd with
  | refused hbooks hservers =>
      refine accounted_of_booked hs (fun u => hbooks.booked u) (fun u => ?_) (fun u => rfl) ht
      simp only [erasedBy, hservers]
      rw [if_neg]
      rintro ⟨hsome, hnone⟩
      exact absurd hsome (by simpa using hnone)
  | removed husers hfound hgone hrows =>
      have herased : ∀ u, erasedBy (.deleteServer serverId runtime) s.world u =
          (ledgerOf s.world u).filter fun t => t.serverId = some serverId := by
        intro u
        simp only [erasedBy, hfound, hgone, Option.isNone_none, and_self, if_true]
      have hledger : ∀ u, ledgerOf (after (.deleteServer serverId runtime) s.world) u =
          (ledgerOf s.world u).filter fun t => !decide (t.serverId = some serverId) := by
        intro u
        simp only [ledgerOf, hrows, List.filter_filter, ne_eq, decide_not, Bool.and_comm]
      have hbalance : ∀ u, balance (after (.deleteServer serverId runtime) s.world) u = balance s.world u := by
        intro u
        simp only [balance, husers]
      cases ht
      refine ⟨fun u => ?_, fun u he ho => ?_⟩
      · have hc := hs.conserved u
        have hsplit := sumOf_split (ledgerOf s.world u) fun t => decide (t.serverId = some serverId)
        simp only [hbalance, hledger, herased, sumOf_append, writtenBy, add_zero]
        omega
      · obtain ⟨he, herow⟩ := List.append_eq_nil_iff.mp he
        rw [herased] at herow
        have hkeep : ledgerOf (after (.deleteServer serverId runtime) s.world) u = ledgerOf s.world u := by
          rw [hledger, List.filter_eq_self]
          intro t ht
          simpa using List.filter_eq_nil_iff.mp herow t ht
        have hlate : overwrittenBy (.deleteServer serverId runtime) s.world u (s.overwritten u) = false := ho
        obtain ⟨-, hlen⟩ := not_overwritten hlate
        rw [hkeep] at hlen
        exact (hs.latest u he (hlen.resolve_left (lt_irrefl _))).congr (hbalance u) (by rw [hkeep])

theorem accounted_updateUser {w₀ : World} {s t : Audited} {owner : Uuid} {data : UserUpdate}
    {updatedBy : Option Permissions} (hs : Accounted w₀ s)
    (ht : step s (.updateUser owner data updatedBy) = some t) : Accounted w₀ t := by
  have hledger : ∀ u, ledgerOf (after (.updateUser owner data updatedBy) s.world) u = ledgerOf s.world u := by
    intro u
    rw [ledgerOf, ledgerOf, show (after (.updateUser owner data updatedBy) s.world).transactions = _ from
      updateUser_sameLedger owner data updatedBy s.world]
  cases ht
  refine ⟨fun u => ?_, fun u he ho => ?_⟩
  · have hc := hs.conserved u
    simp only [hledger, erasedBy, writtenBy, List.append_nil]
    omega
  · simp only [erasedBy, List.append_nil] at he
    obtain ⟨hwritten, hlen⟩ := not_overwritten ho
    rw [hledger] at hlen
    refine (hs.latest u he (hlen.resolve_left (lt_irrefl _))).congr ?_ (by rw [hledger])
    exact sub_eq_zero.mp hwritten

theorem accounted_step {w₀ : World} {s t : Audited} {op : Operation} (hs : Accounted w₀ s)
    (ht : step s op = some t) : Accounted w₀ t := by
  by_cases hdelete : ∃ serverId runtime, op = .deleteServer serverId runtime
  · obtain ⟨serverId, runtime, rfl⟩ := hdelete
    exact accounted_deleteServer hs ht
  by_cases hupdate : ∃ owner data updatedBy, op = .updateUser owner data updatedBy
  · obtain ⟨owner, data, updatedBy, rfl⟩ := hupdate
    exact accounted_updateUser hs ht
  have hd : ∀ serverId runtime, op ≠ .deleteServer serverId runtime := fun serverId runtime h =>
    hdelete ⟨serverId, runtime, h⟩
  have hu : ∀ owner data updatedBy, op ≠ .updateUser owner data updatedBy := fun owner data updatedBy h =>
    hupdate ⟨owner, data, updatedBy, h⟩
  refine accounted_of_booked hs (fun u => perform_booked u op hd hu s.world) (fun u => ?_) (fun u => ?_) ht
  · cases op <;> first | rfl | exact absurd rfl (hd _ _)
  · cases op <;> first | rfl | exact absurd rfl (hu _ _ _)

theorem accounted_run {w₀ : World} (h : w₀.transactions = []) (ops : List Operation) :
    AllStates step (Accounted w₀) (Audited.start w₀) ops :=
  allStates_of_steps (fun _ _ _ hs ht => accounted_step hs ht) (accounted_start h)

end Runs

def Conserved (w₀ w : World) (userId : Uuid) : Prop :=
  balance w userId = balance w₀ userId + sumOf (ledgerOf w userId) ∧ LatestAgrees w userId

/-- The same with the direct writes of user updates counted in: they move the
balance past the ledger, and the last row is behind them until the next one. -/
def ConservedUpToWrites (w₀ : World) (userId : Uuid) (s : Audited) : Prop :=
  balance s.world userId = balance w₀ userId + sumOf (ledgerOf s.world userId) + s.written userId ∧
    (s.overwritten userId = false → LatestAgrees s.world userId)

/-- In every state of every run, for every user none of whose ledger rows was erased. -/
theorem ledger_conserved (w₀ : World) (h : w₀.transactions = []) (ops : List Operation) (userId : Uuid) :
    AllStates step (fun s => s.erased userId = [] → ConservedUpToWrites w₀ userId s) (Audited.start w₀) ops := by
  refine (accounted_run h ops).mono fun s hs he => ⟨?_, hs.latest userId he⟩
  have hc := hs.conserved userId
  simpa only [he, sumOf, List.map_nil, List.sum_nil, add_zero] using hc

def sampleWorld : World := { blankWorld with users := fun u => if u = 1 then some (newUser "ada") else none }

theorem ledger_conserved_sample :
    AllStates step (fun s => s.erased 1 = [] → ConservedUpToWrites sampleWorld 1 s) (Audited.start sampleWorld)
      [.grantCredits 1 30 (some 2) "thanks" "admin_panel" [], .updateUser 1 ⟨some 50, none⟩ (some ⟨true, false⟩)] :=
  ledger_conserved sampleWorld rfl _ 1

/-- An admin's direct write of the balance leaves no row in the ledger. -/
theorem direct_write_not_conserved :
    ¬ Conserved sampleWorld (after (.updateUser 1 ⟨some 150, none⟩ (some ⟨true, false⟩)) sampleWorld) 1 := by
  intro h
  exact absurd h.1 (by decide)

end NukeLab.LedgerAudit
