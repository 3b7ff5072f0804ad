import NukeLab.Frames
import NukeLab.Machine
import NukeLab.Users

namespace NukeLab.Conservation

open Program Machine Quantities Records State Ledger GpuAllocator Quota Billing Lifecycle Users Frames

def ledgerOf (w : World) (userId : Uuid) : List CreditTransaction :=
  w.transactions.filter fun t => t.userId = userId

def figures (rows : List CreditTransaction) : List (Int × Int) := rows.map fun t => (t.amount, t.balanceAfter)

def sumOf (rows : List CreditTransaction) : Int := (rows.map CreditTransaction.amount).sum

def LatestAgrees (w : World) (userId : Uuid) : Prop :=
  ∀ t ∈ (ledgerOf w userId).getLast?, t.balanceAfter = balance w userId

/-- What a credit operation may do to one user's books: balance and ledger move
by the same amount, and when they move the last row records the balance. -/
structure Booked (userId : Uuid) (w w' : World) : Prop where
  drift : balance w' userId - sumOf (ledgerOf w' userId) = balance w userId - sumOf (ledgerOf w userId)
  latest : (balance w' userId = balance w userId ∧ figures (ledgerOf w' userId) = figures (ledgerOf w userId)) ∨
    LatestAgrees w' userId

def SameBooks (w w' : World) : Prop := w'.users = w.users ∧ w'.transactions = w.transactions

instance : IsPreorder World SameBooks where
  refl _ := ⟨rfl, rfl⟩
  trans _ _ _ h h' := ⟨h'.1.trans h.1, h'.2.trans h.2⟩

theorem LatestAgrees.congr {w w' : World} {u : Uuid} (h : LatestAgrees w u) (hb : balance w' u = balance w u)
    (hl : figures (ledgerOf w' u) = figures (ledgerOf w u)) : LatestAgrees w' u := by
  intro t ht
  have hlast := congrArg List.getLast? hl
  rw [figures, figures, List.getLast?_map, List.getLast?_map, ht, Option.map_some] at hlast
  obtain ⟨t', ht', hfig⟩ := Option.map_eq_some_iff.mp hlast.symm
  rw [hb, ← h t' ht']
  exact (congrArg Prod.snd hfig).symm

theorem sumOf_of_figures {rows rows' : List CreditTransaction} (h : figures rows = figures rows') :
    sumOf rows = sumOf rows' := by
  have hfst := congrArg (List.map Prod.fst) h
  simp only [figures, List.map_map, Function.comp_def] at hfst
  exact congrArg List.sum hfst

instance (userId : Uuid) : IsPreorder World (Booked userId) where
  refl _ := ⟨rfl, Or.inl ⟨rfl, rfl⟩⟩
  trans _ _ _ h h' := by
    refine ⟨h'.drift.trans h.drift, ?_⟩
    rcases h'.latest with ⟨hb', hl'⟩ | ha'
    · rcases h.latest with ⟨hb, hl⟩ | ha
      · exact Or.inl ⟨hb'.trans hb, hl'.trans hl⟩
      · exact Or.inr (ha.congr hb' hl')
    · exact Or.inr ha'

theorem booked_of_figures {w w' : World} {userId : Uuid} (hb : balance w' userId = balance w userId)
    (hl : figures (ledgerOf w' userId) = figures (ledgerOf w userId)) : Booked userId w w' :=
  ⟨by rw [hb, sumOf_of_figures hl], Or.inl ⟨hb, hl⟩⟩

theorem SameBooks.booked {w w' : World} (h : SameBooks w w') (userId : Uuid) : Booked userId w w' := by
  refine booked_of_figures ?_ ?_
  · simp only [balance, h.1]
  · simp only [ledgerOf, h.2]

section Posting

theorem ledgerOf_post_self (w : World) (t : CreditTransaction) :
    ledgerOf (post w t) t.userId = ledgerOf w t.userId ++ [t] := by
  simp only [ledgerOf, post, List.filter_append, List.filter_cons, decide_true, if_true, List.filter_nil]

theorem ledgerOf_post_of_ne {w : World} {t : CreditTransaction} {u : Uuid} (h : u ≠ t.userId) :
    ledgerOf (post w t) u = ledgerOf w u := by
  simp only [ledgerOf, post, List.filter_append, List.filter_cons, h.symm, decide_false, Bool.false_eq_true,
    if_false, List.filter_nil, List.append_nil]

theorem balance_post_self {w : World} {t : CreditTransaction} {user : User} (h : w.users t.userId = some user) :
    balance (post w t) t.userId = t.balanceAfter := by
  simp only [balance, post, Function.update_self, h, Option.map_some]

theorem balance_post_of_ne {w : World} {t : CreditTransaction} {u : Uuid} (h : u ≠ t.userId) :
    balance (post w t) u = balance w u := by
  simp only [balance, post, Function.update_of_ne h]

theorem sumOf_append (rows more : List CreditTransaction) : sumOf (rows ++ more) = sumOf rows + sumOf more := by
  simp only [sumOf, List.map_append, List.sum_append]

theorem sumOf_singleton (t : CreditTransaction) : sumOf [t] = t.amount := by
  simp only [sumOf, List.map_cons, List.map_nil, List.sum_singleton]

theorem booked_post {w : World} {t : CreditTransaction} {user : User} (huser : w.users t.userId = some user)
    (hbalance : t.balanceAfter = user.nukeBalance + t.amount) (userId : Uuid) : Booked userId w (post w t) := by
  by_cases h : userId = t.userId
  · subst h
    have hb : balance w t.userId = user.nukeBalance := by simp only [balance, huser]
    refine ⟨?_, Or.inr ?_⟩
    · rw [balance_post_self huser, ledgerOf_post_self, sumOf_append, sumOf_singleton, hb]
      omega
    · intro t' ht'
      rw [ledgerOf_post_self, List.getLast?_concat, Option.mem_some_iff] at ht'
      rw [balance_post_self huser, ← ht']
  · exact booked_of_figures (balance_post_of_ne h) (by rw [ledgerOf_post_of_ne h])

theorem booked_of_recorded {draft : TransactionDraft} {w w' : World} (h : Recorded draft w w') (userId : Uuid) :
    Booked userId w w' := by
  cases h with
  | refused => exact refl_of (Booked userId) w
  | posted user huser hnonneg => exact booked_post huser rfl userId

end Posting

section Handlers

variable (userId : Uuid)

theorem createTransaction_booked (draft : TransactionDraft) : Moves (Booked userId) (createTransaction draft) :=
  fun w => booked_of_recorded (createTransaction_recorded draft w) userId

theorem moves_booked {α : Type} {m : Handler α} (h : Moves SameBooks m) : Moves (Booked userId) m :=
  h.mono fun _ _ hs => hs.booked userId

theorem modifyServer_booked (id : Uuid) (f : Server → Server) (hf : ∀ s, (f s).id = s.id) :
    Moves (Booked userId) (modifyServer id f hf) :=
  moves_booked userId (Moves.modify fun _ => ⟨rfl, rfl⟩)

theorem delete_booked (runtime : Runtime) (containerId : Option Uuid) :
    Moves (Booked userId) (Spawner.delete runtime containerId) := by
  unfold Spawner.delete
  refine .ite (.bind ?_ fun _ => .pure _) (.pure _)
  exact moves_booked userId (.modify fun _ => ⟨rfl, rfl⟩)

theorem bookkeeping_booked : Bookkeeping (Booked userId) where
  record draft := createTransaction_booked userId draft
  cost _ _ := modifyServer_booked userId _ _ _
  billed _ _ := modifyServer_booked userId _ _ _
  quota _ _ := moves_booked userId (.modify fun _ => ⟨rfl, rfl⟩)
  devices _ := moves_booked userId (.modify fun _ => ⟨rfl, rfl⟩)
  container runtime containerId := delete_booked userId runtime containerId

theorem processNukeBilling_booked (runtime : Uuid → Runtime) :
    Moves (Booked userId) (processNukeBilling runtime) := by
  refine .bind .get fun _ => .forM (fun row => ?_) _
  exact (bookkeeping_booked userId).billServer _ _ _ fun _ => modifyServer_booked userId _ _ _

theorem performServerStop_booked (runtime : Runtime) (server : Server) :
    Moves (Booked userId) (performServerStop runtime server) := by
  have hrow (id : Uuid) (f : Server → Server) (hf : ∀ s, (f s).id = s.id) : Moves (Booked userId) (modifyServer id f hf) :=
    modifyServer_booked userId id f hf
  have hbooks := bookkeeping_booked userId
  unfold performServerStop
  split
  · refine moves_orServerError _ ?_
    split
    · exact .throw _
    · refine .bind (delete_booked userId _ _) fun _ => ?_
      exact .bind (hbooks.stopAndRelease _ _ _ (hrow _ _ _)) fun _ => .pure _
    · refine .bind (delete_booked userId _ _) fun _ => ?_
      refine .ite (.bind (.throw _) fun _ => ?_) ?_
      all_goals exact .bind (hbooks.stopAndSettle _ _ _ fun _ => hrow _ _ _) fun _ => .pure _
  · exact .bind (hbooks.stopAndRelease _ _ _ (hrow _ _ _)) fun _ => .pure _

theorem grantDailyAllowance_booked (owner : Uuid) : Moves (Booked userId) (grantDailyAllowance owner) :=
  grantDailyAllowance_moves (createTransaction_booked userId) owner

theorem dropServer_booked (serverId : Uuid) : Moves (Booked userId) (dropServer serverId) := by
  refine .modify fun w => booked_of_figures rfl ?_
  simp only [figures, ledgerOf, List.filter_map, List.map_map]
  refine congrArg₂ List.map ?_ (congrArg₂ List.filter ?_ rfl)
  · funext t
    by_cases h : t.serverId = some serverId <;> simp [h]
  · funext t
    by_cases h : t.serverId = some serverId <;> simp [h]

theorem bulkDelete_booked (runtime : Runtime) (server : Server) :
    Moves (Booked userId) (bulkDelete runtime server) := by
  have hrest : Moves (Booked userId) (do dropServer server.id; release server.id : Handler Unit) :=
    .bind (dropServer_booked userId _) fun _ => (bookkeeping_booked userId).devices _
  unfold bulkDelete
  refine .ite (.bind (delete_booked userId _ _) fun _ => ?_) hrest
  exact .ite (.bind (.throw _) fun _ => hrest) hrest

end Handlers

end NukeLab.Conservation
