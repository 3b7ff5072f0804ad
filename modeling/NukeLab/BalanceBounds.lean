import NukeLab.CreditRequests
import NukeLab.Machine

namespace NukeLab.BalanceBounds

open Program Machine Records State Ledger Users CreditRequests

inductive Operation
  | signUp (username : String)
  | createUser (refusal : Option Raise) (username : String) (credits dailyAllowance : Option Int)
  | grantCredits (userId : Uuid) (amount : Int) (actorId : Option Uuid) (reason source : String) (extra : Metadata)
  | deductCredits (userId : Uuid) (amount : Int) (actorId : Uuid) (reason : String)
  | consumeCredits (userId : Uuid) (amount : Int) (description : String) (serverId : Option Uuid)
  | grantDailyAllowance (userId : Uuid)
  | createRequest (userId : Uuid) (amount : Int) (reason requestType : String)
  | approve (requestId reviewerId : Uuid) (reviewer : Option Permissions) (amount : Option Int) (note : Option String)
  | updateUser (userId : Uuid) (data : UserUpdate) (updatedBy : Option Permissions)
  | setMaxBalance (amount : Int)
  | setInitialBalance (amount : Int)
  | wait (duration : Nat)

def configure (f : Settings → Settings) : Handler Unit := modify fun w => { w with settings := f w.settings }

def perform : Operation → Handler Unit
  | .signUp username => do
    let _ ← Users.createUser none username none none
  | .createUser refusal username credits dailyAllowance => do
    let _ ← Users.createUser refusal username credits dailyAllowance
  | .grantCredits userId amount actorId reason source extra => do
    let _ ← Ledger.grantCredits userId amount actorId reason source extra
  | .deductCredits userId amount actorId reason => do
    let _ ← Ledger.deductCredits userId amount actorId reason
  | .consumeCredits userId amount description serverId => do
    let _ ← Ledger.consumeCredits userId amount description serverId
  | .grantDailyAllowance userId => do
    let _ ← Ledger.grantDailyAllowance userId
  | .createRequest userId amount reason requestType => do
    let _ ← CreditRequests.createRequest userId amount reason requestType
  | .approve requestId reviewerId reviewer amount note => CreditRequests.approve requestId reviewerId reviewer amount note
  | .updateUser userId data updatedBy => Users.updateUser userId data updatedBy
  | .setMaxBalance amount => configure fun settings => { settings with creditsMaxBalance := amount }
  | .setInitialBalance amount => configure fun settings => { settings with creditsInitialBalance := amount }
  | .wait duration => modify fun w => { w with now := w.now + duration }

def after (op : Operation) (w : World) : World := final (perform op) w

def step : Step World Operation := fun w op => some (after op w)

def Fits (maxBalance before after : Int) : Prop := 0 ≤ after ∧ (0 < maxBalance → after ≤ max before maxBalance)

instance (maxBalance before after : Int) : Decidable (Fits maxBalance before after) :=
  inferInstanceAs (Decidable (_ ∧ _))

def Solvent (w : World) : Prop := ∀ userId, 0 ≤ balance w userId

def Bounded (w : World) (op : Operation) : Prop :=
  ∀ userId, Fits w.settings.creditsMaxBalance (balance w userId) (balance (after op w) userId)

/-- The balance an operation writes as it was asked to, past the ledger. -/
def written (w : World) : Operation → Option (Uuid × Int)
  | .signUp _ => some (w.nextUuid, w.settings.creditsInitialBalance)
  | .createUser none _ credits _ => some (w.nextUuid, credits.getD w.settings.creditsInitialBalance)
  | .updateUser userId data updatedBy =>
    (w.users userId).bind fun user =>
      if (updateRefusal user data updatedBy).isSome then none
      else (requestedBalance user data updatedBy).map fun balance => (userId, balance)
  | _ => none

def FitsWritten (w : World) (op : Operation) : Prop :=
  ∀ entry ∈ written w op, Fits w.settings.creditsMaxBalance (balance w entry.1) entry.2

instance (w : World) (op : Operation) : Decidable (FitsWritten w op) :=
  inferInstanceAs (Decidable (∀ entry ∈ written w op, _))

structure Within (w w' : World) : Prop where
  settings : w'.settings = w.settings
  solvent : ∀ userId, 0 ≤ balance w userId → 0 ≤ balance w' userId
  capped : 0 < w.settings.creditsMaxBalance →
    ∀ userId, balance w' userId ≤ max (balance w userId) w.settings.creditsMaxBalance

theorem Within.of_balances {w w' : World} (hsettings : w'.settings = w.settings)
    (h : ∀ userId, balance w' userId = balance w userId) : Within w w' where
  settings := hsettings
  solvent userId hs := (h userId).symm ▸ hs
  capped _ userId := (h userId).symm ▸ le_max_left _ _

instance : IsPreorder World Within where
  refl w := .of_balances rfl fun _ => rfl
  trans a b c hab hbc :=
    { settings := hbc.settings.trans hab.settings
      solvent := fun userId h => hbc.solvent userId (hab.solvent userId h)
      capped := fun hpos userId => by
        have hb := hbc.capped (hab.settings ▸ hpos) userId
        rw [hab.settings] at hb
        exact hb.trans (max_le (hab.capped hpos userId) (le_max_right _ _)) }

theorem add_effectiveAmount_le {maxBalance : Int} (hpos : 0 < maxBalance) (currentBalance amount : Int) :
    currentBalance + effectiveAmount maxBalance currentBalance amount ≤ max currentBalance maxBalance := by
  rw [effectiveAmount]
  split
  next hover => omega
  next hunder => omega

theorem balance_post (w : World) (t : CreditTransaction) (userId : Uuid) :
    balance (post w t) userId =
      if userId = t.userId ∧ (w.users userId).isSome then t.balanceAfter else balance w userId := by
  by_cases hu : userId = t.userId
  · subst hu
    cases huser : w.users t.userId <;> simp [balance, post, huser]
  · simp only [balance, post, Function.update_of_ne hu, hu, false_and, if_false]

theorem createTransaction_within (draft : TransactionDraft) : Moves Within (createTransaction draft) := by
  intro w
  have hrecorded := createTransaction_recorded draft w
  generalize final (createTransaction draft) w = w' at hrecorded ⊢
  cases hrecorded with
  | refused => exact refl_of Within w
  | posted user huser hnonneg =>
      have hbalance : balance w draft.userId = user.nukeBalance := by simp only [balance, huser]
      refine ⟨rfl, fun userId hs => ?_, fun hpos userId => ?_⟩
      · rw [balance_post]
        split
        · exact hnonneg
        · exact hs
      · rw [balance_post]
        split
        next hu =>
          have hown : userId = draft.userId := hu.1
          rw [hown, hbalance]
          exact add_effectiveAmount_le hpos _ _
        · exact le_max_left _ _

theorem updateRequest_within (id : Uuid) (f : CreditRequest → CreditRequest) (hf : ∀ r, (f r).id = r.id) :
    Moves Within (updateRequest id f hf) := .modify fun _ => .of_balances rfl fun _ => rfl

theorem utcNow_within : Moves Within utcNow := .of_final_eq fun _ => rfl

theorem tryAutoApprove_within (request : CreditRequest) : Moves Within (tryAutoApprove request) :=
  .bind .get fun _ => .ite (.pure _) <| .bind (createTransaction_within _) fun _ =>
    .bind (updateRequest_within _ _ _) fun _ => .pure _

theorem createRequest_within (userId : Uuid) (amount : Int) (reason requestType : String) :
    Moves Within (createRequest userId amount reason requestType) := by
  intro w
  rw [createRequest, final_get_bind]
  split
  · exact refl_of Within w
  next parsed _ =>
    have hinsert : Within w { w with
        nextUuid := w.nextUuid + 1
        creditRequests := w.creditRequests.insert (newRequest w userId amount reason parsed) } :=
      .of_balances rfl fun _ => rfl
    refine trans_of Within hinsert (?_ : Within _ (final _ _))
    cases parsed with
    | topUp => exact Moves.bind (tryAutoApprove_within _) (fun _ => .pure _) _
    | allowance => exact refl_of Within _

theorem getOpenForUpdate_within (requestId : Uuid) : Moves Within (getOpenForUpdate requestId) := by
  refine .bind .get fun w => ?_
  split
  · exact .throw _
  · exact .ite (.pure _) (.throw _)

theorem updateUser_within (userId : Uuid) {data : UserUpdate} (hdata : data.nukeBalance = none)
    (updatedBy : Option Permissions) : Moves Within (updateUser userId data updatedBy) := by
  intro w
  rw [updateUser, final_get_bind]
  split
  · exact refl_of Within w
  next user huser =>
    split
    · exact refl_of Within w
    · refine .of_balances rfl fun u => ?_
      by_cases hu : u = userId
      · subst hu
        simp only [balance, final_modify, Function.update_self, huser, updatedUser, requestedBalance, hdata,
          Option.getD_none]
      · simp only [balance, final_modify, Function.update_of_ne hu]

theorem approve_within (requestId reviewerId : Uuid) (reviewer : Option Permissions) (amount : Option Int)
    (note : Option String) : Moves Within (approve requestId reviewerId reviewer amount note) := by
  refine .bind (getOpenForUpdate_within requestId) fun request => ?_
  split
  · exact .bind (createTransaction_within _) fun _ => .bind utcNow_within fun _ => updateRequest_within _ _ _
  · unfold approveAllowance
    split
    · exact .throw _
    · exact .bind (updateUser_within _ rfl _) fun _ => .bind utcNow_within fun _ => updateRequest_within _ _ _

/-- The operation changes no balance but the one it writes, if it writes one. -/
def WritesOnly (w : World) (op : Operation) : Prop :=
  ∀ u, balance (after op w) u =
    match written w op with
    | none => balance w u
    | some (userId, amount) => if u = userId then amount else balance w u

theorem bounded_iff_of_writesOnly {w : World} {op : Operation} (hw : Solvent w) (h : WritesOnly w op) :
    Bounded w op ↔ FitsWritten w op := by
  unfold WritesOnly at h
  unfold FitsWritten
  cases hwritten : written w op with
  | none =>
      rw [hwritten] at h
      refine iff_of_true (fun u => ?_) (fun entry hentry => nomatch hentry)
      rw [h u]
      exact ⟨hw u, fun _ => le_max_left _ _⟩
  | some entry =>
      obtain ⟨userId, amount⟩ := entry
      rw [hwritten] at h
      dsimp only at h
      constructor
      · intro hbounded entry hentry
        cases hentry
        have hself := hbounded userId
        rwa [h, if_pos rfl] at hself
      · intro hfits u
        rw [h]
        split
        next hu =>
          rw [hu]
          exact hfits (userId, amount) rfl
        next hu => exact ⟨hw u, fun _ => le_max_left _ _⟩

theorem balance_createUser (w : World) (username : String) (credits dailyAllowance : Option Int) (u : Uuid) :
    balance (final (Users.createUser none username credits dailyAllowance) w) u =
      if u = w.nextUuid then credits.getD w.settings.creditsInitialBalance else balance w u := by
  have hfinal : (final (Users.createUser none username credits dailyAllowance) w).users =
      Function.update w.users w.nextUuid
        (some { newUser username with
          nukeBalance := credits.getD w.settings.creditsInitialBalance
          dailyAllowance := dailyAllowance.getD w.settings.creditsDailyAllowance }) := rfl
  by_cases hu : u = w.nextUuid
  · rw [if_pos hu, hu]
    simp only [balance, hfinal, Function.update_self]
  · rw [if_neg hu]
    simp only [balance, hfinal, Function.update_of_ne hu]

theorem updateUser_writesOnly (w : World) (userId : Uuid) (data : UserUpdate) (updatedBy : Option Permissions) :
    WritesOnly w (.updateUser userId data updatedBy) := by
  intro u
  rw [after, perform, Users.updateUser, final_get_bind, written]
  cases huser : w.users userId with
  | none => rfl
  | some user =>
      rw [Option.bind_some]
      cases hrefusal : updateRefusal user data updatedBy with
      | some raise =>
          simp only [hrefusal]
          rfl
      | none =>
          have hbalance : balance w userId = user.nukeBalance := by simp only [balance, huser]
          have hupdated : (updatedUser user data updatedBy).nukeBalance =
              (requestedBalance user data updatedBy).getD user.nukeBalance := rfl
          simp only [hrefusal]
          rw [final_modify, Option.isSome_none, if_neg Bool.false_ne_true]
          by_cases hu : u = userId
          · rw [hu]
            simp only [balance, Function.update_self, hupdated]
            cases requestedBalance user data updatedBy with
            | none => exact hbalance.symm
            | some amount => exact (if_pos rfl).symm
          · simp only [balance, Function.update_of_ne hu]
            cases requestedBalance user data updatedBy with
            | none => rfl
            | some amount => exact (if_neg hu).symm

theorem bounded_iff (w : World) (op : Operation) (hw : Solvent w) : Bounded w op ↔ FitsWritten w op := by
  have hledger (h : written w op = none) (hwithin : Within w (after op w)) : Bounded w op ↔ FitsWritten w op := by
    refine iff_of_true (fun u => ⟨hwithin.solvent u (hw u), fun hpos => hwithin.capped hpos u⟩) ?_
    exact fun entry hentry => nomatch h.symm.trans hentry
  cases op with
  | signUp username =>
      refine bounded_iff_of_writesOnly hw fun u => ?_
      rw [after, perform, final_bind_pure]
      exact balance_createUser w username none none u
  | createUser refusal username credits dailyAllowance =>
      cases refusal with
      | some raise => exact hledger rfl (refl_of Within w)
      | none =>
          refine bounded_iff_of_writesOnly hw fun u => ?_
          rw [after, perform, final_bind_pure]
          exact balance_createUser w username credits dailyAllowance u
  | updateUser userId data updatedBy =>
      exact bounded_iff_of_writesOnly hw (updateUser_writesOnly w userId data updatedBy)
  | grantCredits | deductCredits | consumeCredits =>
      exact hledger rfl (Moves.bind (createTransaction_within _) (fun _ => .pure _) w)
  | grantDailyAllowance userId =>
      exact hledger rfl (Moves.bind (grantDailyAllowance_moves createTransaction_within userId) (fun _ => .pure _) w)
  | createRequest userId amount reason requestType =>
      exact hledger rfl (Moves.bind (createRequest_within userId amount reason requestType) (fun _ => .pure _) w)
  | approve requestId reviewerId reviewer amount note => exact hledger rfl (approve_within _ _ _ _ _ w)
  | setMaxBalance amount | setInitialBalance amount | wait duration =>
      exact bounded_iff_of_writesOnly hw fun u => rfl

/-- The balances keep their bounds all along a run exactly when what is written
past the ledger, by new accounts and by user updates, is within them. -/
theorem balances_bounded_iff {w : World} (hw : Solvent w) (ops : List Operation) :
    AllSteps step Bounded w ops ↔ AllSteps step FitsWritten w ops := by
  refine allSteps_iff (P := Solvent) (fun w op t _ hbounded ht => ?_) (fun w op t hw _ => bounded_iff w op hw) ops hw
  cases ht
  exact fun userId => (hbounded userId).1

def ada : World := { blankWorld with users := fun u => if u = 1 then some (newUser "ada") else none }

theorem solvent_ada : Solvent ada := by
  intro userId
  by_cases h : userId = 1 <;> simp [balance, ada, h, newUser]

theorem balances_bounded_iff_ada :
    AllSteps step Bounded ada [.signUp "bob", .grantCredits 1 50 none "thanks" "admin_panel" []] ↔
      AllSteps step FitsWritten ada [.signUp "bob", .grantCredits 1 50 none "thanks" "admin_panel" []] :=
  balances_bounded_iff solvent_ada _

/-- An update writes a negative balance as it was asked to. -/
theorem negative_update_not_bounded :
    ¬ AllSteps step Bounded ada [.updateUser 1 ⟨some (-1), none⟩ (some ⟨true, true⟩)] := by
  rw [balances_bounded_iff solvent_ada]
  decide

end NukeLab.BalanceBounds
