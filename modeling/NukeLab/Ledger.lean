import NukeLab.State

namespace NukeLab.Ledger

open Program Records State

def putField (m : Metadata) (field : String) (value : MetaValue) : Metadata :=
  if m.any fun e => e.1 = field then m.map fun e => if e.1 = field then (field, value) else e
  else m ++ [(field, value)]

def mergeFields (m extra : Metadata) : Metadata := extra.foldl (fun m e => putField m e.1 e.2) m

/-- A NULL balance and a missing user both read as zero. -/
def balance (w : World) (userId : Uuid) : Int :=
  match w.users userId with
  | some user => user.nukeBalance
  | none => 0

def getBalance (userId : Uuid) : Handler Int := do return balance (← get) userId

@[simp] theorem run_getBalance (userId : Uuid) (w : World) :
    (getBalance userId).run w = .ok (balance w userId) w := rfl

def effectiveAmount (maxBalance currentBalance amount : Int) : Int :=
  if amount > 0 ∧ maxBalance > 0 ∧ currentBalance + amount > maxBalance then max 0 (maxBalance - currentBalance)
  else amount

def normalizedMeta (metadata : Metadata) (amount effective : Int) : Metadata :=
  if effective ≠ amount then
    putField (putField (putField metadata "capped" (.flag true)) "requested_amount" (.number amount))
      "granted_amount" (.number effective)
  else metadata

/-- One committed ledger entry: the balance and the row are written together. -/
def post (w : World) (transaction : CreditTransaction) : World :=
  { w with
    nextUuid := w.nextUuid + 1
    users := Function.update w.users transaction.userId
      ((w.users transaction.userId).map fun user => { user with nukeBalance := transaction.balanceAfter })
    transactions := w.transactions ++ [transaction] }

structure TransactionDraft where
  userId : Uuid
  amount : Int
  type : TransactionType
  description : String
  actorId : Option Uuid
  serverId : Option Uuid
  metadata : Metadata

/-- The row a draft becomes, against the balance of its user as it stands. -/
def transactionFor (w : World) (user : User) (draft : TransactionDraft) : CreditTransaction :=
  let effective := effectiveAmount w.settings.creditsMaxBalance user.nukeBalance draft.amount
  { id := w.nextUuid, userId := draft.userId, amount := effective, balanceAfter := user.nukeBalance + effective,
    type := draft.type, description := draft.description, serverId := draft.serverId, actorId := draft.actorId,
    metadata := normalizedMeta draft.metadata draft.amount effective, createdAt := w.now }

def createTransaction (draft : TransactionDraft) : Handler CreditTransaction := do
  let w ← get
  match w.users draft.userId with
  | none => throw (.http 404 ("User " ++ uuidText draft.userId ++ " not found"))
  | some user =>
    let transaction := transactionFor w user draft
    if transaction.balanceAfter < 0 then
      throw (.http 400 ("Insufficient credits. Current: " ++ toString user.nukeBalance ++ ", Required: " ++
        toString draft.amount.natAbs))
    set (post w transaction)
    return transaction

def hasActiveAllowanceOverride (user : User) (now : Instant) : Bool :=
  match user.dailyAllowanceOverride, user.dailyAllowanceOverrideUntil with
  | some _, some till => till > now
  | _, _ => false

def effectiveDailyAllowance (user : User) (now : Instant) : Int :=
  match user.dailyAllowanceOverride with
  | some amount => if hasActiveAllowanceOverride user now then amount else user.dailyAllowance
  | none => user.dailyAllowance

def grantDailyAllowance (userId : Uuid) : Handler CreditTransaction := do
  let w ← get
  match w.users userId with
  | none => throw (.http 404 "User not found or inactive")
  | some user =>
    if ¬ user.isActive then throw (.http 404 "User not found or inactive")
    let todayStart ← utcTodayStart
    let existing := w.transactions.filter fun t =>
      t.userId = userId ∧ t.type = .dailyAllowance ∧ t.createdAt ≥ todayStart
    match existing with
    | [] =>
      let allowance := effectiveDailyAllowance user w.now
      createTransaction
        { userId := userId, amount := allowance, type := .dailyAllowance,
          description := "Daily allowance: " ++ toString allowance ++ " credits", actorId := none,
          serverId := none,
          metadata := [("source", .text "auto_grant"),
            ("override_active", .flag (hasActiveAllowanceOverride user w.now))] }
    | [_] => throw (.http 400 "Daily allowance already granted today")
    | _ => throw (.exception "MultipleResultsFound")

def consumeCredits (userId : Uuid) (amount : Int) (description : String) (serverId : Option Uuid) :
    Handler CreditTransaction :=
  createTransaction
    { userId := userId, amount := -amount, type := .serverUsage, description := description, actorId := none,
      serverId := serverId, metadata := [] }

def grantCredits (userId : Uuid) (amount : Int) (actorId : Option Uuid) (reason source : String)
    (metaExtra : Metadata) : Handler CreditTransaction :=
  createTransaction
    { userId := userId, amount := amount, type := .adminGrant, description := "Admin grant: " ++ reason,
      actorId := actorId, serverId := none,
      metadata := mergeFields [("reason", .text reason), ("source", .text source)] metaExtra }

def deductCredits (userId : Uuid) (amount : Int) (actorId : Uuid) (reason : String) : Handler CreditTransaction :=
  createTransaction
    { userId := userId, amount := -amount, type := .adminDeduct, description := "Admin deduction: " ++ reason,
      actorId := some actorId, serverId := none,
      metadata := [("reason", .text reason), ("source", .text "admin_panel")] }

theorem createTransaction_run {w : World} {user : User} (draft : TransactionDraft)
    (huser : w.users draft.userId = some user) (hnonneg : 0 ≤ (transactionFor w user draft).balanceAfter) :
    (createTransaction draft).run w = .ok (transactionFor w user draft) (post w (transactionFor w user draft)) := by
  simp only [createTransaction, EStateM.run_bind, EStateM.run_get, huser, not_lt.mpr hnonneg, if_false,
    EStateM.run_set, EStateM.run_pure]

/-- All that recording a transaction can do: refuse and write nothing, or write
the balance and the row it was computed for. -/
inductive Recorded (draft : TransactionDraft) (w : World) : World → Prop
  | refused : Recorded draft w w
  | posted (user : User) (huser : w.users draft.userId = some user)
      (hnonneg : 0 ≤ (transactionFor w user draft).balanceAfter) :
      Recorded draft w (post w (transactionFor w user draft))

theorem createTransaction_recorded (draft : TransactionDraft) (w : World) :
    Recorded draft w (final (createTransaction draft) w) := by
  cases hu : w.users draft.userId with
  | none =>
      rw [createTransaction, final_get_bind, hu]
      exact .refused
  | some user =>
      by_cases hneg : (transactionFor w user draft).balanceAfter < 0
      · rw [createTransaction, final_get_bind, hu]
        simp only [hneg, if_true]
        exact .refused
      · rw [final_of_ok (createTransaction_run draft hu (not_lt.mp hneg))]
        exact .posted user hu (not_lt.mp hneg)

theorem grantDailyAllowance_moves {R : World → World → Prop} [IsPreorder World R]
    (h : ∀ draft, Moves R (createTransaction draft)) (userId : Uuid) : Moves R (grantDailyAllowance userId) := by
  unfold grantDailyAllowance
  refine .bind .get fun w => ?_
  split
  · exact .throw _
  · refine .ite (.throw_bind _ _) (.bind (.of_final_eq fun _ => rfl) fun _ => ?_)
    dsimp only
    split
    · exact h _
    · exact .throw _
    · exact .throw _

end NukeLab.Ledger
