import NukeLab.BalanceSessions
import NukeLab.CreditRequests
import NukeLab.Dictionaries

namespace NukeLab.RequestReviews

open Program Machine Interleaving Tables Records State Ledger Users CreditRequests Texts
open Dictionaries (Dict)
open DailyAllowance (LockedWorld)
open BalanceSessions (release flush)

inductive Request
  | create (userId : Uuid) (amount : Int) (reason requestType : String)
  | approve (requestId reviewerId : Uuid) (reviewer : Option Permissions) (amount : Option Int) (note : Option String)
  | reject (requestId reviewerId : Uuid) (note : Option String)
  | cancel (requestId userId : Uuid)
  | addMessage (requestId authorId : Uuid) (isReviewer : Bool) (body : String) (isInternal : Bool)
  | grant (userId : Uuid) (amount : Int) (actorId : Uuid) (reason : String)

structure Draft where
  userId : Uuid
  amount : Int
  reason : String
  requestType : RequestType

structure Outcome where
  reviewedBy : Option Uuid
  grantedAmount : Int
  transactionId : Option Uuid
  note : Option String

/-- How far a call has come. From its lock on the request to its next commit it
holds the row as it has read it. -/
inductive Phase
  | asked (request : Request)
  | validated (draft : Draft)
  | cooled (draft : Draft)
  | cleared (draft : Draft)
  | inserted (request : CreditRequest)
  | autoGranting (request : CreditRequest)
  | toppingUp (request : CreditRequest) (reviewerId : Uuid) (amount : Option Int) (note : Option String)
  | allowing (request : CreditRequest) (reviewerId : Uuid) (reviewer : Option Permissions) (amount : Option Int)
      (note : Option String)
  | rejecting (request : CreditRequest) (reviewerId : Uuid) (note : Option String)
  | cancelling (request : CreditRequest) (userId : Uuid)
  | posting (request : CreditRequest) (authorId : Uuid) (isReviewer : Bool) (body : String) (isInternal : Bool)
  | writing (request : CreditRequest) (outcome : Outcome)
  | approved (requestId : Uuid) (transactionId : Option Uuid)
  | cutOff (requestId : Uuid) (transactionId : Option Uuid)
  | refused (raise : Raise)
  | closed

/-- The time, the object that the session already holds for the row of a user
who is granted credits, and whether the call is cut off here. -/
structure Answer where
  now : Instant
  held : Option User
  fails : Bool

def lockOpen (i : Nat) (s : LockedWorld) (id : Uuid) (next : CreditRequest → Phase) : Option (LockedWorld × Phase) :=
  if s.lockedBy id = none ∨ s.lockedBy id = some i then
    match s.world.creditRequests.find id with
    | none => some (s, .refused (.http 404 ("Credit request " ++ uuidText id ++ " not found")))
    | some request =>
      if isOpen request.status then some (s.lock id i, next request)
      else some (s, .refused (.http 400 ("Credit request is already " ++ statusText request.status)))
  else none

def grantDraft (userId : Uuid) (amount : Int) (actorId : Option Uuid) (reason source : String) (metaExtra : Metadata) :
    TransactionDraft :=
  { userId := userId, amount := amount, type := .adminGrant, description := "Admin grant: " ++ reason,
    actorId := actorId, serverId := none,
    metadata := mergeFields [("reason", .text reason), ("source", .text source)] metaExtra }

def approvalDraft (request : CreditRequest) (reviewerId : Uuid) (amount : Option Int) (note : Option String) :
    TransactionDraft :=
  grantDraft request.userId (amountOr amount request.amount) (some reviewerId)
    ("Credit request approved: " ++ noteOr note request.reason) "credit_request" [("request_id", .uuid request.id)]

def autoDraft (request : CreditRequest) : TransactionDraft :=
  grantDraft request.userId request.amount none "Credit request auto-approved" "auto_approve"
    [("request_id", .uuid request.id)]

/-- The entry is computed on the object that the session holds for the user, if it holds one. -/
def entry (w : World) (held : Option User) (draft : TransactionDraft) : Except Raise (User × CreditTransaction) :=
  match w.users draft.userId with
  | none => .error (.http 404 ("User " ++ uuidText draft.userId ++ " not found"))
  | some row =>
    let user := held.getD row
    let transaction := transactionFor w user draft
    if transaction.balanceAfter < 0 then
      .error (.http 400 ("Insufficient credits. Current: " ++ toString user.nukeBalance ++ ", Required: " ++
        toString draft.amount.natAbs))
    else .ok (user, transaction)

/-- The commit of an entry ends the locks of its session. -/
def grant (i : Nat) (s : LockedWorld) (held : Option User) (draft : TransactionDraft) (next : CreditTransaction → Phase) :
    LockedWorld × Phase :=
  match entry s.world held draft with
  | .error raise => (release s i, .refused raise)
  | .ok (user, transaction) => (release { s with world := flush s.world user transaction } i, next transaction)

def written {α : Type} [DecidableEq α] (read new row : α) : α := if new = read then row else new

def approvedRow (read : CreditRequest) (outcome : Outcome) (now : Instant) (row : CreditRequest) : CreditRequest :=
  { row with
    status := written read.status .approved row.status
    reviewedBy := written read.reviewedBy outcome.reviewedBy row.reviewedBy
    reviewedAt := written read.reviewedAt (some now) row.reviewedAt
    grantedAmount := written read.grantedAmount (some outcome.grantedAmount) row.grantedAmount
    transactionId := written read.transactionId outcome.transactionId row.transactionId
    reviewNote := written read.reviewNote outcome.note row.reviewNote }

def rejectedRow (reviewerId : Uuid) (note : Option String) (now : Instant) (row : CreditRequest) : CreditRequest :=
  { row with status := .rejected, reviewedBy := some reviewerId, reviewedAt := some now, reviewNote := note }

def cancelledRow (now : Instant) (row : CreditRequest) : CreditRequest := { row with status := .cancelled, reviewedAt := some now }

/-- The message says whose turn it is, unless it is an internal note. -/
def postedRow (isRequester isInternal : Bool) (row : CreditRequest) : CreditRequest :=
  if isInternal then row else { row with status := if isRequester then .pending else .needsInfo }

def rewrite (w : World) (id : Uuid) (f : CreditRequest → CreditRequest) (hf : ∀ r, (f r).id = r.id) : World :=
  { w with creditRequests := w.creditRequests.modify id f hf }

theorem id_postedRow (isRequester isInternal : Bool) (r : CreditRequest) :
    (postedRow isRequester isInternal r).id = r.id := by
  rw [postedRow]
  split <;> rfl

def insertRequest (w : World) (draft : Draft) : World :=
  { w with
    nextUuid := w.nextUuid + 1
    creditRequests := w.creditRequests.insert (newRequest w draft.userId draft.amount draft.reason draft.requestType) }

def ask (i : Nat) (s : LockedWorld) : Request → Option (LockedWorld × Phase)
  | .create userId amount reason requestType =>
    if (s.world.users userId).any fun user => hasActiveCreditRequestBlock user s.world.now then
      some (s, .refused (.http 403 "Credit requests are disabled for your account"))
    else if amount ≤ 0 then some (s, .refused (.http 400 "Amount must be positive"))
    else if isBlank reason then some (s, .refused (.http 400 "Reason must not be empty"))
    else
      match parseRequestType requestType with
      | none => some (s, .refused (.http 400 ("Unknown request type: " ++ requestType)))
      | some parsed => some (s, .validated ⟨userId, amount, reason, parsed⟩)
  | .approve requestId reviewerId reviewer amount note =>
    lockOpen i s requestId fun request =>
      match request.requestType with
      | .topUp => .toppingUp request reviewerId amount note
      | .allowance => .allowing request reviewerId reviewer amount note
  | .reject requestId reviewerId note => lockOpen i s requestId fun request => .rejecting request reviewerId note
  | .cancel requestId userId => lockOpen i s requestId fun request => .cancelling request userId
  | .addMessage requestId authorId isReviewer body isInternal =>
    if isBlank body then some (s, .refused (.http 400 "Message body must not be empty"))
    else lockOpen i s requestId fun request => .posting request authorId isReviewer body isInternal
  | .grant userId amount actorId reason =>
    some (grant i s none (grantDraft userId amount (some actorId) reason "admin_panel" []) fun _ => .closed)

/-- One transaction of a call, or the query that the next one goes by. -/
def turn (i : Nat) (s : LockedWorld) (held : Option User) : Phase → Option (LockedWorld × Phase)
  | .asked request => ask i s request
  | .validated draft =>
    match cooldownRefusal s.world draft.userId with
    | some raise => some (s, .refused raise)
    | none => some (s, .cooled draft)
  | .cooled draft =>
    if openOf s.world draft.userId = [] then some (s, .cleared draft)
    else some (s, .refused (.http 400 duplicateOpenDetail))
  | .cleared draft =>
    -- The partial unique index has the last word.
    if openOf s.world draft.userId = [] then
      some ({ s with world := insertRequest s.world draft },
        .inserted (newRequest s.world draft.userId draft.amount draft.reason draft.requestType))
    else some (s, .refused (.http 400 duplicateOpenDetail))
  | .inserted request =>
    let threshold := s.world.settings.creditsAutoApproveMax
    if request.requestType = .allowance ∨ threshold ≤ 0 ∨ request.amount > threshold then some (s, .closed)
    else some (s, .autoGranting request)
  | .autoGranting request =>
    some (grant i s held (autoDraft request) fun transaction =>
      .writing request ⟨none, transaction.amount, some transaction.id, request.reviewNote⟩)
  | .toppingUp request reviewerId amount note =>
    some (grant i s held (approvalDraft request reviewerId amount note) fun transaction =>
      .writing request ⟨some reviewerId, transaction.amount, some transaction.id, note⟩)
  | .allowing request reviewerId reviewer amount note =>
    match reviewer, s.world.users request.userId with
    | none, _ => some (release s i, .refused (.http 404 ("Reviewer " ++ uuidText reviewerId ++ " not found")))
    | some _, none => some (release s i, .refused (.http 404 "User not found"))
    | some permissions, some user =>
      let data : UserUpdate := ⟨none, some (amountOr amount request.amount)⟩
      match updateRefusal user data (some permissions) with
      | some raise => some (release s i, .refused raise)
      | none =>
        let users := Function.update s.world.users request.userId (some (updatedUser user data (some permissions)))
        some (release { s with world := { s.world with users := users } } i,
          .writing request ⟨some reviewerId, amountOr amount request.amount, none, note⟩)
  | .rejecting request reviewerId note =>
    some (release { s with world := rewrite s.world request.id (rejectedRow reviewerId note s.world.now) fun _ => rfl } i, .closed)
  | .cancelling request userId =>
    if request.userId ≠ userId then
      some (release s i, .refused (.http 403 "Only the requester can cancel a credit request"))
    else some (release { s with world := rewrite s.world request.id (cancelledRow s.world.now) fun _ => rfl } i, .closed)
  | .posting request authorId isReviewer body isInternal =>
    let isRequester := decide (request.userId = authorId)
    if ¬ isRequester ∧ ¬ isReviewer then
      some (release s i, .refused (.http 403 "You cannot post on this credit request"))
    else if isInternal ∧ ¬ isReviewer then
      some (release s i, .refused (.http 403 "Internal notes require review permissions"))
    else
      let message : CreditRequestMessage := ⟨request.id, authorId, body, isInternal, s.world.now⟩
      let w := { s.world with requestMessages := s.world.requestMessages ++ [message] }
      some (release { s with world := rewrite w request.id (postedRow isRequester isInternal) (id_postedRow _ _) } i, .closed)
  | .writing request outcome =>
    -- The lock ended with the grant's commit, and the update waits for whoever has it now.
    if s.lockedBy request.id = none ∨ s.lockedBy request.id = some i then
      some (release { s with world := rewrite s.world request.id (approvedRow request outcome s.world.now) fun _ => rfl } i,
        .approved request.id outcome.transactionId)
    else none
  | .approved _ _ | .cutOff _ _ | .refused _ | .closed => none

/-- What is left of a call whose session is rolled back. -/
def cut : Phase → Option Phase
  | .writing request outcome => some (.cutOff request.id outcome.transactionId)
  | .approved _ _ | .cutOff _ _ | .refused _ | .closed => none
  | _ => some .closed

def timed (s : LockedWorld) (now : Instant) : LockedWorld := { s with world := { s.world with now := now } }

def advance : Advance LockedWorld Phase Answer := fun i s p answer =>
  if answer.fails then (cut p).map fun q => (release s i, q) else turn i (timed s answer.now) answer.held p

abbrev Event := Interleaving.Event Request Answer

def started (w : World) : System LockedWorld Phase :=
  ⟨⟨{ w with creditRequests := .empty _, transactions := [] }, fun _ => none⟩, []⟩

namespace Phase

def holding : Phase → Option CreditRequest
  | .toppingUp request _ _ _ | .allowing request _ _ _ _ | .rejecting request _ _ | .cancelling request _
  | .posting request _ _ _ _ => some request
  | _ => none

/-- A row that a call has read or written, and has no lock on any more. -/
def known : Phase → Option CreditRequest
  | .inserted request | .autoGranting request | .writing request _ => some request
  | _ => none

def grants : Phase → Option RequestType
  | .toppingUp _ _ _ _ | .autoGranting _ => some .topUp
  | .allowing _ _ _ _ _ => some .allowance
  | _ => none

/-- The request that the turn decides, or grants what was asked for. -/
def deciding : Phase → Option CreditRequest
  | .autoGranting request | .toppingUp request _ _ _ | .allowing request _ _ _ _ | .rejecting request _ _
  | .cancelling request _ => some request
  | _ => none

def owes : Phase → Option (CreditRequest × Outcome)
  | .writing request outcome => some (request, outcome)
  | _ => none

/-- The request for which a call has entered a grant in the ledger. -/
def granted : Phase → Option Uuid
  | .writing request outcome => outcome.transactionId.map fun _ => request.id
  | .approved requestId transactionId | .cutOff requestId transactionId => transactionId.map fun _ => requestId
  | _ => none

def decided : Phase → Option Uuid
  | .approved requestId _ => some requestId
  | _ => none

end Phase

def IsFor (id : Uuid) (t : CreditTransaction) : Prop := t.metadata.lookup "request_id" = some (.uuid id)

instance (id : Uuid) : DecidablePred (IsFor id) := fun _ => inferInstanceAs (Decidable (_ = _))

structure SameRows (w w' : World) : Prop where
  requests : w'.creditRequests = w.creditRequests
  transactions : w'.transactions = w.transactions
  nextUuid : w'.nextUuid = w.nextUuid

structure Declines (f : CreditRequest → CreditRequest) : Prop where
  same : ∀ r, (f r).id = r.id ∧ (f r).userId = r.userId ∧ (f r).amount = r.amount ∧ (f r).reason = r.reason ∧
    (f r).requestType = r.requestType ∧ (f r).createdAt = r.createdAt
  ungranted : ∀ r, (f r).transactionId = r.transactionId ∧ (f r).grantedAmount = r.grantedAmount
  status : ∀ r, (f r).status = r.status ∨ (f r).status ≠ .approved

inductive Turned (i : Nat) (s : LockedWorld) (p : Phase) : LockedWorld → Phase → Prop
  | quiet {u : LockedWorld} {q : Phase} (hrows : SameRows s.world u.world)
      (hlock : u.lockedBy = s.lockedBy ∨ u.lockedBy = (release s i).lockedBy) (hholding : q.holding = none)
      (hknown : ∀ r ∈ q.known, r ∈ p.known) (hgrants : ∀ type ∈ q.grants, ∀ r ∈ q.known, r.requestType = type)
      (howes : q.owes = none) (hgranted : q.granted = p.granted) (hdecided : q.decided = p.decided) : Turned i s p u q
  | locked {r : CreditRequest} {q : Phase} (hfree : s.lockedBy r.id = none ∨ s.lockedBy r.id = some i)
      (hfind : s.world.creditRequests.find r.id = some r) (hopen : isOpen r.status = true) (hholding : q.holding = some r)
      (hgrants : ∀ type ∈ q.grants, r.requestType = type) (hp : p.granted = none ∧ p.decided = none) :
      Turned i s p (s.lock r.id i) q
  | inserted {draft : Draft} (hopen : openOf s.world draft.userId = []) (hp : p.granted = none ∧ p.decided = none) :
      Turned i s p { s with world := insertRequest s.world draft }
        (.inserted (newRequest s.world draft.userId draft.amount draft.reason draft.requestType))
  | entered {user : User} {t : CreditTransaction} (hfor : ∀ id, ¬ IsFor id t) (hp : p.granted = none ∧ p.decided = none) :
      Turned i s p (release { s with world := flush s.world user t } i) .closed
  | granted {r : CreditRequest} {user : User} {t : CreditTransaction} {outcome : Outcome}
      (hread : r ∈ p.holding ∨ r ∈ p.known) (hgrants : p.grants = some .topUp) (hfor : ∀ id, IsFor id t ↔ id = r.id)
      (huser : t.userId = r.userId) (htransaction : outcome.transactionId = some t.id)
      (hamount : outcome.grantedAmount = t.amount) (hp : p.granted = none ∧ p.decided = none) :
      Turned i s p (release { s with world := flush s.world user t } i) (.writing r outcome)
  | allowed {r : CreditRequest} {outcome : Outcome} {users : Uuid → Option User} (hholding : p.holding = some r)
      (hgrants : p.grants = some .allowance) (htransaction : outcome.transactionId = none)
      (hp : p.granted = none ∧ p.decided = none) :
      Turned i s p (release { s with world := { s.world with users := users } } i) (.writing r outcome)
  | declined {r : CreditRequest} {w : World} {f : CreditRequest → CreditRequest} (hrows : SameRows s.world w)
      (hholding : p.holding = some r) (hf : Declines f)
      (hopen : p.deciding = some r ∨ ∀ r, isOpen r.status = true → isOpen (f r).status = true)
      (hp : p.granted = none ∧ p.decided = none) :
      Turned i s p (release { s with world := rewrite w r.id f fun r => (hf.same r).1 } i) .closed
  | wrote {r : CreditRequest} {outcome : Outcome} (hfree : s.lockedBy r.id = none ∨ s.lockedBy r.id = some i)
      (hp : p = .writing r outcome) :
      Turned i s p
        (release { s with world := rewrite s.world r.id (approvedRow r outcome s.world.now) fun _ => rfl } i)
        (.approved r.id outcome.transactionId)

variable {i : Nat} {s u : LockedWorld} {p q : Phase} {held : Option User}

theorem lockOpen_turned {id : Uuid} {next : CreditRequest → Phase} (h : lockOpen i s id next = some (u, q))
    (hp : p.granted = none ∧ p.decided = none) (hnext : ∀ r, (next r).holding = some r)
    (hgrants : ∀ r, ∀ type ∈ (next r).grants, r.requestType = type) : Turned i s p u q := by
  rw [lockOpen] at h
  split at h
  next hfree =>
    split at h
    · cases h
      exact .quiet ⟨rfl, rfl, rfl⟩ (.inl rfl) rfl (by intro _ hr; cases hr) (by intro _ h; cases h) rfl hp.1.symm hp.2.symm
    next r hfind =>
      obtain rfl := Table.key_of_find hfind
      split at h
      next hopen =>
        cases h
        exact .locked hfree hfind hopen (hnext r) (hgrants r) hp
      · cases h
        exact .quiet ⟨rfl, rfl, rfl⟩ (.inl rfl) rfl (by intro _ hr; cases hr) (by intro _ h; cases h) rfl hp.1.symm hp.2.symm
  · cases h

theorem lookup_map_field {m : Metadata} {field key : String} {value : MetaValue} (h : key ≠ field) :
    (m.map fun e => if e.1 = field then (field, value) else e).lookup key = m.lookup key := by
  induction m with
  | nil => rfl
  | cons e m ih =>
      rw [List.map_cons, Dict.lookup_cons, Dict.lookup_cons, ih]
      by_cases hname : e.1 = field
      · rw [if_pos hname, if_neg h, if_neg (hname ▸ h)]
      · rw [if_neg hname]

theorem lookup_putField {m : Metadata} {field key : String} {value : MetaValue} (h : key ≠ field) :
    (putField m field value).lookup key = m.lookup key := by
  rw [putField]
  split
  · exact lookup_map_field h
  · rw [List.lookup_append, Dict.lookup_cons, if_neg h, List.lookup_nil, Option.or_none]

theorem isFor_transactionFor {w : World} {user : User} {draft : TransactionDraft} {id : Uuid} :
    IsFor id (transactionFor w user draft) ↔ draft.metadata.lookup "request_id" = some (.uuid id) := by
  have hmeta : (transactionFor w user draft).metadata.lookup "request_id" = draft.metadata.lookup "request_id" := by
    rw [transactionFor]
    dsimp only
    rw [normalizedMeta]
    split
    · rw [lookup_putField (by decide), lookup_putField (by decide), lookup_putField (by decide)]
    · rfl
  rw [IsFor, hmeta]

theorem isFor_request {w : World} {user : User} {userId : Uuid} {amount : Int} {actorId : Option Uuid}
    {reason source : String} {requestId : Uuid} (id : Uuid) :
    IsFor id (transactionFor w user (grantDraft userId amount actorId reason source [("request_id", .uuid requestId)])) ↔
      id = requestId := by
  have hdraft : (grantDraft userId amount actorId reason source [("request_id", .uuid requestId)]).metadata.lookup
      "request_id" = some (.uuid requestId) := by
    simp [grantDraft, mergeFields, putField, Dict.lookup_cons]
  rw [isFor_transactionFor, hdraft, Option.some_inj, MetaValue.uuid.injEq, eq_comm]

theorem not_isFor_grant {w : World} {user : User} {userId : Uuid} {amount : Int} {actorId : Option Uuid}
    {reason source : String} (id : Uuid) :
    ¬ IsFor id (transactionFor w user (grantDraft userId amount actorId reason source [])) := by
  rw [isFor_transactionFor, grantDraft]
  simp [mergeFields, Dict.lookup_cons]

theorem grant_cases {draft : TransactionDraft} {next : CreditTransaction → Phase} (h : grant i s held draft next = (u, q)) :
    (u = release s i ∧ ∃ raise, q = .refused raise) ∨
      ∃ user, u = release { s with world := flush s.world user (transactionFor s.world user draft) } i ∧
        q = next (transactionFor s.world user draft) := by
  rw [grant, entry] at h
  cases huser : s.world.users draft.userId with
  | none =>
      rw [huser] at h
      cases h
      exact .inl ⟨rfl, _, rfl⟩
  | some row =>
      rw [huser] at h
      dsimp only at h
      by_cases hneg : (transactionFor s.world (held.getD row) draft).balanceAfter < 0
      · rw [if_pos hneg] at h
        cases h
        exact .inl ⟨rfl, _, rfl⟩
      · rw [if_neg hneg] at h
        cases h
        exact .inr ⟨_, rfl, rfl⟩

theorem refused_turned (raise : Raise) (hp : p.granted = none ∧ p.decided = none) : Turned i s p s (.refused raise) :=
  .quiet ⟨rfl, rfl, rfl⟩ (.inl rfl) rfl (fun _ h => nomatch h) (fun _ h => nomatch h) rfl hp.1.symm hp.2.symm

theorem released_turned (raise : Raise) (hp : p.granted = none ∧ p.decided = none) :
    Turned i s p (release s i) (.refused raise) :=
  .quiet ⟨rfl, rfl, rfl⟩ (.inr rfl) rfl (fun _ h => nomatch h) (fun _ h => nomatch h) rfl hp.1.symm hp.2.symm

theorem ask_turned {request : Request} (h : ask i s request = some (u, q)) : Turned i s (.asked request) u q := by
  have hp : (Phase.asked request).granted = none ∧ (Phase.asked request).decided = none := ⟨rfl, rfl⟩
  cases request with
  | create userId amount reason requestType =>
      rw [ask] at h
      split at h
      · cases h
        exact refused_turned _ hp
      split at h
      · cases h
        exact refused_turned _ hp
      split at h
      · cases h
        exact refused_turned _ hp
      split at h
      · cases h
        exact refused_turned _ hp
      · cases h
        exact .quiet ⟨rfl, rfl, rfl⟩ (.inl rfl) rfl (fun _ h => nomatch h) (fun _ h => nomatch h) rfl rfl rfl
  | approve requestId reviewerId reviewer amount note =>
      apply lockOpen_turned h hp
      · intro r
        cases r.requestType <;> rfl
      · intro r type htype
        cases hr : r.requestType <;> rw [hr] at htype <;> exact Option.some.inj htype
  | reject requestId reviewerId note => exact lockOpen_turned h hp (fun _ => rfl) fun _ _ h => nomatch h
  | cancel requestId userId => exact lockOpen_turned h hp (fun _ => rfl) fun _ _ h => nomatch h
  | addMessage requestId authorId isReviewer body isInternal =>
      rw [ask] at h
      split at h
      · cases h
        exact refused_turned _ hp
      · exact lockOpen_turned h hp (fun _ => rfl) fun _ _ h => nomatch h
  | grant userId amount actorId reason =>
      obtain ⟨rfl, raise, rfl⟩ | ⟨user, rfl, rfl⟩ := grant_cases (Option.some.inj h)
      · exact released_turned raise hp
      · exact .entered not_isFor_grant hp

theorem declines_rejected (reviewerId : Uuid) (note : Option String) (now : Instant) :
    Declines (rejectedRow reviewerId note now) where
  same _ := ⟨rfl, rfl, rfl, rfl, rfl, rfl⟩
  ungranted _ := ⟨rfl, rfl⟩
  status _ := .inr nofun

theorem declines_cancelled (now : Instant) : Declines (cancelledRow now) where
  same _ := ⟨rfl, rfl, rfl, rfl, rfl, rfl⟩
  ungranted _ := ⟨rfl, rfl⟩
  status _ := .inr nofun

theorem declines_posted (isRequester isInternal : Bool) : Declines (postedRow isRequester isInternal) := by
  cases isInternal with
  | true => exact ⟨fun _ => ⟨rfl, rfl, rfl, rfl, rfl, rfl⟩, fun _ => ⟨rfl, rfl⟩, fun _ => .inl rfl⟩
  | false =>
      refine ⟨fun _ => ⟨rfl, rfl, rfl, rfl, rfl, rfl⟩, fun _ => ⟨rfl, rfl⟩, fun r => .inr ?_⟩
      cases isRequester <;> exact nofun

theorem isOpen_postedRow {isRequester isInternal : Bool} {r : CreditRequest} (h : isOpen r.status = true) :
    isOpen (postedRow isRequester isInternal r).status = true := by
  cases isInternal with
  | true => exact h
  | false => cases isRequester <;> rfl

theorem turn_turned (h : turn i s held p = some (u, q)) : Turned i s p u q := by
  cases p with
  | asked request => exact ask_turned h
  | validated draft =>
      rw [turn] at h
      split at h
      · cases h
        exact refused_turned _ ⟨rfl, rfl⟩
      · cases h
        exact .quiet ⟨rfl, rfl, rfl⟩ (.inl rfl) rfl (fun _ h => nomatch h) (fun _ h => nomatch h) rfl rfl rfl
  | cooled draft =>
      rw [turn] at h
      split at h
      · cases h
        exact .quiet ⟨rfl, rfl, rfl⟩ (.inl rfl) rfl (fun _ h => nomatch h) (fun _ h => nomatch h) rfl rfl rfl
      · cases h
        exact refused_turned _ ⟨rfl, rfl⟩
  | cleared draft =>
      rw [turn] at h
      split at h
      next hopen =>
        cases h
        exact .inserted hopen ⟨rfl, rfl⟩
      · cases h
        exact refused_turned _ ⟨rfl, rfl⟩
  | inserted request =>
      rw [turn] at h
      split at h
      · cases h
        exact .quiet ⟨rfl, rfl, rfl⟩ (.inl rfl) rfl (fun _ h => nomatch h) (fun _ h => nomatch h) rfl rfl rfl
      next htype =>
        cases h
        have htop : request.requestType = .topUp := by
          cases hr : request.requestType with
          | topUp => rfl
          | allowance => exact absurd (.inl hr) htype
        refine .quiet ⟨rfl, rfl, rfl⟩ (.inl rfl) rfl (fun _ h => h) ?_ rfl rfl rfl
        intro type hgrants r hr
        obtain rfl := Option.some.inj hgrants
        obtain rfl := Option.some.inj hr
        exact htop
  | autoGranting request =>
      obtain ⟨rfl, raise, rfl⟩ | ⟨user, rfl, rfl⟩ := grant_cases (Option.some.inj h)
      · exact released_turned raise ⟨rfl, rfl⟩
      · exact .granted (.inr rfl) rfl isFor_request rfl rfl rfl ⟨rfl, rfl⟩
  | toppingUp request reviewerId amount note =>
      obtain ⟨rfl, raise, rfl⟩ | ⟨user, rfl, rfl⟩ := grant_cases (Option.some.inj h)
      · exact released_turned raise ⟨rfl, rfl⟩
      · exact .granted (.inl rfl) rfl isFor_request rfl rfl rfl ⟨rfl, rfl⟩
  | allowing request reviewerId reviewer amount note =>
      simp only [turn] at h
      split at h
      · cases h
        exact released_turned _ ⟨rfl, rfl⟩
      · cases h
        exact released_turned _ ⟨rfl, rfl⟩
      · split at h
        · cases h
          exact released_turned _ ⟨rfl, rfl⟩
        · cases h
          exact .allowed rfl rfl rfl ⟨rfl, rfl⟩
  | rejecting request reviewerId note =>
      cases h
      exact .declined ⟨rfl, rfl, rfl⟩ rfl (declines_rejected _ _ _) (.inl rfl) ⟨rfl, rfl⟩
  | cancelling request userId =>
      rw [turn] at h
      split at h
      · cases h
        exact released_turned _ ⟨rfl, rfl⟩
      · cases h
        exact .declined ⟨rfl, rfl, rfl⟩ rfl (declines_cancelled _) (.inl rfl) ⟨rfl, rfl⟩
  | posting request authorId isReviewer body isInternal =>
      rw [turn] at h
      dsimp only at h
      split at h
      · cases h
        exact released_turned _ ⟨rfl, rfl⟩
      split at h
      · cases h
        exact released_turned _ ⟨rfl, rfl⟩
      · cases h
        have hrows : SameRows s.world { s.world with requestMessages := s.world.requestMessages ++
            [⟨request.id, authorId, body, isInternal, s.world.now⟩] } := ⟨rfl, rfl, rfl⟩
        exact .declined hrows rfl (declines_posted _ _) (.inr fun r => isOpen_postedRow) ⟨rfl, rfl⟩
  | writing request outcome =>
      rw [turn] at h
      split at h
      next hfree =>
        cases h
        exact .wrote hfree rfl
      · cases h
  | approved | cutOff | refused | closed => exact nomatch h

theorem cut_turned {q : Phase} (h : cut p = some q) : Turned i s p (release s i) q := by
  cases p with
  | approved | cutOff | refused | closed => exact nomatch h
  | _ =>
      cases h
      exact .quiet ⟨rfl, rfl, rfl⟩ (.inr rfl) rfl (fun _ h => nomatch h) (fun _ h => nomatch h) rfl rfl rfl

theorem advance_turned {answer : Answer} (h : advance i s p answer = some (u, q)) :
    ∃ now, Turned i (timed s now) p u q := by
  rw [advance] at h
  split at h
  · obtain ⟨r, hr, h⟩ := Option.map_eq_some_iff.mp h
    cases h
    exact ⟨s.world.now, cut_turned hr⟩
  · exact ⟨answer.now, turn_turned h⟩

structure Same (r r' : CreditRequest) : Prop where
  id : r'.id = r.id
  userId : r'.userId = r.userId
  amount : r'.amount = r.amount
  reason : r'.reason = r.reason
  requestType : r'.requestType = r.requestType
  createdAt : r'.createdAt = r.createdAt

/-- Only an open request changes its status, unless it is approved. -/
structure Later (r r' : CreditRequest) : Prop where
  same : Same r r'
  status : r'.status = r.status ∨ isOpen r.status = true ∨ r'.status = .approved

/-- An approved top-up shows the ledger entry that it was granted by. -/
structure Settled (w : World) (r : CreditRequest) : Prop where
  undecided : r.status ≠ .approved → r.transactionId = none ∧ r.grantedAmount = none
  allowance : r.requestType = .allowance → r.transactionId = none
  topUp : r.status = .approved → r.requestType = .topUp →
    ∃ t ∈ w.transactions, IsFor r.id t ∧ t.userId = r.userId ∧ r.transactionId = some t.id ∧ r.grantedAmount = some t.amount

structure Kept (w : World) : Prop where
  numbered : ∀ r ∈ w.creditRequests.rows, r.id < w.nextUuid
  oneOpen : ∀ userId, (openOf w userId).length ≤ 1
  settled : ∀ r ∈ w.creditRequests.rows, Settled w r
  ledger : ∀ t ∈ w.transactions, ∀ id, IsFor id t →
    ∃ r ∈ w.creditRequests.rows, r.id = id ∧ r.requestType = .topUp ∧ r.userId = t.userId

/-- The row is still there as it was created, and nothing was decided when it was read. -/
structure Known (w : World) (r : CreditRequest) : Prop where
  row : ∃ row, w.creditRequests.find r.id = some row ∧ Same r row
  status : isOpen r.status = true
  ungranted : r.transactionId = none ∧ r.grantedAmount = none

structure Owed (w : World) (r : CreditRequest) (outcome : Outcome) : Prop where
  allowance : r.requestType = .allowance → outcome.transactionId = none
  topUp : r.requestType = .topUp → ∃ t ∈ w.transactions, IsFor r.id t ∧ t.userId = r.userId ∧
    outcome.transactionId = some t.id ∧ outcome.grantedAmount = t.amount

structure Local (i : Nat) (s : LockedWorld) (p : Phase) : Prop where
  holding : ∀ r ∈ p.holding, s.lockedBy r.id = some i ∧ s.world.creditRequests.find r.id = some r ∧ isOpen r.status = true
  known : ∀ r ∈ p.known, Known s.world r
  grants : ∀ type ∈ p.grants, ∀ r, r ∈ p.holding ∨ r ∈ p.known → r.requestType = type
  owes : ∀ e ∈ p.owes, Owed s.world e.1 e.2
  decided : ∀ id ∈ p.decided, ∃ r, s.world.creditRequests.find id = some r ∧ r.status = .approved

theorem Same.refl (r : CreditRequest) : Same r r := ⟨rfl, rfl, rfl, rfl, rfl, rfl⟩

theorem Same.trans {r r' r'' : CreditRequest} (h : Same r r') (h' : Same r' r'') : Same r r'' where
  id := h'.id.trans h.id
  userId := h'.userId.trans h.userId
  amount := h'.amount.trans h.amount
  reason := h'.reason.trans h.reason
  requestType := h'.requestType.trans h.requestType
  createdAt := h'.createdAt.trans h.createdAt

theorem Later.refl (r : CreditRequest) : Later r r := ⟨.refl r, .inl rfl⟩

theorem Declines.later {f : CreditRequest → CreditRequest} (hf : Declines f) {r : CreditRequest}
    (hopen : isOpen r.status = true) : Later r (f r) := by
  obtain ⟨hid, huser, hamount, hreason, htype, hcreated⟩ := hf.same r
  exact ⟨⟨hid, huser, hamount, hreason, htype, hcreated⟩, .inr (.inl hopen)⟩

theorem status_approvedRow {r row : CreditRequest} {outcome : Outcome} {now : Instant} (hopen : isOpen r.status = true) :
    (approvedRow r outcome now row).status = .approved := by
  have hne : RequestStatus.approved ≠ r.status := by
    intro h
    rw [← h] at hopen
    cases hopen
  exact if_neg hne

theorem approvedRow_later {r row : CreditRequest} {outcome : Outcome} {now : Instant} (hopen : isOpen r.status = true) :
    Later row (approvedRow r outcome now row) :=
  ⟨⟨rfl, rfl, rfl, rfl, rfl, rfl⟩, .inr (.inr (status_approvedRow hopen))⟩

theorem requests_flush (w : World) (user : User) (t : CreditTransaction) :
    (flush w user t).creditRequests = w.creditRequests := by
  rw [flush]
  split <;> rfl

theorem nextUuid_flush (w : World) (user : User) (t : CreditTransaction) : (flush w user t).nextUuid = w.nextUuid + 1 := by
  rw [flush]
  split <;> rfl

theorem mem_rewrite {w : World} {id : Uuid} {f : CreditRequest → CreditRequest} {hf : ∀ r, (f r).id = r.id}
    {r' : CreditRequest} : r' ∈ (rewrite w id f hf).creditRequests.rows ↔
      ∃ r ∈ w.creditRequests.rows, (if r.id = id then f r else r) = r' := List.mem_map

theorem find_rewrite_self {w : World} {id : Uuid} {f : CreditRequest → CreditRequest} {hf : ∀ r, (f r).id = r.id}
    {r : CreditRequest} (h : w.creditRequests.find id = some r) :
    (rewrite w id f hf).creditRequests.find id = some (f r) := Table.find_modify_self f hf h

theorem find_rewrite_of_ne {w : World} {id other : Uuid} {f : CreditRequest → CreditRequest} {hf : ∀ r, (f r).id = r.id}
    (h : other ≠ id) : (rewrite w id f hf).creditRequests.find other = w.creditRequests.find other :=
  Table.find_modify_of_ne f hf h

theorem find_new {w : World} (hs : Kept w) (draft : Draft) : w.creditRequests.find
    (newRequest w draft.userId draft.amount draft.reason draft.requestType).id = none := by
  rw [Table.find_eq_none_iff]
  intro r hr h
  exact absurd (hs.numbered r hr) (not_lt.mpr h.ge)

theorem Turned.rows (hs : Kept s.world) (hp : Local i s p) (h : Turned i s p u q) {id : Uuid} {row : CreditRequest}
    (hrow : s.world.creditRequests.find id = some row) :
    ∃ row', u.world.creditRequests.find id = some row' ∧ Later row row' ∧
      ∀ j ≠ i, s.lockedBy id = some j → row' = row ∧ u.lockedBy id = some j := by
  have hrelease : ∀ j ≠ i, s.lockedBy id = some j → (release s i).lockedBy id = some j := fun j hj hlock =>
    BalanceSessions.lockedBy_release_of_ne hj hlock
  cases h with
  | quiet hrows hlock =>
      refine ⟨row, hrows.requests ▸ hrow, .refl row, fun j hj hheld => ⟨rfl, ?_⟩⟩
      obtain hlock | hlock := hlock
      · rw [hlock, hheld]
      · rw [hlock]
        exact hrelease j hj hheld
  | @locked r _ hfree =>
      refine ⟨row, hrow, .refl row, fun j hj hheld => ⟨rfl, ?_⟩⟩
      have hne : id ≠ r.id := by
        rintro rfl
        rw [hheld] at hfree
        obtain hfree | hfree := hfree
        · cases hfree
        · exact hj (Option.some.inj hfree)
      exact (Function.update_of_ne hne _ _).trans hheld
  | @inserted draft =>
      have hne : id ≠ (newRequest s.world draft.userId draft.amount draft.reason draft.requestType).id := by
        rintro rfl
        rw [find_new hs draft] at hrow
        cases hrow
      exact ⟨row, (Table.find_insert_of_ne hne).trans hrow, .refl row, fun j hj hheld => ⟨rfl, hheld⟩⟩
  | entered | granted =>
      refine ⟨row, ?_, .refl row, fun j hj hheld => ⟨rfl, hrelease j hj hheld⟩⟩
      exact (congrArg (·.find id) (requests_flush _ _ _)).trans hrow
  | allowed => exact ⟨row, hrow, .refl row, fun j hj hheld => ⟨rfl, hrelease j hj hheld⟩⟩
  | @declined r w f hrows hholding hf =>
      obtain ⟨hmine, hfind, hopen⟩ := hp.holding r hholding
      by_cases hid : id = r.id
      · subst hid
        obtain rfl := Option.some.inj (hfind.symm.trans hrow)
        refine ⟨f r, find_rewrite_self (hrows.requests ▸ hfind), hf.later hopen, fun j hj hheld => ?_⟩
        exact absurd (Option.some.inj (hheld.symm.trans hmine)) hj
      · refine ⟨row, ?_, .refl row, fun j hj hheld => ⟨rfl, hrelease j hj hheld⟩⟩
        exact (find_rewrite_of_ne hid).trans (hrows.requests ▸ hrow)
  | @wrote r outcome hfree hp' =>
      subst hp'
      by_cases hid : id = r.id
      · subst hid
        have hopen := (hp.known r rfl).status
        refine ⟨_, find_rewrite_self hrow, approvedRow_later hopen, fun j hj hheld => ?_⟩
        rw [hheld] at hfree
        obtain hfree | hfree := hfree
        · cases hfree
        · exact absurd (Option.some.inj hfree) hj
      · exact ⟨row, (find_rewrite_of_ne hid).trans hrow, .refl row, fun j hj hheld => ⟨rfl, hrelease j hj hheld⟩⟩

theorem Settled.mono {w w' : World} {r : CreditRequest} (h : Settled w r)
    (hmem : ∀ t ∈ w.transactions, t ∈ w'.transactions) : Settled w' r where
  undecided := h.undecided
  allowance := h.allowance
  topUp hstatus htype := by
    obtain ⟨t, ht, hrest⟩ := h.topUp hstatus htype
    exact ⟨t, hmem t ht, hrest⟩

theorem Owed.mono {w w' : World} {r : CreditRequest} {outcome : Outcome} (h : Owed w r outcome)
    (hmem : ∀ t ∈ w.transactions, t ∈ w'.transactions) : Owed w' r outcome where
  allowance := h.allowance
  topUp htype := by
    obtain ⟨t, ht, hrest⟩ := h.topUp htype
    exact ⟨t, hmem t ht, hrest⟩

theorem Turned.ledger (h : Turned i s p u q) : ∀ t ∈ s.world.transactions, t ∈ u.world.transactions := by
  intro t ht
  cases h with
  | quiet hrows => exact hrows.transactions ▸ ht
  | locked | inserted | allowed | wrote => exact ht
  | entered | granted =>
      rw [show (release _ i).world = flush _ _ _ from rfl, BalanceSessions.transactions_flush]
      exact List.mem_append_left _ ht
  | declined hrows => exact hrows.transactions ▸ ht

theorem Declines.settled {w : World} {r : CreditRequest} {f : CreditRequest → CreditRequest} (hf : Declines f)
    (h : Settled w r) (hopen : isOpen r.status = true) : Settled w (f r) := by
  have hne : r.status ≠ .approved := by
    intro h
    rw [h] at hopen
    cases hopen
  have hne' : (f r).status ≠ .approved := by
    obtain hsame | hother := hf.status r
    · rwa [hsame]
    · exact hother
  obtain ⟨htransaction, hamount⟩ := hf.ungranted r
  refine ⟨fun _ => ?_, fun _ => ?_, fun hstatus => absurd hstatus hne'⟩
  · rw [htransaction, hamount]
    exact h.undecided hne
  · rw [htransaction]
    exact (h.undecided hne).1

theorem written_of_ne {α : Type} [DecidableEq α] {read new row : α} (h : new ≠ read) : written read new row = new := if_neg h

theorem settled_approvedRow {w : World} {r row : CreditRequest} {outcome : Outcome} {now : Instant} (hr : Known w r)
    (hsame : Same r row) (howed : Owed w r outcome) (h : Settled w row) : Settled w (approvedRow r outcome now row) := by
  obtain ⟨htransaction, hamount⟩ := hr.ungranted
  refine ⟨fun hne => absurd (status_approvedRow hr.status) hne, fun htype => ?_, fun _ htype => ?_⟩
  · have hnone := howed.allowance (hsame.requestType ▸ htype)
    rw [approvedRow, hnone, htransaction]
    exact h.allowance htype
  · obtain ⟨t, ht, hfor, huser, hid, hgranted⟩ := howed.topUp (hsame.requestType ▸ htype)
    refine ⟨t, ht, hsame.id ▸ hfor, huser.trans hsame.userId.symm, ?_, ?_⟩
    · have hne : outcome.transactionId ≠ r.transactionId := by
        rw [hid, htransaction]
        exact Option.some_ne_none _
      exact (written_of_ne hne).trans hid
    · have hne : some outcome.grantedAmount ≠ r.grantedAmount := by
        rw [hamount]
        exact Option.some_ne_none _
      exact (written_of_ne hne).trans (congrArg some hgranted)

theorem openOf_rewrite_le {w : World} {id : Uuid} {f : CreditRequest → CreditRequest} {hf : ∀ r, (f r).id = r.id}
    (hopen : ∀ r ∈ w.creditRequests.rows, r.id = id →
      (f r).userId = r.userId ∧ (isOpen (f r).status = true → isOpen r.status = true)) (userId : Uuid) :
    (openOf (rewrite w id f hf) userId).length ≤ (openOf w userId).length := by
  rw [openOf, openOf, rewrite, Table.modify, ← List.countP_eq_length_filter, ← List.countP_eq_length_filter, List.countP_map]
  refine List.countP_mono_left fun r hr h => ?_
  rw [Function.comp_apply] at h
  by_cases hid : r.id = id
  · rw [if_pos hid] at h
    obtain ⟨huser, hstatus⟩ := hopen r hr hid
    obtain ⟨hmine, hopened⟩ := of_decide_eq_true h
    exact decide_eq_true ⟨huser.symm.trans hmine, hstatus hopened⟩
  · rwa [if_neg hid] at h

theorem Kept.rewrite {w : World} {id : Uuid} {f : CreditRequest → CreditRequest} {hf : ∀ r, (f r).id = r.id} (hs : Kept w)
    (hsame : ∀ r ∈ w.creditRequests.rows, r.id = id → Same r (f r))
    (hopen : ∀ r ∈ w.creditRequests.rows, r.id = id → isOpen (f r).status = true → isOpen r.status = true)
    (hsettled : ∀ r ∈ w.creditRequests.rows, r.id = id → Settled w (f r)) : Kept (rewrite w id f hf) where
  numbered r' hr' := by
    obtain ⟨r, hr, rfl⟩ := mem_rewrite.mp hr'
    split
    · rw [hf]
      exact hs.numbered r hr
    · exact hs.numbered r hr
  oneOpen userId :=
    (openOf_rewrite_le (fun r hr hid => ⟨(hsame r hr hid).userId, hopen r hr hid⟩) userId).trans (hs.oneOpen userId)
  settled r' hr' := by
    obtain ⟨r, hr, rfl⟩ := mem_rewrite.mp hr'
    split
    next hid => exact (hsettled r hr hid).mono fun _ ht => ht
    · exact (hs.settled r hr).mono fun _ ht => ht
  ledger t ht id' hfor := by
    obtain ⟨r, hr, hid, htype, huser⟩ := hs.ledger t ht id' hfor
    refine ⟨_, mem_rewrite.mpr ⟨r, hr, rfl⟩, ?_⟩
    split
    next heq =>
      have hsame := hsame r hr heq
      exact ⟨hsame.id.trans hid, hsame.requestType.trans htype, hsame.userId.trans huser⟩
    · exact ⟨hid, htype, huser⟩

theorem SameRows.kept {w w' : World} (h : SameRows w w') (hs : Kept w) : Kept w' where
  numbered := by
    rw [h.requests, h.nextUuid]
    exact hs.numbered
  oneOpen userId := by
    rw [openOf, h.requests]
    exact hs.oneOpen userId
  settled := by
    rw [h.requests]
    exact fun r hr => (hs.settled r hr).mono fun t ht => h.transactions ▸ ht
  ledger := by
    rw [h.requests, h.transactions]
    exact hs.ledger

theorem Kept.flush {w : World} {user : User} {t : CreditTransaction} (hs : Kept w)
    (hfor : ∀ id, IsFor id t → ∃ r ∈ w.creditRequests.rows, r.id = id ∧ r.requestType = .topUp ∧ r.userId = t.userId) :
    Kept (flush w user t) where
  numbered := by
    rw [requests_flush, nextUuid_flush]
    exact fun r hr => (hs.numbered r hr).trans (Nat.lt_succ_self _)
  oneOpen userId := by
    rw [openOf, requests_flush]
    exact hs.oneOpen userId
  settled := by
    rw [requests_flush]
    refine fun r hr => (hs.settled r hr).mono fun t' ht' => ?_
    rw [BalanceSessions.transactions_flush]
    exact List.mem_append_left _ ht'
  ledger := by
    rw [requests_flush, BalanceSessions.transactions_flush]
    intro t' ht' id hid
    obtain ht' | ht' := List.mem_append.mp ht'
    · exact hs.ledger t' ht' id hid
    · obtain rfl := List.mem_singleton.mp ht'
      exact hfor id hid

theorem Kept.insert {w : World} (hs : Kept w) {draft : Draft} (hopen : openOf w draft.userId = []) :
    Kept (insertRequest w draft) := by
  have hrows : (insertRequest w draft).creditRequests.rows = w.creditRequests.rows ++
      [newRequest w draft.userId draft.amount draft.reason draft.requestType] := Table.rows_insert_of_new (find_new hs draft)
  constructor
  · intro r hr
    rw [hrows] at hr
    obtain hr | hr := List.mem_append.mp hr
    · exact (hs.numbered r hr).trans (Nat.lt_succ_self _)
    · obtain rfl := List.mem_singleton.mp hr
      exact Nat.lt_succ_self _
  · intro userId
    rw [openOf, hrows, List.filter_append, List.length_append]
    by_cases huser : draft.userId = userId
    · have hnone := huser ▸ hopen
      rw [openOf] at hnone
      rw [hnone]
      exact (Nat.zero_add _).trans_le (List.length_filter_le _ _)
    · have hother : (List.filter (fun r => decide (r.userId = userId ∧ isOpen r.status = true))
          [newRequest w draft.userId draft.amount draft.reason draft.requestType]) = [] := by
        rw [List.filter_cons_of_neg, List.filter_nil]
        exact fun h => huser (of_decide_eq_true h).1
      rw [hother]
      exact hs.oneOpen userId
  · intro r hr
    rw [hrows] at hr
    obtain hr | hr := List.mem_append.mp hr
    · exact (hs.settled r hr).mono fun _ ht => ht
    · obtain rfl := List.mem_singleton.mp hr
      exact ⟨fun _ => ⟨rfl, rfl⟩, fun _ => rfl, nofun⟩
  · intro t ht id hid
    obtain ⟨r, hr, hrest⟩ := hs.ledger t ht id hid
    rw [hrows]
    exact ⟨r, List.mem_append_left _ hr, hrest⟩

theorem Turned.kept (hs : Kept s.world) (hp : Local i s p) (h : Turned i s p u q) : Kept u.world := by
  cases h with
  | quiet hrows => exact hrows.kept hs
  | locked => exact hs
  | inserted hopen => exact hs.insert hopen
  | entered hfor => exact hs.flush fun id hid => absurd hid (hfor id)
  | @granted r user t outcome hread hgrants hfor huser =>
      refine hs.flush fun id hid => ?_
      obtain rfl := (hfor id).mp hid
      have htype := hp.grants _ hgrants r hread
      obtain hheld | hknown := hread
      · obtain ⟨-, hfind, -⟩ := hp.holding r hheld
        exact ⟨r, Table.mem_of_find hfind, rfl, htype, huser.symm⟩
      · obtain ⟨row, hfind, hsame⟩ := (hp.known r hknown).row
        exact ⟨row, Table.mem_of_find hfind, hsame.id, hsame.requestType.trans htype, hsame.userId.trans huser.symm⟩
  | @allowed r outcome users =>
      have hrows : SameRows s.world { s.world with users := users } := ⟨rfl, rfl, rfl⟩
      exact hrows.kept hs
  | @declined r w f hrows hholding hf =>
      obtain ⟨-, hfind, hopen⟩ := hp.holding r hholding
      have hw := hrows.kept hs
      have honly : ∀ row ∈ w.creditRequests.rows, row.id = r.id → row = r := fun row hrow hid =>
        Table.eq_of_mem_of_key hrow (Table.mem_of_find (hrows.requests ▸ hfind)) hid
      refine hw.rewrite (fun row hrow hid => ?_) (fun row hrow hid _ => ?_) fun row hrow hid => ?_
      · exact honly row hrow hid ▸ (hf.later hopen).same
      · exact honly row hrow hid ▸ hopen
      · obtain rfl := honly row hrow hid
        exact hf.settled (hw.settled row hrow) hopen
  | @wrote r outcome hfree hp' =>
      subst hp'
      have hknown := hp.known r rfl
      obtain ⟨own, hfind, hsame⟩ := hknown.row
      refine hs.rewrite (fun row _ _ => ⟨rfl, rfl, rfl, rfl, rfl, rfl⟩) (fun row _ _ hopen => ?_) fun row hrow hid => ?_
      · rw [status_approvedRow hknown.status] at hopen
        cases hopen
      · obtain rfl := Table.eq_of_mem_of_key hrow (Table.mem_of_find hfind) (hid.trans hsame.id.symm)
        exact settled_approvedRow hknown hsame (hp.owes _ rfl) (hs.settled row hrow)

theorem Known.later {w w' : World} {r : CreditRequest} (h : Known w r)
    (hrows : ∀ row, w.creditRequests.find r.id = some row → ∃ row', w'.creditRequests.find r.id = some row' ∧ Later row row') :
    Known w' r := by
  obtain ⟨row, hfind, hsame⟩ := h.row
  obtain ⟨row', hfind', hlater⟩ := hrows row hfind
  exact ⟨⟨row', hfind', hsame.trans hlater.same⟩, h.status, h.ungranted⟩

theorem Turned.local_other (hs : Kept s.world) (hp : Local i s p) (h : Turned i s p u q) {j : Nat} (hj : j ≠ i)
    {r : Phase} (hr : Local j s r) : Local j u r where
  holding c hc := by
    obtain ⟨hlock, hfind, hopen⟩ := hr.holding c hc
    obtain ⟨row', hfind', -, hother⟩ := h.rows hs hp hfind
    obtain ⟨rfl, hlock'⟩ := hother j hj hlock
    exact ⟨hlock', hfind', hopen⟩
  known c hc := (hr.known c hc).later fun row hrow => by
    obtain ⟨row', hfind', hlater, -⟩ := h.rows hs hp hrow
    exact ⟨row', hfind', hlater⟩
  grants := hr.grants
  owes e he := (hr.owes e he).mono h.ledger
  decided id hid := by
    obtain ⟨row, hfind, hstatus⟩ := hr.decided id hid
    obtain ⟨row', hfind', hlater, -⟩ := h.rows hs hp hfind
    refine ⟨row', hfind', ?_⟩
    obtain hsame | hopen | happroved := hlater.status
    · exact hsame.trans hstatus
    · rw [hstatus] at hopen
      cases hopen
    · exact happroved

theorem holding_ne {r : CreditRequest} (h : p.holding = some r) :
    p.known = none ∧ p.owes = none ∧ p.granted = none ∧ p.decided = none := by
  cases p <;> first | exact ⟨rfl, rfl, rfl, rfl⟩ | exact nomatch h

theorem Local.read (hs : Kept s.world) (hp : Local i s p) {r : CreditRequest} (h : r ∈ p.holding ∨ r ∈ p.known) :
    Known s.world r := by
  obtain hheld | hknown := h
  · obtain ⟨-, hfind, hopen⟩ := hp.holding r hheld
    have hne : r.status ≠ .approved := by
      intro h
      rw [h] at hopen
      cases hopen
    exact ⟨⟨r, hfind, .refl r⟩, hopen, (hs.settled r (Table.mem_of_find hfind)).undecided hne⟩
  · exact hp.known r hknown

theorem Turned.local_own (hs : Kept s.world) (hp : Local i s p) (h : Turned i s p u q) : Local i u q := by
  have hlater : ∀ r, Known s.world r → Known u.world r := fun r hr => hr.later fun row hrow => by
    obtain ⟨row', hfind', hlater, -⟩ := h.rows hs hp hrow
    exact ⟨row', hfind', hlater⟩
  have hledger := h.ledger
  cases h with
  | quiet hrows hlock hholding hknown hgrants howes hgranted hdecided =>
      refine ⟨fun r hr => ?_, fun r hr => hlater r (hp.known r (hknown r hr)), fun type htype r hr => ?_, fun e he => ?_,
        fun id hid => ?_⟩
      · rw [hholding] at hr
        cases hr
      · obtain hr | hr := hr
        · rw [hholding] at hr
          cases hr
        · exact hgrants type htype r hr
      · rw [howes] at he
        cases he
      · rw [hdecided] at hid
        obtain ⟨row, hfind, hstatus⟩ := hp.decided id hid
        exact ⟨row, hrows.requests ▸ hfind, hstatus⟩
  | @locked r _ hfree hfind hopen hholding hgrants =>
      obtain ⟨hknown, howes, -, hdecided⟩ := holding_ne hholding
      refine ⟨fun c hc => ?_, fun c hc => ?_, fun type htype c hc => ?_, fun e he => ?_, fun id hid => ?_⟩
      · obtain rfl := Option.some.inj (hholding.symm.trans hc)
        exact ⟨Function.update_self _ _ _, hfind, hopen⟩
      · rw [hknown] at hc
        cases hc
      · obtain hc | hc := hc
        · obtain rfl := Option.some.inj (hholding.symm.trans hc)
          exact hgrants type htype
        · rw [hknown] at hc
          cases hc
      · rw [howes] at he
        cases he
      · rw [hdecided] at hid
        cases hid
  | @inserted draft hopen =>
      refine ⟨fun _ h => (nomatch h), fun r hr => ?_, fun _ h => (nomatch h), fun _ h => (nomatch h), fun _ h => (nomatch h)⟩
      obtain rfl := Option.some.inj hr
      exact ⟨⟨_, Table.find_insert_self (find_new hs draft), .refl _⟩, rfl, rfl, rfl⟩
  | entered =>
      exact ⟨fun _ h => (nomatch h), fun _ h => (nomatch h), fun _ h => (nomatch h), fun _ h => (nomatch h), fun _ h => (nomatch h)⟩
  | @granted r user t outcome hread hgrants hfor huser htransaction hamount =>
      refine ⟨fun _ h => (nomatch h), fun c hc => ?_, fun _ h => (nomatch h), fun e he => ?_, fun _ h => (nomatch h)⟩
      · obtain rfl := Option.some.inj hc
        exact hlater _ (hp.read hs hread)
      · obtain rfl := Option.some.inj he
        refine ⟨fun htype => ?_, fun _ => ⟨t, ?_, (hfor _).mpr rfl, huser, htransaction, hamount⟩⟩
        · rw [hp.grants _ hgrants r hread] at htype
          cases htype
        · rw [show (release _ i).world = flush _ _ _ from rfl, BalanceSessions.transactions_flush]
          exact List.mem_append_right _ List.mem_cons_self
  | @allowed r outcome users hholding hgrants htransaction =>
      refine ⟨fun _ h => (nomatch h), fun c hc => ?_, fun _ h => (nomatch h), fun e he => ?_, fun _ h => (nomatch h)⟩
      · obtain rfl := Option.some.inj hc
        exact hlater _ (hp.read hs (.inl hholding))
      · obtain rfl := Option.some.inj he
        refine ⟨fun _ => htransaction, fun htype => ?_⟩
        rw [hp.grants _ hgrants r (.inl hholding)] at htype
        cases htype
  | declined =>
      exact ⟨fun _ h => (nomatch h), fun _ h => (nomatch h), fun _ h => (nomatch h), fun _ h => (nomatch h), fun _ h => (nomatch h)⟩
  | @wrote r outcome hfree hp' =>
      subst hp'
      refine ⟨fun _ h => (nomatch h), fun _ h => (nomatch h), fun _ h => (nomatch h), fun _ h => (nomatch h), fun id hid => ?_⟩
      obtain rfl := Option.some.inj hid
      obtain ⟨row, hfind, -⟩ := (hp.known r rfl).row
      exact ⟨_, find_rewrite_self hfind, status_approvedRow (hp.known r rfl).status⟩

theorem local_begin (i : Nat) (s : LockedWorld) (request : Request) : Local i s (.asked request) :=
  ⟨fun _ h => (nomatch h), fun _ h => (nomatch h), fun _ h => (nomatch h), fun _ h => (nomatch h), fun _ h => (nomatch h)⟩

theorem sound_started (w : World) : Sound (fun s : LockedWorld => Kept s.world) Local (started w) := by
  refine ⟨⟨fun _ h => (nomatch h), fun _ => Nat.zero_le 1, fun _ h => (nomatch h), fun _ h => (nomatch h)⟩, ?_⟩
  exact fun _ _ h => nomatch h

variable {answer : Answer}

theorem kept_timed (hs : Kept s.world) (now : Instant) : Kept (timed s now).world :=
  SameRows.kept (w := s.world) ⟨rfl, rfl, rfl⟩ hs

theorem local_timed (hp : Local i s p) (now : Instant) : Local i (timed s now) p where
  holding := hp.holding
  known r hr := (hp.known r hr).later fun row hrow => ⟨row, hrow, .refl row⟩
  grants := hp.grants
  owes e he := (hp.owes e he).mono fun _ ht => ht
  decided := hp.decided

theorem advance_own (hs : Kept s.world) (hp : Local i s p) (h : advance i s p answer = some (u, q)) :
    Kept u.world ∧ Local i u q := by
  obtain ⟨now, hturned⟩ := advance_turned h
  exact ⟨hturned.kept (kept_timed hs now) (local_timed hp now), hturned.local_own (kept_timed hs now) (local_timed hp now)⟩

theorem advance_other (hs : Kept s.world) (hp : Local i s p) (h : advance i s p answer = some (u, q)) {j : Nat} (hj : j ≠ i)
    {r : Phase} (hr : Local j s r) : Local j u r := by
  obtain ⟨now, hturned⟩ := advance_turned h
  exact hturned.local_other (kept_timed hs now) (local_timed hp now) hj (local_timed hr now)

theorem sound_step {x y : System LockedWorld Phase} {e : Event}
    (hx : Sound (fun s : LockedWorld => Kept s.world) Local x) (h : step .asked advance x e = some y) :
    Sound (fun s : LockedWorld => Kept s.world) Local y := by
  have hbefore : Before (fun _ _ => True) x e := by
    cases e with
    | call request => trivial
    | turn i answer => exact fun _ _ => trivial
  exact hx.step hbefore h (fun i s request _ => local_begin i s request)
    (fun _ _ _ _ _ _ hs hp _ h => advance_own hs hp h) fun _ _ _ _ _ _ _ _ hj hs hp hr h => advance_other hs hp h hj hr

/-- The approvals are those that calls have written, and every grant is one that a call has entered. -/
structure Accounts (s : System LockedWorld Phase) : Prop where
  approved : ∀ r ∈ s.shared.world.creditRequests.rows, r.status = .approved → ∃ p ∈ s.calls, p.decided = some r.id
  grants : ∀ id, s.shared.world.transactions.countP (IsFor id) = s.calls.countP fun p => p.granted = some id

theorem Turned.approved (hp : Local i s p) (h : Turned i s p u q) {r' : CreditRequest}
    (hr' : r' ∈ u.world.creditRequests.rows) (hstatus : r'.status = .approved) :
    (∃ r ∈ s.world.creditRequests.rows, r.id = r'.id ∧ r.status = .approved) ∨ q.decided = some r'.id := by
  cases h with
  | quiet hrows => exact .inl ⟨r', hrows.requests ▸ hr', rfl, hstatus⟩
  | locked | allowed => exact .inl ⟨r', hr', rfl, hstatus⟩
  | inserted =>
      obtain hold | rfl := Table.mem_or_eq_of_mem_insert hr'
      · exact .inl ⟨r', hold, rfl, hstatus⟩
      · cases hstatus
  | entered | granted =>
      rw [show (release _ i).world = flush _ _ _ from rfl, requests_flush] at hr'
      exact .inl ⟨r', hr', rfl, hstatus⟩
  | @declined c w f hrows hholding hf =>
      obtain ⟨r, hr, rfl⟩ := mem_rewrite.mp hr'
      rw [hrows.requests] at hr
      obtain ⟨-, hfind, hopen⟩ := hp.holding c hholding
      by_cases hid : r.id = c.id
      · obtain rfl := Table.eq_of_mem_of_key hr (Table.mem_of_find hfind) hid
        rw [if_pos rfl] at hstatus
        obtain hsame | hne := hf.status r
        · rw [← hsame, hstatus] at hopen
          cases hopen
        · exact absurd hstatus hne
      · rw [if_neg hid] at hstatus ⊢
        exact .inl ⟨r, hr, rfl, hstatus⟩
  | @wrote c outcome hfree hp' =>
      obtain ⟨r, hr, rfl⟩ := mem_rewrite.mp hr'
      by_cases hid : r.id = c.id
      · rw [if_pos hid]
        exact .inr (congrArg some hid.symm)
      · rw [if_neg hid] at hstatus ⊢
        exact .inl ⟨r, hr, rfl, hstatus⟩

theorem Turned.decided (h : Turned i s p u q) {id : Uuid} (hid : p.decided = some id) : q.decided = some id := by
  cases h with
  | quiet _ _ _ _ _ _ _ hdecided => exact hdecided.trans hid
  | wrote _ hp => rw [hp] at hid; cases hid
  | locked _ _ _ _ _ hp | inserted _ hp | entered _ hp | granted _ _ _ _ _ _ hp | allowed _ _ _ hp | declined _ _ _ _ hp =>
      rw [hp.2] at hid
      cases hid

theorem Turned.counted (h : Turned i s p u q) (id : Uuid) :
    u.world.transactions.countP (IsFor id) + (if p.granted = some id then 1 else 0) =
      s.world.transactions.countP (IsFor id) + if q.granted = some id then 1 else 0 := by
  cases h with
  | quiet hrows _ _ _ _ _ hgranted => rw [hrows.transactions, hgranted]
  | locked _ _ _ hholding _ hp =>
      rw [hp.1, (holding_ne hholding).2.2.1]
      rfl
  | inserted _ hp =>
      rw [hp.1]
      rfl
  | entered hfor hp =>
      rw [show (release _ i).world = flush _ _ _ from rfl, BalanceSessions.transactions_flush, List.countP_append, hp.1,
        List.countP_singleton, if_neg (by simpa using hfor id)]
      rfl
  | @granted r user t outcome _ _ hfor _ htransaction _ hp =>
      have hgranted : (Phase.writing r outcome).granted = some r.id := by
        rw [Phase.granted, htransaction]
        rfl
      rw [show (release _ i).world = flush _ _ _ from rfl, BalanceSessions.transactions_flush, List.countP_append, hp.1,
        hgranted, List.countP_singleton]
      by_cases hid : id = r.id
      · rw [if_pos (decide_eq_true ((hfor id).mpr hid)), if_neg nofun, if_pos (congrArg some hid.symm)]
      · rw [if_neg (by simpa [hfor] using hid), if_neg nofun, if_neg fun h => hid (Option.some.inj h).symm]
  | @allowed r outcome users _ _ htransaction hp =>
      have hgranted : (Phase.writing r outcome).granted = none := by
        rw [Phase.granted, htransaction]
        rfl
      rw [hp.1, hgranted]
      rfl
  | @declined c w f hrows _ hf _ hp =>
      have hledger : (rewrite w c.id f fun r => (hf.same r).1).transactions = s.world.transactions := hrows.transactions
      rw [show (release _ i).world = rewrite _ _ _ _ from rfl, hledger, hp.1]
      rfl
  | wrote _ hp =>
      rw [hp]
      rfl

theorem accounts_step {x y : System LockedWorld Phase} {e : Event}
    (hx : Sound (fun s : LockedWorld => Kept s.world) Local x) (haccounts : Accounts x)
    (h : step .asked advance x e = some y) : Accounts y := by
  cases e with
  | call request =>
      rw [step_call h]
      refine ⟨fun r hr hstatus => ?_, fun id => ?_⟩
      · obtain ⟨p, hp, hid⟩ := haccounts.approved r hr hstatus
        exact ⟨p, List.mem_append_left _ hp, hid⟩
      · rw [List.countP_append, List.countP_singleton]
        exact haccounts.grants id
  | turn i answer =>
      obtain ⟨p, q, u, hp, hq, rfl⟩ := step_turn h
      obtain ⟨now, hturned⟩ := advance_turned hq
      have hlocal := local_timed (hx.2 i p hp) now
      obtain ⟨before, after, hcalls, hset⟩ := exists_split hp
      have hmem : q ∈ x.calls.set i q := by
        rw [hset]
        exact List.mem_append_right _ List.mem_cons_self
      refine ⟨fun r' hr' hstatus => ?_, fun id => ?_⟩
      · obtain ⟨r, hr, hid, hbefore⟩ | hdecided := hturned.approved hlocal hr' hstatus
        · obtain ⟨c, hc, hdecided⟩ := haccounts.approved r hr hbefore
          rw [hid] at hdecided
          rw [hcalls, List.mem_append, List.mem_cons] at hc
          obtain hc | rfl | hc := hc
          · exact ⟨c, by rw [hset]; exact List.mem_append_left _ hc, hdecided⟩
          · exact ⟨q, hmem, hturned.decided hdecided⟩
          · exact ⟨c, by rw [hset]; exact List.mem_append_right _ (List.mem_cons_of_mem _ hc), hdecided⟩
        · exact ⟨q, hmem, hdecided⟩
      · have hledger := hturned.counted id
        have hset := countP_set hp q fun p => p.granted = some id
        have hbefore := haccounts.grants id
        have htimed : (timed x.shared now).world.transactions = x.shared.world.transactions := rfl
        rw [htimed] at hledger
        dsimp only
        omega

theorem accounts_run (w : World) (events : List Event) : AllStates (step .asked advance)
    (fun s => Sound (fun s : LockedWorld => Kept s.world) Local s ∧ Accounts s) (started w) events := by
  have hstart : Accounts (started w) := ⟨fun _ h => (nomatch h), fun _ => rfl⟩
  apply allStates_of_steps _ ⟨sound_started w, hstart⟩
  rintro s e t ⟨hs, haccounts⟩ ht
  exact ⟨sound_step hs ht, accounts_step hs haccounts ht⟩

/-- One open request at a time for a user, an approved top-up with the ledger entry that
it shows, and as many entries for a request as calls have granted it. -/
structure Consistent (s : System LockedWorld Phase) : Prop where
  oneOpen : ∀ userId, (openOf s.shared.world userId).length ≤ 1
  settled : ∀ r ∈ s.shared.world.creditRequests.rows, Settled s.shared.world r
  approved : ∀ r ∈ s.shared.world.creditRequests.rows,
    r.status = .approved ↔ ∃ p ∈ s.calls, p.decided = some r.id
  grants : ∀ id, s.shared.world.transactions.countP (IsFor id) = s.calls.countP fun p => p.granted = some id

/-- Every request is still there and what it was created as, and a decision stays
unless an approval overrides it. -/
def Forward (s t : System LockedWorld Phase) : Prop :=
  ∀ r ∈ s.shared.world.creditRequests.rows, ∃ r' ∈ t.shared.world.creditRequests.rows, Later r r'

theorem consistent_of_sound {x : System LockedWorld Phase} (hx : Sound (fun s : LockedWorld => Kept s.world) Local x)
    (haccounts : Accounts x) : Consistent x where
  oneOpen := hx.1.oneOpen
  settled := hx.1.settled
  approved r hr := by
    refine ⟨haccounts.approved r hr, fun ⟨p, hp, hdecided⟩ => ?_⟩
    obtain ⟨i, hi⟩ := List.getElem?_of_mem hp
    obtain ⟨row, hfind, hstatus⟩ := (hx.2 i p hi).decided r.id hdecided
    rw [Table.find_of_mem hr] at hfind
    obtain rfl := Option.some.inj hfind
    exact hstatus
  grants := haccounts.grants

theorem forward_step {x y : System LockedWorld Phase} {e : Event}
    (hx : Sound (fun s : LockedWorld => Kept s.world) Local x) (h : step .asked advance x e = some y) : Forward x y := by
  intro r hr
  cases e with
  | call request =>
      rw [step_call h]
      exact ⟨r, hr, .refl r⟩
  | turn i answer =>
      obtain ⟨p, q, u, hp, hq, rfl⟩ := step_turn h
      obtain ⟨now, hturned⟩ := advance_turned hq
      obtain ⟨r', hfind, hlater, -⟩ := hturned.rows (kept_timed hx.1 now) (local_timed (hx.2 i p hp) now) (Table.find_of_mem hr)
      exact ⟨r', Table.mem_of_find hfind, hlater⟩

/-- However the reviews of any reviewers, the requests and the messages of any
requesters interleave, and wherever they are cut off. -/
theorem reviews_consistent (w : World) (events : List Event) :
    AllStates (step .asked advance) Consistent (started w) events ∧
      AllSteps (step .asked advance) (fun s e => ∀ t, step .asked advance s e = some t → Forward s t) (started w) events := by
  have hrun := accounts_run w events
  refine ⟨hrun.mono fun s hs => consistent_of_sound hs.1 hs.2, ?_⟩
  exact allSteps_of_allStates (fun s e t hs _ u hu => forward_step hs.1 hu) hrun

def Phase.owing (p : Phase) : Option Uuid := p.owes.map fun e => e.1.id

/-- A decision finds the request open and no approval of it on its way, and no
call is cut off between what it grants and its approval. -/
def Uncontested (s : System LockedWorld Phase) : Event → Prop
  | .call _ => True
  | .turn i answer => ∀ p ∈ s.calls[i]?, (answer.fails → p.owing = none) ∧ ∀ r ∈ p.deciding,
      (∃ row ∈ s.shared.world.creditRequests.rows, row.id = r.id ∧ isOpen row.status) ∧ ∀ q ∈ s.calls, q.owing ≠ some r.id

instance (s : System LockedWorld Phase) (e : Event) : Decidable (Uncontested s e) :=
  match e with
  | .call _ => .isTrue trivial
  | .turn i answer => inferInstanceAs (Decidable (∀ p ∈ s.calls[i]?, (answer.fails → p.owing = none) ∧ ∀ r ∈ p.deciding,
      (∃ row ∈ s.shared.world.creditRequests.rows, row.id = r.id ∧ isOpen row.status) ∧ ∀ q ∈ s.calls, q.owing ≠ some r.id))

/-- With so many approvals on their way, what has been granted is what is
approved or about to be. -/
structure Balanced (owing : Uuid → Nat) (w : World) : Prop where
  decided : ∀ r ∈ w.creditRequests.rows, owing r.id + (if isOpen r.status then 0 else 1) ≤ 1
  grants : ∀ r ∈ w.creditRequests.rows, r.requestType = .topUp →
    w.transactions.countP (IsFor r.id) = owing r.id + if r.status = .approved then 1 else 0

theorem owing_of_turn (h : turn i s held p = some (u, q)) (hq : q.decided = none) : p.owing = none := by
  cases p with
  | writing r outcome =>
      rw [turn] at h
      split at h
      · cases h
        cases hq
      · cases h
  | _ => rfl

theorem decided_of_advance {answer : Answer} (h : advance i s p answer = some (u, q)) : p.decided = none := by
  cases p with
  | approved =>
      rw [advance] at h
      split at h <;> cases h
  | _ => rfl

theorem deciding_of_grants {r : CreditRequest} (h : p.grants ≠ none) (hr : r ∈ p.holding ∨ r ∈ p.known) :
    p.deciding = some r := by
  cases p with
  | autoGranting => exact hr.resolve_left nofun
  | toppingUp | allowing => exact hr.resolve_right nofun
  | _ => exact absurd rfl h

theorem SameRows.balanced {w w' : World} {owing owing' : Uuid → Nat} (h : SameRows w w') (hb : Balanced owing w)
    (howing : ∀ id, owing' id = owing id) : Balanced owing' w' where
  decided := by
    rw [h.requests]
    exact fun r hr => howing r.id ▸ hb.decided r hr
  grants := by
    rw [h.requests, h.transactions]
    exact fun r hr => howing r.id ▸ hb.grants r hr

theorem countP_flush (w : World) (user : User) (t : CreditTransaction) (id : Uuid) :
    (flush w user t).transactions.countP (IsFor id) = w.transactions.countP (IsFor id) + if IsFor id t then 1 else 0 := by
  rw [BalanceSessions.transactions_flush, List.countP_append, List.countP_singleton]
  simp only [decide_eq_true_eq]

theorem Balanced.flush {w : World} {owing owing' : Uuid → Nat} {user : User} {t : CreditTransaction} (hb : Balanced owing w)
    (hdecided : ∀ r ∈ w.creditRequests.rows, owing' r.id = owing r.id ∨ owing' r.id = 1 ∧ isOpen r.status = true)
    (hgrants : ∀ r ∈ w.creditRequests.rows, owing' r.id = owing r.id + if IsFor r.id t then 1 else 0) :
    Balanced owing' (flush w user t) where
  decided := by
    rw [requests_flush]
    intro r hr
    obtain hsame | ⟨hone, hopen⟩ := hdecided r hr
    · exact hsame ▸ hb.decided r hr
    · rw [hone, if_pos hopen]
  grants := by
    rw [requests_flush]
    intro r hr htype
    rw [countP_flush, hb.grants r hr htype, hgrants r hr]
    omega

theorem Balanced.insert {w : World} {owing : Uuid → Nat} (hb : Balanced owing w) (hs : Kept w) (draft : Draft)
    (hfresh : ∀ id, w.creditRequests.find id = none → owing id = 0) : Balanced owing (insertRequest w draft) := by
  have hnew := find_new hs draft
  constructor
  · intro r hr
    obtain hold | rfl := Table.mem_or_eq_of_mem_insert hr
    · exact hb.decided r hold
    · rw [hfresh _ hnew]
      exact Nat.zero_le 1
  · intro r hr htype
    obtain hold | rfl := Table.mem_or_eq_of_mem_insert hr
    · exact hb.grants r hold htype
    · rw [hfresh _ hnew, if_neg nofun, List.countP_eq_zero]
      intro t ht hfor
      obtain ⟨row, hrow, hid, -⟩ := hs.ledger t ht _ (of_decide_eq_true hfor)
      exact Table.find_eq_none_iff.mp hnew row hrow hid

theorem isOpen_ne {status : RequestStatus} (h : isOpen status = true) : status ≠ .approved := by
  rintro rfl
  cases h

/-- An uncontested turn grants what nothing has granted yet, declines what nothing
has granted, or writes the approval that its call owes. -/
theorem Turned.balanced (hs : Kept s.world) (hp : Local i s p) (h : Turned i s p u q) {owing owing' : Uuid → Nat}
    (hcount : ∀ id, owing' id + (if p.owing = some id then 1 else 0) = owing id + if q.owing = some id then 1 else 0)
    (hfresh : ∀ id, s.world.creditRequests.find id = none → owing id = 0) (hwrites : q.decided = none → p.owing = none)
    (hundecided : p.decided = none)
    (hdeciding : ∀ r ∈ p.deciding, (∃ row ∈ s.world.creditRequests.rows, row.id = r.id ∧ isOpen row.status) ∧ owing r.id = 0)
    (hb : Balanced owing s.world) : Balanced owing' u.world := by
  have hsame : p.owing = none → q.owing = none → ∀ id, owing' id = owing id := by
    intro hpo hqo id
    simpa only [hpo, hqo, reduceCtorEq, if_false, Nat.add_zero] using hcount id
  have hadd : ∀ r outcome, q = .writing r outcome → ∀ id, owing' id = owing id + if id = r.id then 1 else 0 := by
    rintro r outcome rfl id
    have hcount := hcount id
    rw [hwrites rfl, if_neg nofun, show (Phase.writing r outcome).owing = some r.id from rfl] at hcount
    rw [Nat.add_zero] at hcount
    simpa only [Option.some_inj, eq_comm] using hcount
  cases h with
  | quiet hrows _ _ _ _ howes _ hdecided =>
      refine hrows.balanced hb (hsame (hwrites (hdecided.trans hundecided)) ?_)
      rw [Phase.owing, howes]
      rfl
  | locked _ _ _ hholding =>
      obtain ⟨-, howes, -, hnone⟩ := holding_ne hholding
      refine SameRows.balanced ⟨rfl, rfl, rfl⟩ hb (hsame (hwrites hnone) ?_)
      rw [Phase.owing, howes]
      rfl
  | inserted =>
      have howing := hsame (hwrites rfl) rfl
      exact SameRows.balanced ⟨rfl, rfl, rfl⟩ (hb.insert hs _ hfresh) howing
  | entered hfor =>
      have howing := hsame (hwrites rfl) rfl
      refine hb.flush (fun r _ => .inl (howing r.id)) fun r _ => ?_
      rw [howing, if_neg (hfor r.id), Nat.add_zero]
  | @granted r user t outcome hread hgrants hfor =>
      have howing := hadd r outcome rfl
      obtain ⟨⟨row, hrow, hid, hopen⟩, hnone⟩ := hdeciding r (deciding_of_grants (hgrants ▸ nofun) hread)
      refine hb.flush (fun c hc => ?_) fun c _ => ?_
      · by_cases hcid : c.id = r.id
        · obtain rfl := Table.eq_of_mem_of_key hc hrow (hcid.trans hid.symm)
          refine .inr ⟨?_, hopen⟩
          rw [howing, hid, hnone, if_pos rfl]
        · left
          rw [howing, if_neg hcid, Nat.add_zero]
      · rw [howing]
        simp only [hfor]
  | @allowed r outcome users hholding hgrants =>
      have howing := hadd r outcome rfl
      obtain ⟨⟨row, hrow, hid, hopen⟩, hnone⟩ := hdeciding r (deciding_of_grants (hgrants ▸ nofun) (.inl hholding))
      obtain ⟨-, hfind, -⟩ := hp.holding r hholding
      constructor
      · intro c hc
        by_cases hcid : c.id = r.id
        · obtain rfl := Table.eq_of_mem_of_key hc hrow (hcid.trans hid.symm)
          rw [howing, hid, hnone, if_pos rfl, if_pos hopen]
        · rw [howing, if_neg hcid]
          exact hb.decided c hc
      · intro c hc htype
        have hcid : c.id ≠ r.id := by
          intro hcid
          obtain rfl := Table.eq_of_mem_of_key hc (Table.mem_of_find hfind) hcid
          rw [hp.grants _ hgrants c (.inl hholding)] at htype
          cases htype
        rw [howing, if_neg hcid]
        exact hb.grants c hc htype
  | @declined r w f hrows hholding hf hdecides =>
      obtain ⟨-, hfind, hopen⟩ := hp.holding r hholding
      have howing := hsame (hwrites rfl) rfl
      have hw := hrows.balanced hb howing
      constructor
      · intro c' hc'
        obtain ⟨c, hc, rfl⟩ := mem_rewrite.mp hc'
        split
        next hcid =>
          obtain rfl := Table.eq_of_mem_of_key hc (Table.mem_of_find (hrows.requests ▸ hfind)) hcid
          rw [(hf.same c).1]
          obtain hdecides | hkeeps := hdecides
          · rw [howing, (hdeciding c hdecides).2]
            split <;> decide
          · rw [if_pos (hkeeps c hopen)]
            have hbefore := hw.decided c hc
            rwa [if_pos hopen] at hbefore
        · exact hw.decided c hc
      · intro c' hc' htype
        obtain ⟨c, hc, rfl⟩ := mem_rewrite.mp hc'
        by_cases hcid : c.id = r.id
        · obtain rfl := Table.eq_of_mem_of_key hc (Table.mem_of_find (hrows.requests ▸ hfind)) hcid
          rw [if_pos rfl] at htype ⊢
          have hbefore := hw.grants c hc ((hf.same c).2.2.2.2.1.symm.trans htype)
          have hne : (f c).status ≠ .approved := by
            obtain hstatus | hne := hf.status c
            · exact hstatus ▸ isOpen_ne hopen
            · exact hne
          rw [if_neg (isOpen_ne hopen)] at hbefore
          rw [(hf.same c).1, if_neg hne]
          exact hbefore
        · rw [if_neg hcid] at htype ⊢
          exact hw.grants c hc htype
  | @wrote r outcome hfree hp' =>
      subst hp'
      have hless : ∀ id, owing' id + (if r.id = id then 1 else 0) = owing id := by
        intro id
        have hcount := hcount id
        rw [show (Phase.approved r.id outcome.transactionId).owing = none from rfl,
          show (Phase.writing r outcome).owing = some r.id from rfl] at hcount
        simpa only [Option.some_inj, reduceCtorEq, if_false, Nat.add_zero] using hcount
      have happroved : ∀ row, (approvedRow r outcome s.world.now row).status = .approved := fun row =>
        status_approvedRow (hp.known r rfl).status
      constructor
      · intro c' hc'
        obtain ⟨c, hc, rfl⟩ := mem_rewrite.mp hc'
        have hbefore := hb.decided c hc
        rw [← hless] at hbefore
        split
        next hcid =>
          rw [if_pos hcid.symm] at hbefore
          rw [happroved, show (approvedRow r outcome s.world.now c).id = c.id from rfl, if_neg (by decide)]
          omega
        next hcid =>
          rw [if_neg (Ne.symm hcid)] at hbefore
          exact hbefore
      · intro c' hc' htype
        obtain ⟨c, hc, rfl⟩ := mem_rewrite.mp hc'
        have hdecided := hb.decided c hc
        rw [← hless] at hdecided
        by_cases hcid : c.id = r.id
        · rw [if_pos hcid] at htype ⊢
          have hbefore := hb.grants c hc htype
          rw [← hless, if_pos hcid.symm] at hbefore
          rw [if_pos hcid.symm] at hdecided
          rw [happroved, show (approvedRow r outcome s.world.now c).id = c.id from rfl, if_pos rfl]
          have hopen : isOpen c.status = true := by
            by_contra hclosed
            rw [if_neg hclosed] at hdecided
            omega
          rw [if_neg (isOpen_ne hopen)] at hbefore
          exact hbefore
        · rw [if_neg hcid] at htype ⊢
          have hbefore := hb.grants c hc htype
          rw [← hless, if_neg (Ne.symm hcid)] at hbefore
          exact hbefore

theorem owing_known {id : Uuid} (h : p.owing = some id) : ∃ r ∈ p.known, r.id = id := by
  cases p with
  | writing r outcome => exact ⟨r, rfl, Option.some.inj h⟩
  | _ => cases h

def owingIn (s : System LockedWorld Phase) (id : Uuid) : Nat := s.calls.countP fun p => p.owing = some id

theorem balanced_step {x y : System LockedWorld Phase} {e : Event}
    (hx : Sound (fun s : LockedWorld => Kept s.world) Local x) (hb : Balanced (owingIn x) x.shared.world)
    (he : Uncontested x e) (h : step .asked advance x e = some y) : Balanced (owingIn y) y.shared.world := by
  cases e with
  | call request =>
      rw [step_call h]
      refine SameRows.balanced ⟨rfl, rfl, rfl⟩ hb fun id => ?_
      rw [owingIn, owingIn, List.countP_append]
      rfl
  | turn i answer =>
      obtain ⟨p, q, u, hp, hq, rfl⟩ := step_turn h
      obtain ⟨hfails, hdeciding⟩ := he p hp
      obtain ⟨now, hturned⟩ := advance_turned hq
      have hcount : ∀ id, owingIn ⟨u, x.calls.set i q⟩ id + (if p.owing = some id then 1 else 0) =
          owingIn x id + if q.owing = some id then 1 else 0 := fun id => countP_set hp q fun p => p.owing = some id
      have htimed : Balanced (owingIn x) (timed x.shared now).world :=
        SameRows.balanced (w := x.shared.world) ⟨rfl, rfl, rfl⟩ hb fun _ => rfl
      refine hturned.balanced (kept_timed hx.1 now) (local_timed (hx.2 i p hp) now) hcount (fun id hid => ?_) (fun hnone => ?_)
        (decided_of_advance hq) (fun r hr => ?_) htimed
      · refine List.countP_eq_zero.mpr fun c hc howing => ?_
        obtain ⟨j, hj⟩ := List.getElem?_of_mem hc
        obtain ⟨r, hr, rfl⟩ := owing_known (of_decide_eq_true howing)
        obtain ⟨row, hfind, -⟩ := ((hx.2 j c hj).known r hr).row
        rw [show (timed x.shared now).world.creditRequests = x.shared.world.creditRequests from rfl, hfind] at hid
        cases hid
      · rw [advance] at hq
        split at hq
        next hfail => exact hfails hfail
        · exact owing_of_turn hq hnone
      · obtain ⟨hopen, hothers⟩ := hdeciding r hr
        exact ⟨hopen, List.countP_eq_zero.mpr fun c hc => by simpa using hothers c hc⟩

/-- An approved request has been paid once, a declined one never, and an open one
once at most, when its approval is on its way. -/
structure PaidOnce (s : System LockedWorld Phase) : Prop where
  approved : ∀ r ∈ s.shared.world.creditRequests.rows, r.requestType = .topUp → r.status = .approved →
    s.shared.world.transactions.countP (IsFor r.id) = 1
  declined : ∀ r ∈ s.shared.world.creditRequests.rows, r.status = .rejected ∨ r.status = .cancelled →
    s.shared.world.transactions.countP (IsFor r.id) = 0
  pending : ∀ r ∈ s.shared.world.creditRequests.rows, isOpen r.status = true →
    s.shared.world.transactions.countP (IsFor r.id) ≤ 1

theorem paidOnce_of_balanced {s : System LockedWorld Phase} (hs : Kept s.shared.world)
    (hb : Balanced (owingIn s) s.shared.world) : PaidOnce s := by
  -- What is not asked for as a top-up is not paid from the ledger at all.
  have hallowance : ∀ r ∈ s.shared.world.creditRequests.rows, r.requestType = .allowance →
      s.shared.world.transactions.countP (IsFor r.id) = 0 := by
    intro r hr htype
    refine List.countP_eq_zero.mpr fun t ht hfor => ?_
    obtain ⟨row, hrow, hid, htop, -⟩ := hs.ledger t ht _ (of_decide_eq_true hfor)
    obtain rfl := Table.eq_of_mem_of_key hrow hr hid
    rw [htype] at htop
    cases htop
  constructor
  · intro r hr htype hstatus
    have hdecided := hb.decided r hr
    rw [hstatus, if_neg (by decide)] at hdecided
    rw [hb.grants r hr htype, if_pos hstatus]
    omega
  · intro r hr hstatus
    cases htype : r.requestType with
    | allowance => exact hallowance r hr htype
    | topUp =>
        have hdecided := hb.decided r hr
        rw [hb.grants r hr htype]
        obtain hstatus | hstatus := hstatus <;>
          (rw [hstatus, if_neg (by decide)] at hdecided; rw [hstatus, if_neg (by decide)]; omega)
  · intro r hr hopen
    cases htype : r.requestType with
    | allowance => exact (hallowance r hr htype).trans_le (Nat.zero_le 1)
    | topUp =>
        have hdecided := hb.decided r hr
        rw [hb.grants r hr htype, if_neg (isOpen_ne hopen)]
        omega

/-- Where no decision falls between what another call grants and its approval. -/
theorem reviews_paid_once (w : World) (events : List Event)
    (h : AllSteps (step .asked advance) Uncontested (started w) events) :
    AllStates (step .asked advance) PaidOnce (started w) events := by
  have hstart : Balanced (owingIn (started w)) (started w).shared.world := ⟨fun _ h => (nomatch h), fun _ h => (nomatch h)⟩
  have hrun : AllStates (step .asked advance) (fun s => Sound (fun s : LockedWorld => Kept s.world) Local s ∧
      Balanced (owingIn s) s.shared.world) (started w) events := by
    refine allStates_of_allSteps ?_ ⟨sound_started w, hstart⟩ h
    rintro s e t ⟨hs, hb⟩ he ht
    exact ⟨sound_step hs ht, balanced_step hs hb he ht⟩
  exact hrun.mono fun s hs => paidOnce_of_balanced hs.1.1 hs.2

def turns (i n : Nat) : List Event := .replicate n (.turn i ⟨0, none, false⟩)

def asking : List Event := .call (.create 1 10 "coursework" "top_up") :: turns 0 5

def reviewedOnce : List Event :=
  asking ++ .call (.approve 1000 2 none none none) :: turns 1 3 ++ .call (.reject 1000 3 none) :: turns 2 1

theorem reviews_paid_once_in_turn :
    AllStates (step .asked advance) PaidOnce (started BalanceSessions.adaWorld) reviewedOnce :=
  reviews_paid_once _ _ (by decide +kernel)

/-- The second reviewer locks the request after the grant's commit, before it is approved. -/
def reviewedTwice : List Event :=
  asking ++ .call (.approve 1000 2 none none none) :: turns 1 2 ++ .call (.approve 1000 3 none none none) :: turns 2 3 ++
    turns 1 1

example : (run (step .asked advance) (started BalanceSessions.adaWorld) reviewedTwice).map
    (fun s => s.shared.world.transactions.countP (IsFor 1000)) = some 2 := by decide +kernel

def perform : Request → Handler Unit
  | .create userId amount reason requestType => do let _ ← createRequest userId amount reason requestType
  | .approve requestId reviewerId reviewer amount note => CreditRequests.approve requestId reviewerId reviewer amount note
  | .reject requestId reviewerId note => CreditRequests.reject requestId reviewerId note
  | .cancel requestId userId => CreditRequests.cancel requestId userId
  | .addMessage requestId authorId isReviewer body isInternal =>
    CreditRequests.addMessage requestId authorId isReviewer body isInternal
  | .grant userId amount actorId reason => do let _ ← grantCredits userId amount (some actorId) reason "admin_panel" []

def afterAlone (n : Nat) (w : World) (p : Phase) : World := (alone advance ⟨w.now, none, false⟩ n ⟨w, fun _ => none⟩ p).1.world

theorem written_self {α : Type} [DecidableEq α] (read new : α) : written read new read = new := by
  rw [written]
  split
  next h => exact h.symm
  · rfl

def approvedAs (outcome : Outcome) (now : Instant) (r : CreditRequest) : CreditRequest :=
  { r with
    status := .approved, reviewedBy := outcome.reviewedBy, reviewedAt := some now,
    grantedAmount := some outcome.grantedAmount, transactionId := outcome.transactionId, reviewNote := outcome.note }

theorem approvedRow_self (r : CreditRequest) (outcome : Outcome) (now : Instant) :
    approvedRow r outcome now r = approvedAs outcome now r := by
  simp only [approvedRow, approvedAs, written_self]

theorem final_getOpenForUpdate_bind {α : Type} (w : World) (id : Uuid) (f : CreditRequest → Handler α) :
    final (getOpenForUpdate id >>= f) w =
      match w.creditRequests.find id with
      | none => w
      | some r => if isOpen r.status then final (f r) w else w := by
  rw [final_bind, getOpenForUpdate]
  simp only [EStateM.run_bind, EStateM.run_get]
  cases hfind : w.creditRequests.find id with
  | none => rfl
  | some r => by_cases hopen : isOpen r.status <;> simp [hopen]

theorem advance_timed (i : Nat) (w : World) (lockedBy : Uuid → Option Nat) (p : Phase) :
    advance i ⟨w, lockedBy⟩ p ⟨w.now, none, false⟩ = turn i ⟨w, lockedBy⟩ none p := rfl

theorem alone_closed (now : Instant) (n : Nat) (s : LockedWorld) :
    alone advance ⟨now, none, false⟩ n s .closed = (s, .closed) := alone_of_none rfl

theorem alone_refused (now : Instant) (n : Nat) (s : LockedWorld) (raise : Raise) :
    alone advance ⟨now, none, false⟩ n s (.refused raise) = (s, .refused raise) := alone_of_none rfl

def lockedFor (w : World) (id : Uuid) : LockedWorld := LockedWorld.lock ⟨w, fun _ => none⟩ id 0

theorem advance_locked (w : World) (id : Uuid) (p : Phase) :
    advance 0 (lockedFor w id) p ⟨w.now, none, false⟩ = turn 0 (lockedFor w id) none p := rfl

theorem locked_alone {n : Nat} {w : World} {request : Request} {id : Uuid} {next : CreditRequest → Phase}
    {f : CreditRequest → Handler Unit} (hask : ∀ s, ask 0 s request = lockOpen 0 s id next)
    (hnext : ∀ r, w.creditRequests.find id = some r → isOpen r.status = true →
      (alone advance ⟨w.now, none, false⟩ n (lockedFor w id) (next r)).1.world = final (f r) w) :
    afterAlone (n + 1) w (.asked request) = final (getOpenForUpdate id >>= f) w := by
  have hrefused : ∀ raise, (alone advance ⟨w.now, none, false⟩ n ⟨w, fun _ => none⟩ (.refused raise)).1.world = w :=
    fun raise => congrArg (·.1.world) (alone_refused w.now n ⟨w, fun _ => none⟩ raise)
  rw [afterAlone, alone, final_getOpenForUpdate_bind, advance_timed, turn, hask, lockOpen, if_pos (.inl rfl)]
  cases hfind : w.creditRequests.find id with
  | none => exact hrefused _
  | some r =>
      dsimp only
      by_cases hopen : isOpen r.status = true
      · rw [if_pos hopen, if_pos hopen]
        exact hnext r hfind hopen
      · rw [if_neg hopen, if_neg hopen]
        exact hrefused _

theorem reject_alone (n : Nat) (w : World) (requestId reviewerId : Uuid) (note : Option String) :
    afterAlone (n + 2) w (.asked (.reject requestId reviewerId note)) = final (CreditRequests.reject requestId reviewerId note) w := by
  refine locked_alone (fun _ => rfl) fun r hfind _ => ?_
  obtain rfl := Table.key_of_find hfind
  rw [alone, advance_locked, turn]
  dsimp only
  rw [alone_closed]
  rfl

theorem cancel_alone (n : Nat) (w : World) (requestId userId : Uuid) :
    afterAlone (n + 2) w (.asked (.cancel requestId userId)) = final (CreditRequests.cancel requestId userId) w := by
  refine locked_alone (fun _ => rfl) fun r hfind _ => ?_
  obtain rfl := Table.key_of_find hfind
  rw [alone, advance_locked, turn]
  by_cases huser : r.userId ≠ userId
  · rw [if_pos huser, if_pos huser]
    dsimp only
    rw [alone_refused]
    rfl
  · rw [if_neg huser, if_neg huser]
    dsimp only
    rw [alone_closed]
    rfl

theorem addMessage_alone (n : Nat) (w : World) (requestId authorId : Uuid) (isReviewer : Bool) (body : String) (isInternal : Bool) :
    afterAlone (n + 2) w (.asked (.addMessage requestId authorId isReviewer body isInternal)) =
      final (CreditRequests.addMessage requestId authorId isReviewer body isInternal) w := by
  by_cases hblank : isBlank body = true
  · rw [afterAlone, alone, advance_timed, turn, ask, if_pos hblank, CreditRequests.addMessage, if_pos hblank]
    dsimp only
    rw [alone_refused]
    rfl
  rw [CreditRequests.addMessage, if_neg hblank]
  refine locked_alone (fun s => if_neg hblank) fun r hfind _ => ?_
  obtain rfl := Table.key_of_find hfind
  rw [alone, advance_locked, turn]
  dsimp only
  by_cases hpost : ¬ decide (r.userId = authorId) = true ∧ ¬ isReviewer = true
  · rw [if_pos hpost, if_pos hpost]
    dsimp only
    rw [alone_refused]
    rfl
  rw [if_neg hpost, if_neg hpost]
  by_cases hnote : isInternal = true ∧ ¬ isReviewer = true
  · rw [if_pos hnote, if_pos hnote]
    dsimp only
    rw [alone_refused]
    rfl
  rw [if_neg hnote, if_neg hnote]
  dsimp only
  rw [alone_closed]
  cases isInternal with
  | true =>
      let message : CreditRequestMessage := ⟨r.id, authorId, body, true, w.now⟩
      refine congrArg (fun requests =>
        { w with requestMessages := w.requestMessages ++ [message], creditRequests := requests }) ?_
      exact Table.modify_self fun _ => rfl
  | false => rfl

theorem final_updateRequest_congr {w : World} {id : Uuid} {r : CreditRequest} {f g : CreditRequest → CreditRequest}
    {hf : ∀ r, (f r).id = r.id} {hg : ∀ r, (g r).id = r.id} (hfind : w.creditRequests.find id = some r) (h : f r = g r) :
    final (updateRequest id f hf) w = final (updateRequest id g hg) w :=
  congrArg (fun requests => { w with creditRequests := requests }) (Table.modify_eq_of_find hfind h)

/-- A session that holds no object for the user enters what the handler does. -/
theorem grant_alone (i : Nat) (w : World) (lockedBy : Uuid → Option Nat) (draft : TransactionDraft)
    (next : CreditTransaction → Phase) :
    (∃ raise, (createTransaction draft).run w = .error raise w ∧
      grant i ⟨w, lockedBy⟩ none draft next = (release ⟨w, lockedBy⟩ i, .refused raise)) ∨
    ∃ t, (createTransaction draft).run w = .ok t (post w t) ∧
      grant i ⟨w, lockedBy⟩ none draft next = (release ⟨post w t, lockedBy⟩ i, next t) := by
  cases huser : w.users draft.userId with
  | none =>
      refine .inl ⟨.http 404 ("User " ++ uuidText draft.userId ++ " not found"), ?_, ?_⟩
      · simp only [createTransaction, EStateM.run_bind, EStateM.run_get, huser]
        rfl
      · simp only [grant, entry, huser]
  | some user =>
      by_cases hneg : (transactionFor w user draft).balanceAfter < 0
      · refine .inl ⟨.http 400 ("Insufficient credits. Current: " ++ toString user.nukeBalance ++ ", Required: " ++
          toString draft.amount.natAbs), ?_, ?_⟩
        · simp only [createTransaction, EStateM.run_bind, EStateM.run_get, huser, hneg, if_true]
          rfl
        · simp only [grant, entry, huser, Option.getD_none, hneg, if_true]
      · refine .inr ⟨_, createTransaction_run draft huser (not_lt.mp hneg), ?_⟩
        have hpost := BalanceSessions.flush_eq_post (t := transactionFor w user draft) huser
        simp only [grant, entry, huser, Option.getD_none, hneg, if_false, hpost]

theorem writing_alone {w : World} {lockedBy : Uuid → Option Nat} {r : CreditRequest}
    (hfind : w.creditRequests.find r.id = some r) (hfree : lockedBy r.id = none) (outcome : Outcome) (n : Nat) :
    (alone advance ⟨w.now, none, false⟩ (n + 1) ⟨w, lockedBy⟩ (.writing r outcome)).1.world =
      final (updateRequest r.id (approvedAs outcome w.now)) w := by
  rw [alone, advance_timed, turn, if_pos (.inl hfree)]
  dsimp only
  rw [alone_of_none rfl]
  exact final_updateRequest_congr (f := approvedRow r outcome w.now) hfind (approvedRow_self r outcome w.now)

theorem unlocked_released (w w' : World) (id : Uuid) : (release ⟨w', (lockedFor w id).lockedBy⟩ 0).lockedBy id = none := by
  simp [release, lockedFor, LockedWorld.lock]

theorem updateUser_run_none {w : World} {userId : Uuid} {data : UserUpdate} {updatedBy : Option Permissions}
    (huser : w.users userId = none) :
    (updateUser userId data updatedBy).run w = .error (.http 404 "User not found") w := by
  simp only [updateUser, EStateM.run_bind, EStateM.run_get, huser]
  rfl

theorem updateUser_run {w : World} {userId : Uuid} {data : UserUpdate} {updatedBy : Option Permissions} {user : User}
    (huser : w.users userId = some user) :
    (updateUser userId data updatedBy).run w =
      match updateRefusal user data updatedBy with
      | some raise => .error raise w
      | none => .ok () { w with users := Function.update w.users userId (some (updatedUser user data updatedBy)) } := by
  simp only [updateUser, EStateM.run_bind, EStateM.run_get, huser]
  cases updateRefusal user data updatedBy <;> rfl

theorem granting_alone {α : Type} {w : World} {lockedBy : Uuid → Option Nat} {p : Phase} {r : CreditRequest}
    {draft : TransactionDraft} {outcome : CreditTransaction → Outcome} {f : CreditTransaction → Handler α} (n : Nat)
    (hfind : w.creditRequests.find r.id = some r) (hfree : ∀ w', (release ⟨w', lockedBy⟩ 0).lockedBy r.id = none)
    (hturn : turn 0 ⟨w, lockedBy⟩ none p = some (grant 0 ⟨w, lockedBy⟩ none draft fun t => .writing r (outcome t)))
    (hf : ∀ t, final (f t) (post w t) = final (updateRequest r.id (approvedAs (outcome t) w.now)) (post w t)) :
    (alone advance ⟨w.now, none, false⟩ (n + 2) ⟨w, lockedBy⟩ p).1.world = final (createTransaction draft >>= f) w := by
  rw [alone, advance_timed, hturn, final_bind]
  dsimp only
  obtain ⟨raise, hrun, hgrant⟩ | ⟨t, hrun, hgrant⟩ := grant_alone 0 w lockedBy draft fun t => .writing r (outcome t)
  · rw [hrun, hgrant]
    dsimp only
    rw [alone_refused]
    rfl
  · rw [hrun, hgrant]
    exact (writing_alone (w := post w t) hfind (hfree _) (outcome t) n).trans (hf t).symm

theorem approve_alone (n : Nat) (w : World) (requestId reviewerId : Uuid) (reviewer : Option Permissions)
    (amount : Option Int) (note : Option String) : afterAlone (n + 3) w (.asked (.approve requestId reviewerId reviewer amount note)) =
      final (CreditRequests.approve requestId reviewerId reviewer amount note) w := by
  refine locked_alone (fun _ => rfl) fun r hfind _ => ?_
  obtain rfl := Table.key_of_find hfind
  cases htype : r.requestType with
  | topUp =>
      have hf : ∀ t, final (do
          let now ← utcNow
          updateRequest r.id fun r => { r with
            status := .approved, reviewedBy := some reviewerId, reviewedAt := some now, grantedAmount := some t.amount,
            transactionId := some t.id, reviewNote := note }) (post w t) =
          final (updateRequest r.id (approvedAs ⟨some reviewerId, t.amount, some t.id, note⟩ w.now)) (post w t) := fun _ => rfl
      exact granting_alone n hfind (unlocked_released w · r.id) rfl hf
  | allowance =>
      cases reviewer with
      | none =>
          dsimp only
          rw [alone, advance_locked, turn]
          dsimp only
          rw [alone_refused]
          rfl
      | some permissions =>
          dsimp only
          rw [approveAllowance.eq_def, alone, advance_locked]
          dsimp only
          rw [final_bind]
          cases huser : w.users r.userId with
          | none =>
              have hnone : (lockedFor w r.id).world.users r.userId = none := huser
              simp only [turn, hnone, updateUser_run_none huser, alone_refused]
              rfl
          | some user =>
              have hsome : (lockedFor w r.id).world.users r.userId = some user := huser
              simp only [turn, hsome, updateUser_run huser]
              cases hrefusal : updateRefusal user ⟨none, some (amountOr amount r.amount)⟩ (some permissions) with
              | some raise =>
                  dsimp only
                  rw [alone_refused]
                  rfl
              | none =>
                  let users := Function.update w.users r.userId
                    (some (updatedUser user ⟨none, some (amountOr amount r.amount)⟩ (some permissions)))
                  exact writing_alone (w := { w with users := users }) hfind (unlocked_released w w r.id)
                    ⟨some reviewerId, amountOr amount r.amount, none, note⟩ n

/-- A request below the threshold is granted by the call that creates it. -/
theorem inserted_alone {w : World} {r : CreditRequest} (hfind : w.creditRequests.find r.id = some r) :
    (alone advance ⟨w.now, none, false⟩ 3 ⟨w, fun _ => none⟩ (.inserted r)).1.world =
      final (match r.requestType with
        | .topUp => do
          let _ ← tryAutoApprove r
          return r.id
        | .allowance => return r.id) w := by
  have hclosed : (alone advance ⟨w.now, none, false⟩ 2 ⟨w, fun _ => none⟩ .closed).1.world = w :=
    congrArg (·.1.world) (alone_closed w.now 2 ⟨w, fun _ => none⟩)
  rw [alone, advance_timed, turn]
  dsimp only
  cases htype : r.requestType with
  | allowance =>
      rw [if_pos (.inl rfl)]
      exact hclosed
  | topUp =>
      dsimp only
      rw [final_bind_pure, tryAutoApprove, final_get_bind]
      by_cases hthreshold : w.settings.creditsAutoApproveMax ≤ 0 ∨ r.amount > w.settings.creditsAutoApproveMax
      · rw [if_pos (.inr hthreshold), if_pos hthreshold]
        exact hclosed
      · have hauto : ¬ (RequestType.topUp = .allowance ∨ w.settings.creditsAutoApproveMax ≤ 0 ∨
            r.amount > w.settings.creditsAutoApproveMax) := by
          rintro (h | h)
          · cases h
          · exact hthreshold h
        rw [if_neg hauto, if_neg hthreshold]
        refine granting_alone 0 hfind (fun _ => rfl) rfl fun t => ?_
        rw [final_bind_pure]
        exact final_updateRequest_congr hfind rfl

theorem create_alone {w : World} (hfresh : w.creditRequests.find w.nextUuid = none) (userId : Uuid) (amount : Int) (reason requestType : String) :
    afterAlone 7 w (.asked (.create userId amount reason requestType)) =
      final (perform (.create userId amount reason requestType)) w := by
  have hrefused : ∀ n raise, (alone advance ⟨w.now, none, false⟩ n ⟨w, fun _ => none⟩ (.refused raise)).1.world = w :=
    fun n raise => congrArg (·.1.world) (alone_refused w.now n ⟨w, fun _ => none⟩ raise)
  rw [perform, final_bind_pure, createRequest, final_get_bind, createRefusal, afterAlone, alone, advance_timed, turn, ask]
  dsimp only
  by_cases hblocked : ((w.users userId).any fun user => hasActiveCreditRequestBlock user w.now) = true
  · rw [if_pos hblocked, if_pos hblocked]
    exact hrefused _ _
  rw [if_neg hblocked, if_neg hblocked]
  by_cases hamount : amount ≤ 0
  · rw [if_pos hamount, if_pos hamount]
    exact hrefused _ _
  rw [if_neg hamount, if_neg hamount]
  by_cases hblank : isBlank reason = true
  · rw [if_pos hblank, if_pos hblank]
    exact hrefused _ _
  rw [if_neg hblank, if_neg hblank]
  cases htype : parseRequestType requestType with
  | none => exact hrefused _ _
  | some parsed =>
      dsimp only
      rw [alone, advance_timed, turn]
      dsimp only
      cases hcooldown : cooldownRefusal w userId with
      | some raise => exact hrefused _ _
      | none =>
          dsimp only
          rw [alone, advance_timed, turn]
          dsimp only
          by_cases hopen : openOf w userId = []
          · rw [if_pos hopen, if_pos hopen]
            dsimp only
            rw [alone, advance_timed, turn]
            dsimp only
            rw [if_pos hopen]
            have hfind : (w.creditRequests.insert (newRequest w userId amount reason parsed)).find w.nextUuid =
                some (newRequest w userId amount reason parsed) := Table.find_insert_self hfresh
            exact inserted_alone (w := insertRequest w ⟨userId, amount, reason, parsed⟩) hfind
          · rw [if_neg hopen, if_neg hopen]
            exact hrefused _ _

theorem granted_alone (n : Nat) (w : World) (userId : Uuid) (amount : Int) (actorId : Uuid) (reason : String) :
    afterAlone (n + 1) w (.asked (.grant userId amount actorId reason)) =
      final (perform (.grant userId amount actorId reason)) w := by
  rw [perform, final_bind_pure, afterAlone, alone, advance_timed, turn, ask]
  obtain ⟨raise, hrun, hgrant⟩ | ⟨t, hrun, hgrant⟩ := grant_alone 0 w (fun _ => none)
    (grantDraft userId amount (some actorId) reason "admin_panel" []) fun _ => .closed
  · rw [hgrant]
    dsimp only
    rw [alone_refused]
    exact (final_of_error hrun).symm
  · rw [hgrant]
    dsimp only
    rw [alone_closed]
    exact (final_of_ok hrun).symm

/-- A call that no other comes between leaves what its handler leaves. -/
theorem review_alone (w : World) (hfresh : w.creditRequests.find w.nextUuid = none) (request : Request) :
    afterAlone 7 w (.asked request) = final (perform request) w := by
  cases request with
  | create userId amount reason requestType => exact create_alone hfresh userId amount reason requestType
  | approve requestId reviewerId reviewer amount note => exact approve_alone 4 w requestId reviewerId reviewer amount note
  | reject requestId reviewerId note => exact reject_alone 5 w requestId reviewerId note
  | cancel requestId userId => exact cancel_alone 5 w requestId userId
  | addMessage requestId authorId isReviewer body isInternal =>
      exact addMessage_alone 5 w requestId authorId isReviewer body isInternal
  | grant userId amount actorId reason => exact granted_alone 6 w userId amount actorId reason

theorem review_alone_first : afterAlone 7 BalanceSessions.adaWorld (.asked (.create 1 10 "coursework" "top_up")) =
    final (perform (.create 1 10 "coursework" "top_up")) BalanceSessions.adaWorld :=
  review_alone _ rfl _

end NukeLab.RequestReviews
