import NukeLab.Ledger
import NukeLab.Texts
import NukeLab.Users

namespace NukeLab.CreditRequests

open Tables Records State Texts Ledger Users

def isOpen (status : RequestStatus) : Bool := status = .pending || status = .needsInfo

def statusText : RequestStatus → String
  | .pending => "pending"
  | .needsInfo => "needs_info"
  | .approved => "approved"
  | .rejected => "rejected"
  | .cancelled => "cancelled"

def parseRequestType (text : String) : Option RequestType :=
  if text = "top_up" then some .topUp else if text = "allowance" then some .allowance else none

def hasActiveCreditRequestBlock (user : User) (now : Instant) : Bool :=
  user.creditRequestsBlocked && user.creditRequestsBlockedUntil.all fun till => till > now

def duplicateOpenDetail : String := "You already have an open credit request"

def latestRejection (w : World) (userId : Uuid) : Option Instant :=
  (w.creditRequests.rows.filterMap fun r =>
    if r.userId = userId ∧ r.status = .rejected then r.reviewedAt else none).max?

/-- A rejection not long ago keeps the user from asking again. -/
def cooldownRefusal (w : World) (userId : Uuid) : Option Raise :=
  let hours := w.settings.creditsRequestCooldownHours
  if hours ≤ 0 then none
  else
    match latestRejection w userId with
    | none => none
    | some reviewedAt =>
      let remaining := reviewedAt + hours * hour - w.now
      if remaining > 0 then
        some (.http 400 ("Your previous credit request was rejected recently. " ++
          "You can submit a new request in approximately " ++ toString (max 1 (remaining / hour + 1)) ++ " hour(s)."))
      else none

def openOf (w : World) (userId : Uuid) : List CreditRequest :=
  w.creditRequests.rows.filter fun r => r.userId = userId ∧ isOpen r.status

def createRefusal (w : World) (userId : Uuid) (amount : Int) (reason requestType : String) : Except Raise RequestType :=
  if (w.users userId).any fun user => hasActiveCreditRequestBlock user w.now then
    .error (.http 403 "Credit requests are disabled for your account")
  else if amount ≤ 0 then .error (.http 400 "Amount must be positive")
  else if isBlank reason then .error (.http 400 "Reason must not be empty")
  else
    match parseRequestType requestType with
    | none => .error (.http 400 ("Unknown request type: " ++ requestType))
    | some parsed =>
      match cooldownRefusal w userId with
      | some raise => .error raise
      | none => if openOf w userId = [] then .ok parsed else .error (.http 400 duplicateOpenDetail)

def newRequest (w : World) (userId : Uuid) (amount : Int) (reason : String) (requestType : RequestType) : CreditRequest where
  id := w.nextUuid
  userId := userId
  amount := amount
  reason := reason
  requestType := requestType
  status := .pending
  reviewedBy := none
  reviewNote := none
  grantedAmount := none
  transactionId := none
  createdAt := w.now
  reviewedAt := none

def updateRequest (id : Uuid) (f : CreditRequest → CreditRequest) (hf : ∀ r, (f r).id = r.id := by intro _; rfl) :
    Handler Unit :=
  modify fun w => { w with creditRequests := w.creditRequests.modify id f hf }

def tryAutoApprove (request : CreditRequest) : Handler Bool := do
  let w ← get
  let threshold := w.settings.creditsAutoApproveMax
  if threshold ≤ 0 ∨ request.amount > threshold then return false
  let transaction ← grantCredits request.userId request.amount none "Credit request auto-approved" "auto_approve"
    [("request_id", .uuid request.id)]
  updateRequest request.id fun r =>
    { r with
      status := .approved, reviewedBy := none, reviewedAt := some w.now, grantedAmount := some transaction.amount,
      transactionId := some transaction.id }
  return true

def createRequest (userId : Uuid) (amount : Int) (reason requestType : String) : Handler Uuid := do
  let w ← get
  match createRefusal w userId amount reason requestType with
  | .error raise => throw raise
  | .ok parsed =>
    let request := newRequest w userId amount reason parsed
    set { w with nextUuid := w.nextUuid + 1, creditRequests := w.creditRequests.insert request }
    match parsed with
    | .topUp =>
      let _ ← tryAutoApprove request
      return request.id
    | .allowance => return request.id

def getOpenForUpdate (requestId : Uuid) : Handler CreditRequest := do
  match (← get).creditRequests.find requestId with
  | none => throw (.http 404 ("Credit request " ++ uuidText requestId ++ " not found"))
  | some request =>
    if isOpen request.status then return request
    else throw (.http 400 ("Credit request is already " ++ statusText request.status))

def amountOr (amount : Option Int) (fallback : Int) : Int :=
  match amount with
  | some n => if n = 0 then fallback else n
  | none => fallback

def noteOr (note : Option String) (fallback : String) : String :=
  match note with
  | some text => if text = "" then fallback else text
  | none => fallback

def approveTopUp (request : CreditRequest) (reviewerId : Uuid) (amount : Option Int) (note : Option String) :
    Handler Unit := do
  let transaction ← grantCredits request.userId (amountOr amount request.amount) (some reviewerId)
    ("Credit request approved: " ++ noteOr note request.reason) "credit_request" [("request_id", .uuid request.id)]
  let now ← utcNow
  updateRequest request.id fun r =>
    { r with
      status := .approved, reviewedBy := some reviewerId, reviewedAt := some now,
      grantedAmount := some transaction.amount, transactionId := some transaction.id, reviewNote := note }

/-- The base allowance is set, and nothing is entered in the ledger. -/
def approveAllowance (request : CreditRequest) (reviewerId : Uuid) (reviewer : Option Permissions) (amount : Option Int)
    (note : Option String) : Handler Unit := do
  match reviewer with
  | none => throw (.http 404 ("Reviewer " ++ uuidText reviewerId ++ " not found"))
  | some permissions =>
    let newAllowance := amountOr amount request.amount
    updateUser request.userId ⟨none, some newAllowance⟩ (some permissions)
    let now ← utcNow
    updateRequest request.id fun r =>
      { r with
        status := .approved, reviewedBy := some reviewerId, reviewedAt := some now, grantedAmount := some newAllowance,
        transactionId := none, reviewNote := note }

def approve (requestId reviewerId : Uuid) (reviewer : Option Permissions) (amount : Option Int) (note : Option String) :
    Handler Unit := do
  let request ← getOpenForUpdate requestId
  match request.requestType with
  | .topUp => approveTopUp request reviewerId amount note
  | .allowance => approveAllowance request reviewerId reviewer amount note

def reject (requestId reviewerId : Uuid) (note : Option String) : Handler Unit := do
  let request ← getOpenForUpdate requestId
  let now ← utcNow
  updateRequest request.id fun r =>
    { r with status := .rejected, reviewedBy := some reviewerId, reviewedAt := some now, reviewNote := note }

def cancel (requestId userId : Uuid) : Handler Unit := do
  let request ← getOpenForUpdate requestId
  if request.userId ≠ userId then throw (.http 403 "Only the requester can cancel a credit request")
  let now ← utcNow
  updateRequest request.id fun r => { r with status := .cancelled, reviewedAt := some now }

/-- Whose turn it is goes by who posts, unless the note is internal. -/
def addMessage (requestId authorId : Uuid) (isReviewer : Bool) (body : String) (isInternal : Bool) : Handler Unit := do
  if isBlank body then throw (.http 400 "Message body must not be empty")
  let request ← getOpenForUpdate requestId
  let isRequester := decide (request.userId = authorId)
  if ¬ isRequester ∧ ¬ isReviewer then throw (.http 403 "You cannot post on this credit request")
  if isInternal ∧ ¬ isReviewer then throw (.http 403 "Internal notes require review permissions")
  let now ← utcNow
  modify fun w => { w with requestMessages := w.requestMessages ++ [⟨request.id, authorId, body, isInternal, now⟩] }
  if ¬ isInternal then
    updateRequest request.id fun r => { r with status := if isRequester then .pending else .needsInfo }

end NukeLab.CreditRequests
