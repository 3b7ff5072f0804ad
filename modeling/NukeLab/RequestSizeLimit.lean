import Mathlib.Algebra.GroupWithZero.Nat
import Mathlib.Algebra.Order.BigOperators.Group.List
import NukeLab.Texts

namespace NukeLab.RequestSizeLimit

abbrev Bytes := List UInt8

inductive Message
  | request (body : Bytes) (moreBody : Bool)
  | other (type : String)

def Message.bodyLength : Message → Nat
  | .request body _ => body.length
  | .other _ => 0

def bodyBytes (messages : List Message) : Nat := (messages.map Message.bodyLength).sum

structure Scope where
  type : String
  headers : List (Bytes × Bytes)

/-- `bytes.lower`. -/
def lower (b : UInt8) : UInt8 := if 65 ≤ b ∧ b ≤ 90 then b + 32 else b

/-- The bytes of `content-length`. -/
def contentLengthName : Bytes := [99, 111, 110, 116, 101, 110, 116, 45, 108, 101, 110, 103, 116, 104]

/-- `decode("ascii")`. -/
def decodeAscii (value : Bytes) : Option String :=
  if value.all fun b => b < 128 then some (String.ofList (value.map fun b => Char.ofNat b.toNat)) else none

/-- The first header of the name decides, also where its value is no number. -/
def getContentLength (scope : Scope) : Option Int :=
  (scope.headers.find? fun header => header.1.map lower = contentLengthName).bind fun header =>
    (decodeAscii header.2).bind IntTexts.int10

/-- What a call of `receive` comes to. -/
inductive Received
  | returned (message : Message)
  | bodyTooLarge (maxSize bytesReceived : Nat)

def Received.handed : Received → Option Message
  | .returned message => some message
  | .bodyTooLarge _ _ => none

variable (maxSize : Nat)

/-- The calls of the wrapped `receive`, one after the other, from the bytes counted so far. -/
def wrapReceive : Nat → List Message → List Received
  | _, [] => []
  | bytesReceived, .request body moreBody :: messages =>
    let bytesReceived := bytesReceived + body.length
    (if bytesReceived > maxSize then .bodyTooLarge maxSize bytesReceived else .returned (.request body moreBody)) ::
      wrapReceive bytesReceived messages
  | bytesReceived, .other type :: messages => .returned (.other type) :: wrapReceive bytesReceived messages

structure Rejection where
  status : Nat
  detail : String
  maxSize : Nat

def reject : Rejection where
  status := 413
  detail := "Request body too large. Maximum allowed is " ++ toString maxSize ++ " bytes."
  maxSize := maxSize

/-- What becomes of a request: it is refused, or the application is called, and
its calls of `receive` come to these. -/
inductive Outcome
  | rejected (rejection : Rejection)
  | called (received : List Received)

/-- The messages are those that the server delivers as the application calls for them. -/
def call (scope : Scope) (messages : List Message) : Outcome :=
  if scope.type ≠ "http" then .called (messages.map .returned)
  else
    match getContentLength scope with
    | some contentLength =>
      if contentLength > maxSize then .rejected (reject maxSize) else .called (messages.map .returned)
    | none => .called (wrapReceive maxSize 0 messages)

def Outcome.handed : Outcome → List Message
  | .rejected _ => []
  | .called received => received.filterMap Received.handed

/-- The server delivers no more than the first `Content-Length` says, where that is a number,
and nothing where it is a negative one. -/
def Delivers (scope : Scope) (messages : List Message) : Prop :=
  ∀ n, getContentLength scope = some n → (bodyBytes messages : Int) ≤ max n 0

section Wrapped

variable {maxSize} {scope : Scope} {messages : List Message} {n : Nat}

theorem handed_messages (messages : List Message) : (messages.map Received.returned).filterMap Received.handed = messages := by
  induction messages with
  | nil => rfl
  | cons m messages ih => simp only [List.map_cons, List.filterMap_cons, Received.handed, ih]

theorem handed_of_over (h : maxSize < n) : bodyBytes ((wrapReceive maxSize n messages).filterMap Received.handed) = 0 := by
  induction messages generalizing n with
  | nil => rfl
  | cons m messages ih =>
      cases m with
      | request body moreBody =>
          have hover : maxSize < n + body.length := by omega
          simp only [wrapReceive, gt_iff_lt, hover, if_true, List.filterMap_cons, Received.handed]
          exact ih hover
      | other type =>
          simp only [wrapReceive, List.filterMap_cons, Received.handed, bodyBytes, List.map_cons, List.sum_cons,
            Message.bodyLength, Nat.zero_add]
          exact ih h

theorem handed_le (h : n ≤ maxSize) :
    n + bodyBytes ((wrapReceive maxSize n messages).filterMap Received.handed) ≤ maxSize := by
  induction messages generalizing n with
  | nil => exact h
  | cons m messages ih =>
      cases m with
      | request body moreBody =>
          by_cases hover : maxSize < n + body.length
          · have hrest : bodyBytes ((wrapReceive maxSize (n + body.length) messages).filterMap Received.handed) = 0 :=
              handed_of_over hover
            simp only [wrapReceive, gt_iff_lt, hover, if_true, List.filterMap_cons, Received.handed]
            omega
          · have hrest := ih (Nat.not_lt.mp hover)
            simp only [wrapReceive, gt_iff_lt, hover, if_false, List.filterMap_cons, Received.handed, bodyBytes,
              List.map_cons, List.sum_cons, Message.bodyLength] at hrest ⊢
            omega
      | other type =>
          simp only [wrapReceive, List.filterMap_cons, Received.handed, bodyBytes, List.map_cons, List.sum_cons,
            Message.bodyLength, Nat.zero_add]
          exact ih h

theorem wrapReceive_within (h : n + bodyBytes messages ≤ maxSize) :
    wrapReceive maxSize n messages = messages.map Received.returned := by
  induction messages generalizing n with
  | nil => rfl
  | cons m messages ih =>
      have hsplit : bodyBytes (m :: messages) = m.bodyLength + bodyBytes messages := List.sum_cons
      cases m with
      | request body moreBody =>
          have hsame : Message.bodyLength (.request body moreBody) = body.length := rfl
          have hwithin : ¬ n + body.length > maxSize := by omega
          rw [wrapReceive, if_neg hwithin, ih (by omega), List.map_cons]
      | other type =>
          rw [wrapReceive, ih (by omega), List.map_cons]

end Wrapped

/-- No more than the limit reaches the application. A request that announces more
never calls it, and one that stays within the limit passes unchanged. -/
theorem size_limited (scope : Scope) (messages : List Message) (hhttp : scope.type = "http") :
    (Delivers scope messages → bodyBytes (call maxSize scope messages).handed ≤ maxSize) ∧
      ((∃ n, getContentLength scope = some n ∧ n > maxSize) → call maxSize scope messages = .rejected (reject maxSize)) ∧
      ((¬ ∃ n, getContentLength scope = some n ∧ n > maxSize) → bodyBytes messages ≤ maxSize →
        call maxSize scope messages = .called (messages.map .returned)) := by
  rw [call, if_neg (not_not.mpr hhttp)]
  cases hlength : getContentLength scope with
  | none =>
      refine ⟨fun _ => ?_, ?_, ?_⟩
      · have hle : 0 + bodyBytes ((wrapReceive maxSize 0 messages).filterMap Received.handed) ≤ maxSize :=
          handed_le (Nat.zero_le maxSize)
        rwa [Nat.zero_add] at hle
      · rintro ⟨n, hn, -⟩
        cases hn
      · intro _ hwithin
        exact congrArg Outcome.called (wrapReceive_within (by rwa [Nat.zero_add]))
  | some n =>
      by_cases hlarge : n > maxSize
      · dsimp only
        rw [if_pos hlarge]
        refine ⟨fun _ => Nat.zero_le maxSize, fun _ => rfl, fun hnone => absurd ⟨n, rfl, hlarge⟩ hnone⟩
      · dsimp only
        rw [if_neg hlarge]
        refine ⟨fun hserver => ?_, ?_, fun _ _ => rfl⟩
        · have hdelivered := hserver n hlength
          rw [Outcome.handed, handed_messages]
          omega
        · rintro ⟨m, hm, hmlarge⟩
          cases hm
          exact absurd hmlarge hlarge

/-- The request has one header, `Content-Length: 3`. -/
def announced : Scope :=
  ⟨"http", [([67, 111, 110, 116, 101, 110, 116, 45, 76, 101, 110, 103, 116, 104], [51])]⟩

/-- A chunked request whose second part goes beyond the limit, and two requests that announce
three bytes, of which the first may have them and the second is refused. -/
theorem chunked_limited :
    bodyBytes (call 3 ⟨"http", []⟩ [.request [1, 2] true, .request [3, 4] false]).handed ≤ 3 ∧
      bodyBytes (call 3 announced [.request [1, 2] true, .request [3] false]).handed ≤ 3 ∧
      call 2 announced [] = .rejected (reject 2) := by
  have hlength : getContentLength announced = some 3 := by decide +kernel
  refine ⟨(size_limited 3 ⟨"http", []⟩ _ rfl).1 ?_, (size_limited 3 announced _ rfl).1 ?_,
    (size_limited 2 announced [] rfl).2.1 ⟨3, hlength, by decide⟩⟩
  · intro n hn
    cases hn
  · intro n hn
    obtain rfl := Option.some.inj (hlength.symm.trans hn)
    decide

end NukeLab.RequestSizeLimit
