import NukeLab.JsonTexts
import NukeLab.Sha256
import NukeLab.XfsQuota

namespace NukeLab.Webhooks

open JsonTexts Sha256
open XfsQuota (utf8)

def hexdigest (bytes : List Nat) : String :=
  String.ofList (bytes.flatMap fun b => [Nat.digitChar (b / 16 % 16), Nat.digitChar (b % 16)])

/-- `json.dumps` with its default arguments. -/
def default (j : Json) : List Char := dumps false true j

/-- `json.dumps` with the keys sorted and no blanks. -/
def canonical (j : Json) : List Char := dumps true false j

def encoded (cs : List Char) : List Nat := utf8 (String.ofList cs)

/-- The service's secret; an empty one counts as none. -/
def serviceSecret (secret : Option String) : String :=
  (secret.filter fun s => s ≠ "").getD "nukelab-webhook-secret"

def signPayload (secret : String) (payload : Json) : String := hexdigest (hmac (utf8 secret) (encoded (canonical payload)))

structure Request where
  url : String
  headers : List (String × String)
  body : List Nat

inductive Answer
  | status (code : Nat)
  | raised (text : String)

inductive Event
  | post (request : Request)
  | sleep (seconds : Nat)

inductive Result
  | success (statusCode attempt : Nat)
  | failure (error : Option String) (attempts : Nat)

def webhookPayload (event timestamp : String) (payload : List (String × Json)) : Json :=
  .object [("event", .text event), ("timestamp", .text timestamp), ("payload", .object payload)]

def requestOf (secret : Option String) (url event timestamp : String) (payload : List (String × Json)) : Request :=
  let payload := webhookPayload event timestamp payload
  ⟨url, [("Content-Type", "application/json"),
      ("X-Nukelab-Signature", "sha256=" ++ signPayload (serviceSecret secret) payload), ("X-Nukelab-Event", event)],
    encoded (default payload)⟩

def retried (request : Request) (maxRetries attempt : Nat) (later : List Event × Result) : List Event × Result :=
  (.post request :: ((if attempt + 1 < maxRetries then [.sleep (2 ^ attempt)] else []) ++ later.1), later.2)

def attempts (request : Request) (maxRetries : Nat) (answers : Nat → Answer) : Nat → Nat → Option String → List Event × Result
  | 0, _, lastError => ([], .failure lastError maxRetries)
  | remaining + 1, attempt, _ =>
    match answers attempt with
    | .status code =>
      if code < 400 then ([.post request], .success code (attempt + 1))
      else
        retried request maxRetries attempt
          (attempts request maxRetries answers remaining (attempt + 1) (some ("HTTP " ++ toString code)))
    | .raised text =>
      retried request maxRetries attempt (attempts request maxRetries answers remaining (attempt + 1) (some text))

def dispatch (secret : Option String) (url event timestamp : String) (payload : List (String × Json)) (maxRetries : Nat)
    (answers : Nat → Answer) : List Event × Result :=
  attempts (requestOf secret url event timestamp payload) maxRetries answers maxRetries 0 none

def signature (request : Request) : Option String := request.headers.lookup "X-Nukelab-Signature"

def RawVerifies (secret : String) (request : Request) : Prop :=
  signature request = some ("sha256=" ++ hexdigest (hmac (utf8 secret) request.body))

def reserialised (body : List Nat) : Option (List Nat) := (loads (body.map Char.ofNat)).map fun j => encoded (canonical j)

theorem encoded_ascii {cs : List Char} (h : ∀ c ∈ cs, c.toNat < 128) : encoded cs = cs.map Char.toNat := by
  have hone : ∀ c ∈ cs, (String.utf8EncodeChar c).map UInt8.toNat = [c.toNat] := by
    intro c hc
    have hlow := h c hc
    have hval : c.val.toNat ≤ 0x7f := Nat.le_of_lt_succ hlow
    simp only [String.utf8EncodeChar, if_pos hval, List.map_cons, List.map_nil, UInt8.toNat_ofNat']
    rw [Nat.mod_eq_of_lt (by omega)]
    rfl
  rw [encoded, utf8, String.toList_ofList, List.flatMap_congr hone, List.map_eq_flatMap]

theorem decoded_default (j : Json) : (encoded (default j)).map Char.ofNat = default j := by
  rw [default, encoded_ascii (dumps_ascii j), List.map_map]
  exact List.map_id'' (fun c => Char.ofNat_toNat c) _

theorem reserialised_default (j : Json) : reserialised (encoded (default j)) = some (encoded (canonical j)) := by
  rw [reserialised, decoded_default, default, loads_dumps, Option.map_some]

theorem canonical_ne_default {entries : List (String × Json)} (h : entries ≠ []) :
    encoded (canonical (.object entries)) ≠ encoded (default (.object entries)) := by
  intro hsame
  have hlength := congrArg List.length hsame
  rw [canonical, default, encoded_ascii (dumps_ascii _), encoded_ascii (dumps_ascii _), List.length_map, List.length_map] at hlength
  exact absurd hlength (compact_lt h).ne

theorem post_retried {request r : Request} {maxRetries attempt : Nat} {later : List Event × Result}
    (h : .post r ∈ (retried request maxRetries attempt later).1) : r = request ∨ .post r ∈ later.1 := by
  rw [retried] at h
  rcases List.mem_cons.mp h with hfirst | hrest
  · exact Or.inl (Event.post.inj hfirst)
  · rcases List.mem_append.mp hrest with hsleep | hlater
    · split at hsleep
      · cases List.mem_singleton.mp hsleep
      · cases hsleep
    · exact Or.inr hlater

theorem post_attempts {request r : Request} {maxRetries remaining attempt : Nat} {answers : Nat → Answer}
    {lastError : Option String} (h : .post r ∈ (attempts request maxRetries answers remaining attempt lastError).1) :
    r = request := by
  induction remaining generalizing attempt lastError with
  | zero => cases h
  | succ remaining ih =>
      rw [attempts] at h
      cases hanswer : answers attempt with
      | raised text =>
          rw [hanswer] at h
          exact (post_retried h).elim id fun hlater => ih hlater
      | status code =>
          rw [hanswer] at h
          dsimp only at h
          split at h
          · exact Event.post.inj (List.mem_singleton.mp h)
          · exact (post_retried h).elim id fun hlater => ih hlater

theorem signature_requestOf (secret : Option String) (url event timestamp : String) (payload : List (String × Json)) :
    signature (requestOf secret url event timestamp payload) =
      some ("sha256=" ++ signPayload (serviceSecret secret) (webhookPayload event timestamp payload)) := by
  have hother : ("X-Nukelab-Signature" == "Content-Type") = false := by decide
  rw [signature, requestOf, List.lookup_cons, hother]
  exact List.lookup_cons_self

/-- Every request is signed over the canonical text of what it carries, which is never
the text that it carries, and which can be had from it. -/
theorem canonical_signature (secret : Option String) (url event timestamp : String) (payload : List (String × Json))
    (maxRetries : Nat) (answers : Nat → Answer) :
    ∀ r, .post r ∈ (dispatch secret url event timestamp payload maxRetries answers).1 →
      ∃ signed, reserialised r.body = some signed ∧
        signature r = some ("sha256=" ++ hexdigest (hmac (utf8 (serviceSecret secret)) signed)) ∧ signed ≠ r.body := by
  intro r hr
  have hrequest : r = requestOf secret url event timestamp payload := post_attempts hr
  have hbody : r.body = encoded (default (webhookPayload event timestamp payload)) := by rw [hrequest, requestOf]
  refine ⟨encoded (canonical (webhookPayload event timestamp payload)), ?_, ?_, ?_⟩
  · rw [hbody, reserialised_default]
  · rw [hrequest, signature_requestOf, signPayload]
  · rw [hbody]
    exact canonical_ne_default (List.cons_ne_nil _ _)

theorem ping_signed : ∃ signed,
    reserialised (requestOf (some "s") "https://example.com" "ping" "2026-01-01T00:00:00" []).body = some signed ∧
      signature (requestOf (some "s") "https://example.com" "ping" "2026-01-01T00:00:00" []) =
        some ("sha256=" ++ hexdigest (hmac (utf8 (serviceSecret (some "s"))) signed)) ∧
      signed ≠ (requestOf (some "s") "https://example.com" "ping" "2026-01-01T00:00:00" []).body :=
  canonical_signature (some "s") "https://example.com" "ping" "2026-01-01T00:00:00" [] 1 (fun _ => .status 200)
    (requestOf (some "s") "https://example.com" "ping" "2026-01-01T00:00:00" []) (List.mem_singleton.mpr rfl)

/-- A receiver that goes by the bytes accepts a request just where the two texts collide. -/
theorem rawVerifies_iff (secret : Option String) (url event timestamp : String) (payload : List (String × Json)) :
    RawVerifies (serviceSecret secret) (requestOf secret url event timestamp payload) ↔
      signPayload (serviceSecret secret) (webhookPayload event timestamp payload) =
        hexdigest (hmac (utf8 (serviceSecret secret)) (encoded (default (webhookPayload event timestamp payload)))) := by
  rw [RawVerifies, signature_requestOf, Option.some.injEq, requestOf, String.append_right_inj]

/-- An event with no data, which a receiver that goes by the bytes refuses. -/
theorem raw_body_refused : ¬ ∀ secret url event timestamp payload maxRetries answers r,
    .post r ∈ (dispatch secret url event timestamp payload maxRetries answers).1 → RawVerifies (serviceSecret secret) r := by
  intro h
  have hrefused : ¬ RawVerifies "s" (requestOf (some "s") "https://example.com" "ping" "2026-01-01T00:00:00" []) := by
    rw [RawVerifies]
    decide +kernel
  exact hrefused (h (some "s") "https://example.com" "ping" "2026-01-01T00:00:00" [] 1 (fun _ => .status 200)
    (requestOf (some "s") "https://example.com" "ping" "2026-01-01T00:00:00" []) (List.mem_singleton.mpr rfl))

end NukeLab.Webhooks
