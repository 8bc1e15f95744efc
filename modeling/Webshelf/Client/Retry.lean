import Mathlib.Algebra.Group.Nat.Defs
import Mathlib.Data.Nat.Notation

/-!
# Sending a request

`send_and_parse` of client-api: a request is sent again after a network error,
a 5xx or a 429, at most `max_retries` times. The place of the loop between two
awaits is a state of `SendAndParse`; what the network answers is an input.
-/

namespace Webshelf

/-- `ClientError` of client-api. -/
inductive ClientError where
  | config (message : String)
  | network (message : String)
  | serverError (status : Nat) (body : String)
  | rateLimited (body : String)
  | deserialization (message : String)
  | other (status : Nat) (body : String)
  deriving DecidableEq

/-- What `reqwest::Error` tells about a request that failed. -/
structure ReqwestError where
  isTimeout : Bool := false
  isConnect : Bool := false
  isDecode : Bool := false
  message : String := ""
  deriving DecidableEq

namespace ClientError

def fromStatus (status : Nat) (body : String) : ClientError :=
  if status = 429 then .rateLimited body
  else if 500 ≤ status ∧ status ≤ 599 then .serverError status body
  else .other status body

def ofReqwest (e : ReqwestError) : ClientError :=
  if e.isTimeout then .network "Request timed out"
  else if e.isConnect then .network ("Connection failed: " ++ e.message)
  else if e.isDecode then .deserialization ("Failed to decode response: " ++ e.message)
  else .network e.message

/-- `should_retry`. -/
def shouldRetry : ClientError → Bool
  | network _ | serverError _ _ | rateLimited _ => true
  | _ => false

theorem shouldRetry_fromStatus {status : Nat} {body : String} :
    (fromStatus status body).shouldRetry = true ↔
      status = 429 ∨ 500 ≤ status ∧ status ≤ 599 := by
  unfold fromStatus
  split
  · simp [shouldRetry, *]
  · split <;> simp [shouldRetry, *]

end ClientError

/-- An answer, with what reading its body as text or as JSON gives. -/
structure Response (α : Type) where
  status : Nat
  canonicalReason : Option String
  text : Except ReqwestError String
  json : Except ReqwestError α

/-- `handle_response`. -/
def handleResponse {α : Type} (response : Response α) : Except ClientError α :=
  if 200 ≤ response.status ∧ response.status ≤ 299 then
    response.json.mapError .ofReqwest
  else
    let text := response.text.toOption.getD ""
    let defaultMsg := response.canonicalReason.getD "Unknown error"
    .error (.fromStatus response.status (if text.isEmpty then defaultMsg else text))

/-- The result of an attempt, from what `send().await` returns. -/
def attemptResult {α : Type} : Except ReqwestError (Response α) → Except ClientError α
  | .ok response => handleResponse response
  | .error e => .error (.ofReqwest e)

def maxBackoffShift : Nat := 2

/-- The delay before the `attempt`-th retry. -/
def delayMs (attempt : Nat) : Nat :=
  min (500 * 2 ^ min (attempt - 1) maxBackoffShift) (2 ^ 32 - 1)

/-- `send_and_parse` of a request whose body can be cloned, as every JSON body can. -/
inductive SendAndParse (α : Type) where
  | sleep (attempt : Nat) (ms : Nat)
  | send (attempt : Nat)
  | await (attempt : Nat)
  | done (r : Except ClientError α)

namespace SendAndParse

variable {α : Type} {maxRetries attempt n : Nat} {lastErr : Option ClientError}

/-- The head of the loop `for attempt in 0..=max_retries`. -/
def enter (maxRetries attempt : Nat) (lastErr : Option ClientError) : SendAndParse α :=
  if attempt ≤ maxRetries then
    if 0 < attempt then .sleep attempt (delayMs attempt) else .send attempt
  else .done (.error (lastErr.getD (.network "Request failed: all retries exhausted")))

/-- The rest of the loop body, once the attempt has a result. -/
def finish (maxRetries attempt : Nat) : Except ClientError α → SendAndParse α
  | .ok result => .done (.ok result)
  | .error e =>
    if e.shouldRetry ∧ attempt < maxRetries then enter maxRetries (attempt + 1) (some e)
    else .done (.error e)

/-- The loop has sent `n` requests. -/
def Sent (maxRetries n : Nat) : SendAndParse α → Prop
  | .sleep attempt _ | .send attempt => n = attempt ∧ attempt ≤ maxRetries
  | .await attempt => n = attempt + 1 ∧ attempt ≤ maxRetries
  | .done _ => n ≤ maxRetries + 1

theorem Sent.le {p : SendAndParse α} (h : p.Sent maxRetries n) : n ≤ maxRetries + 1 := by
  cases p with
  | sleep | send | await =>
    obtain ⟨hn, hle⟩ := h
    omega
  | done => exact h

theorem sent_enter (h : attempt ≤ maxRetries) :
    (enter maxRetries attempt lastErr : SendAndParse α).Sent maxRetries attempt := by
  unfold enter
  rw [if_pos h]
  split <;> exact ⟨rfl, h⟩

/-- The loop never runs past its last attempt. -/
theorem sent_finish {r : Except ClientError α} (h : attempt ≤ maxRetries) :
    (finish maxRetries attempt r).Sent maxRetries (attempt + 1) := by
  cases r with
  | ok => exact Nat.succ_le_succ h
  | error e =>
    simp only [finish]
    split
    · rename_i hretry
      exact sent_enter hretry.2
    · exact Nat.succ_le_succ h

end SendAndParse

end Webshelf
