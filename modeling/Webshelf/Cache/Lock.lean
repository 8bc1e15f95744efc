import Webshelf.Lib.Threads
import Webshelf.Store.Redis

/-!
# The distributed lock

`services/lock.rs` over one Redis instance. A lock is a key that holds the UUID
of its acquisition until it expires; a release deletes it by a script that
compares the value first.
-/

namespace Webshelf

/-- The keys of one Redis instance, with the text they hold. -/
abbrev RedisKeys := Expiring String fun _ => String

namespace RedisKeys

/-- `SET key value NX EX seconds`; an expiry of 0 seconds is an error of the command. -/
def setNxEx (s : RedisKeys) (key value : String) (secs : Nat) (outcome : RedisOutcome) :
    RedisKeys × Except Unit Bool :=
  if !outcome.runs || secs == 0 then (s, .error ())
  else if (s.get key).isSome then (s, outcome.answer false (.error ()) ())
  else (s.put key value (some (seconds secs)), outcome.answer true (.error ()) ())

/-- `SAFE_RELEASE_SCRIPT` -/
def safeRelease (s : RedisKeys) (key value : String) : RedisKeys :=
  if s.get key = some value then s.del key else s

end RedisKeys

structure LockGuard where
  /-- `client.is_some()` -/
  client : Bool
  lockKey : String
  lockValue : String
  deriving DecidableEq

/-- What `take` leaves of a guard. -/
def LockGuard.taken : LockGuard := ⟨false, "", ""⟩

inductive LockPhase where
  /-- The attempt `try_acquire_with_retry` makes next. -/
  | set (attempt : Nat)
  | contended
  | failed
  /-- `acquire_lock` has returned `(true, lock_value)`. -/
  | locked
  /-- The script of a `release_lock` by the caller of `acquire_lock`. -/
  | unlock
  | held (guard : LockGuard)
  /-- The script of `LockGuard::release`, with the fields it has taken. -/
  | release (fields : LockGuard)
  | drop (guard : LockGuard)
  /-- The script of the task that `drop` has spawned. -/
  | spawned (fields : LockGuard)
  | gone
  deriving DecidableEq

/-- A call of `LockGuard::acquire` or of `acquire_lock`, and what becomes of the lock. -/
structure LockCall where
  lockKey : String
  /-- The UUID of the call. -/
  lockValue : String
  expirySeconds : Nat
  maxRetries : Nat
  /-- It is `LockGuard::acquire`. -/
  guarded : Bool
  phase : LockPhase
  /-- History: when the acquired lock expires. -/
  deadline : Option Time := none
  /-- History: a release script of this call has run. -/
  released : Bool := false

inductive LockInput where
  | redis (outcome : RedisOutcome)
  /-- The holder calls `release`, or `release_lock`. -/
  | release
  | drop
  /-- Whether `drop` runs on a tokio runtime. -/
  | runtime (present : Bool)

namespace LockCall

def guard (call : LockCall) : LockGuard := ⟨true, call.lockKey, call.lockValue⟩

/-- One step of the call: a command, or a choice of its caller. -/
def next (s : RedisKeys) (call : LockCall) (input : LockInput) : Option (RedisKeys × LockCall) :=
  match call.phase, input with
  | .set attempt, .redis outcome =>
    if attempt < call.maxRetries then
      match s.setNxEx call.lockKey call.lockValue call.expirySeconds outcome with
      | (a, .error ()) => some (a, { call with phase := .failed })
      | (a, .ok false) => some (a, { call with phase := .set (attempt + 1) })
      | (a, .ok true) => some (a, { call with
          phase := if call.guarded then .held call.guard else .locked
          deadline := some (s.clock + seconds call.expirySeconds) })
    else some (s, { call with phase := .contended })
  | .locked, .release => some (s, { call with phase := .unlock })
  | .unlock, .redis outcome =>
    some (if outcome.runs then s.safeRelease call.lockKey call.lockValue else s,
      { call with phase := .locked, released := call.released || outcome.runs })
  | .held guard, .release => some (s, { call with phase := .release guard })
  | .held guard, .drop => some (s, { call with phase := .drop guard })
  | .release fields, .redis outcome =>
    -- a failed release restores the fields of the guard before it is dropped
    some (if outcome.runs then s.safeRelease fields.lockKey fields.lockValue else s,
      { call with
        phase := .drop (if outcome == .done then .taken else fields)
        released := call.released || outcome.runs })
  | .drop guard, .runtime present =>
    some (s, { call with phase :=
      if guard.client && !guard.lockKey.isEmpty && present then .spawned guard else .gone })
  | .spawned fields, .redis outcome =>
    some (if outcome.runs then s.safeRelease fields.lockKey fields.lockValue else s,
      { call with phase := .gone, released := call.released || outcome.runs })
  | _, _ => none

end LockCall

/-- Any number of clients of the lock, while time goes on. -/
def lockService : Threads.Program RedisKeys LockCall LockInput Time where
  initial call := call.phase = .set 0 && call.deadline = none && !call.released
  next _ s call input := call.next s input
  surround s now := if s.clock ≤ now then some (s.tick now) else none

end Webshelf
