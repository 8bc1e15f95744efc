import Webshelf.Cache.Lock

/-!
# get_or_insert_with_lock

`services/cache.rs` on one key, one Redis command at a time. The value is
looked up, computed under the lock `cache:lock:{key}` and stored; who does not
get the lock polls the key. Without a connection a lookup finds nothing.
-/

namespace Webshelf

/-- `serde_json`: `to_string` and `from_str`. -/
structure Serde (T : Type) where
  toString : T → Option String
  fromStr : String → Option T

inductive CacheError where
  | redis
  | deserialization
  | fallbackFailed (message : String)
  deriving DecidableEq

def lockKey (key : String) : String := "cache:lock:" ++ key

def nullKey (key : String) : String := key ++ ":null"

/-- One Redis instance, and what has been computed for the key. -/
structure CacheKeys (T : Type) where
  redis : RedisKeys
  /-- History: what the computations came back with. -/
  computed : List (Except String T) := []
  /-- History: the call that has taken the lock last. -/
  lockedBy : Option Nat := none

/-- Where a call is. `rival` is history: the call that held the lock when this
call did not get it. -/
inductive InsertPhase (T : Type) where
  | get
  | existsNull
  | lock (attempt : Nat) (rival : Option Nat)
  /-- The double-check. -/
  | recheck
  | poll (i : Nat) (rival : Option Nat)
  /-- `f` is awaited, with or without the guard. -/
  | compute (guard : Bool)
  | set (guard : Bool) (val : T)
  /-- The call has returned; `spawned` if the drop of its guard is still to release the lock. -/
  | returned (spawned : Bool) (r : Except CacheError T)

structure InsertCall (T : Type) where
  ttlSecs : Nat
  lockExpirySecs : Nat
  maxRetries : Nat
  /-- The UUID of the lock. -/
  lockValue : String
  phase : InsertPhase T

inductive InsertInput (T : Type) where
  | redis (outcome : RedisOutcome)
  /-- The future comes back. -/
  | computed (r : Except String T)

variable {T : Type}

namespace RedisKeys

/-- `CacheService::get` -/
def getValue (serde : Serde T) (s : RedisKeys) (key : String) (outcome : RedisOutcome) :
    Except CacheError (Option T) :=
  match outcome.answer (s.get key) (.ok none) CacheError.redis with
  | .error e => .error e
  | .ok none => .ok none
  | .ok (some text) => match serde.fromStr text with
    | none => .error .deserialization
    | some val => .ok (some val)

/-- `SETEX key seconds value`; an expiry of 0 seconds is an error of the command. -/
def setEx (s : RedisKeys) (key : String) (secs : Nat) (text : String) (outcome : RedisOutcome) :
    RedisKeys :=
  if !outcome.runs || secs == 0 then s else s.put key text (some (seconds secs))

/-- `CacheService::set`; a failure is only logged. -/
def setValue (serde : Serde T) (s : RedisKeys) (key : String) (secs : Nat) (val : T)
    (outcome : RedisOutcome) : RedisKeys :=
  match serde.toString val with
  | none => s
  | some text => s.setEx key secs text outcome

end RedisKeys

/-- `if let Some(val) = self.get(key).await? { return Ok(val); }` -/
def InsertPhase.found (spawned : Bool) (miss : InsertPhase T) :
    Except CacheError (Option T) → InsertPhase T
  | .error e => .returned spawned (.error e)
  | .ok (some val) => .returned spawned (.ok val)
  | .ok none => miss

/-- The negative-cache marker. -/
def InsertPhase.marked : Except CacheError Bool → InsertPhase T
  | .error e => .returned false (.error e)
  | .ok true =>
    .returned false (.error (.fallbackFailed "Entity does not exist (negative cache)"))
  | .ok false => .lock 0 none

def InsertPhase.fallback (guard : Bool) : Except String T → InsertPhase T
  | .error e => .returned guard (.error (.fallbackFailed ("Fallback failed: " ++ e)))
  | .ok val => .set guard val

/-- Call `n` of `get_or_insert_with_lock`; `client` tells whether the service has one. -/
def getOrInsertWithLock (serde : Serde T) (client : Bool) (key : String) (n : Nat)
    (s : CacheKeys T) (call : InsertCall T) (input : InsertInput T) :
    Option (CacheKeys T × InsertCall T) :=
  match call.phase, input with
  | .get, .redis outcome =>
    some (s, { call with phase := .found false .existsNull (s.redis.getValue serde key outcome) })
  | .existsNull, .redis outcome =>
    let marked := (s.redis.get (nullKey key)).isSome
    some (s, { call with phase := .marked (outcome.answer marked (.ok false) .redis) })
  | .lock attempt rival, .redis outcome =>
    if !client then some (s, { call with phase := .poll 0 none })
    else if attempt < call.maxRetries then
      match s.redis.setNxEx (lockKey key) call.lockValue call.lockExpirySecs outcome with
      | (redis, .error ()) => some ({ s with redis }, { call with phase := .compute false })
      | (redis, .ok false) =>
        some ({ s with redis }, { call with phase := .lock (attempt + 1) s.lockedBy })
      | (redis, .ok true) =>
        some ({ s with redis, lockedBy := some n }, { call with phase := .recheck })
    else some (s, { call with phase := .poll 0 rival })
  | .recheck, .redis outcome =>
    let found := s.redis.getValue serde key outcome
    some (s, { call with phase := .found true (.compute true) found })
  | .poll i rival, .redis outcome =>
    if i < call.maxRetries then
      let found := s.redis.getValue serde key outcome
      some (s, { call with phase := .found false (.poll (i + 1) rival) found })
    else some (s, { call with phase := .compute false })
  | .compute guard, .computed r =>
    some ({ s with computed := s.computed ++ [r] }, { call with phase := .fallback guard r })
  | .set guard val, .redis outcome =>
    some ({ s with redis := s.redis.setValue serde key call.ttlSecs val outcome },
      { call with phase := .returned guard (.ok val) })
  | .returned true r, .redis outcome =>
    some (if outcome.runs then
        { s with redis := s.redis.safeRelease (lockKey key) call.lockValue }
      else s, { call with phase := .returned false r })
  | _, _ => none

/-- The steps a call has left at most. -/
def InsertPhase.left (maxRetries : Nat) : InsertPhase T → Nat
  | .get => 2 * maxRetries + 8
  | .existsNull => 2 * maxRetries + 7
  | .lock attempt _ => (maxRetries - attempt) + maxRetries + 6
  | .recheck => 4
  | .poll i _ => (maxRetries - i) + 4
  | .compute _ => 3
  | .set _ _ => 2
  | .returned true _ => 1
  | .returned false _ => 0

def InsertCall.left (call : InsertCall T) : Nat := call.phase.left call.maxRetries

section

variable {serde : Serde T} {client : Bool} {key : String} {n : Nat} {s a : CacheKeys T}
  {call q : InsertCall T} {input : InsertInput T}

theorem InsertPhase.left_returned {spawned : Bool} {r : Except CacheError T} {m : Nat} :
    (returned spawned r).left m ≤ 1 := by
  cases spawned
  · exact Nat.zero_le _
  · exact Nat.le_refl _

theorem InsertPhase.left_found {spawned : Bool} {miss : InsertPhase T}
    {r : Except CacheError (Option T)} {m k : Nat} (hk : 1 < k) (hmiss : miss.left m < k) :
    (found spawned miss r).left m < k := by
  cases r with
  | error => exact Nat.lt_of_le_of_lt left_returned hk
  | ok value =>
    cases value with
    | some val => exact Nat.lt_of_le_of_lt left_returned hk
    | none => exact hmiss

/-- A call returns after at most `2 * max_retries + 8` steps of its own. -/
theorem InsertCall.left_of_next
    (h : getOrInsertWithLock serde client key n s call input = some (a, q)) :
    q.left < call.left := by
  cases hphase : call.phase with
  | get | recheck =>
    cases input with
    | computed => simp [getOrInsertWithLock, hphase] at h
    | redis outcome =>
      simp only [getOrInsertWithLock, hphase] at h
      cases h
      simp only [left, hphase]
      exact InsertPhase.left_found (by simp [InsertPhase.left]) (by simp [InsertPhase.left])
  | existsNull =>
    cases input with
    | computed => simp [getOrInsertWithLock, hphase] at h
    | redis outcome =>
      simp only [getOrInsertWithLock, hphase] at h
      cases h
      simp only [left, hphase]
      cases outcome.answer (s.redis.get (nullKey key)).isSome (.ok false) CacheError.redis with
      | error => simp [InsertPhase.marked, InsertPhase.left]
      | ok marked =>
        cases marked
        · simp only [InsertPhase.marked, InsertPhase.left]
          omega
        · simp [InsertPhase.marked, InsertPhase.left]
  | lock attempt rival =>
    cases input with
    | computed => simp [getOrInsertWithLock, hphase] at h
    | redis outcome =>
      simp only [getOrInsertWithLock, hphase] at h
      split at h
      · cases h
        simp only [left, hphase, InsertPhase.left]
        omega
      · split at h
        · split at h <;> cases h <;> simp only [left, hphase, InsertPhase.left] <;> omega
        · cases h
          simp only [left, hphase, InsertPhase.left]
          omega
  | poll i rival =>
    cases input with
    | computed => simp [getOrInsertWithLock, hphase] at h
    | redis outcome =>
      simp only [getOrInsertWithLock, hphase] at h
      split at h
      · cases h
        simp only [left, hphase]
        refine InsertPhase.left_found (by simp [InsertPhase.left]) ?_
        simp only [InsertPhase.left]
        omega
      · cases h
        simp only [left, hphase, InsertPhase.left]
        omega
  | compute guard =>
    cases input with
    | redis => simp [getOrInsertWithLock, hphase] at h
    | computed r =>
      simp only [getOrInsertWithLock, hphase] at h
      cases h
      simp only [left, hphase]
      cases r with
      | error => exact Nat.lt_of_le_of_lt InsertPhase.left_returned (by simp [InsertPhase.left])
      | ok val => simp [InsertPhase.fallback, InsertPhase.left]
  | set guard val =>
    cases input with
    | computed => simp [getOrInsertWithLock, hphase] at h
    | redis outcome =>
      simp only [getOrInsertWithLock, hphase] at h
      cases h
      simp only [left, hphase]
      exact Nat.lt_of_le_of_lt InsertPhase.left_returned (by simp [InsertPhase.left])
  | returned spawned r =>
    cases spawned <;> cases input <;> simp [getOrInsertWithLock, hphase] at h
    obtain ⟨-, rfl⟩ := h
    simp [left, hphase, InsertPhase.left]

/-- A call that has not returned goes on, whatever its command answers. -/
theorem InsertCall.next_isSome (h : call.left ≠ 0) {outcome : RedisOutcome}
    {r : Except String T} :
    (getOrInsertWithLock serde client key n s call (.redis outcome)).isSome = true ∨
      (getOrInsertWithLock serde client key n s call (.computed r)).isSome = true := by
  cases hphase : call.phase with
  | compute guard => exact .inr (by simp [getOrInsertWithLock, hphase])
  | lock attempt rival =>
    refine .inl ?_
    simp only [getOrInsertWithLock, hphase]
    split
    · rfl
    · split
      · split <;> rfl
      · rfl
  | poll i rival =>
    refine .inl ?_
    simp only [getOrInsertWithLock, hphase]
    split <;> rfl
  | returned spawned r =>
    cases spawned with
    | true => exact .inl (by simp [getOrInsertWithLock, hphase])
    | false => exact absurd (by rw [left, hphase]; rfl) h
  | _ => exact .inl (by simp [getOrInsertWithLock, hphase])

theorem InsertCall.left_le : call.left ≤ 2 * call.maxRetries + 8 := by
  cases hphase : call.phase with
  | returned spawned r =>
    simp only [left, hphase]
    exact Nat.le_trans InsertPhase.left_returned (by omega)
  | _ =>
    simp only [left, hphase, InsertPhase.left]
    omega

end

/-- Any number of calls for one key, while time goes on. -/
def cacheService (serde : Serde T) (client : Bool) (key : String) :
    Threads.Program (CacheKeys T) (InsertCall T) (InsertInput T) Time where
  initial call := match call.phase with
    | .get => true
    | _ => false
  next n s call input := getOrInsertWithLock serde client key n s call input
  surround s now :=
    if s.redis.clock ≤ now then some { s with redis := s.redis.tick now } else none

end Webshelf
