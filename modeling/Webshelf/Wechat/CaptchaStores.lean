import Webshelf.Lib.Expiring
import Webshelf.Lib.Runs
import Mathlib.Algebra.Group.Int.Defs
import Mathlib.Algebra.Group.Nat.Defs
import Mathlib.Data.List.Basic

/-!
# The two captcha stores

`MemoryCaptchaStore` keeps captchas with their expiry in one map and failed attempts in another
one. `RedisCaptchaStore` keeps them under keys that expire, in one keyspace with the reverse
index. Here its commands have a connection and are answered. Times are in nanoseconds, and both
stores read one clock.
-/

namespace Webshelf

namespace CaptchaStore

def nanos (secs : Nat) : Int := secs * 1000000000

/-- `Duration::as_secs` -/
def asSecs (ttl : Nat) : Nat := ttl / 1000000000

/-- What the functions of the trait are called with; `ttl` is in nanoseconds. -/
inductive StoreOp
  | setCaptcha (key code openid : String) (ttl : Nat)
  | setCaptchaNx (key code openid : String) (ttl : Nat)
  | consumeCaptcha (key : String)
  | peekCaptcha (key : String)
  | incrFailedAttempts (key : String)
  | resetFailedAttempts (key : String)
  | deleteCaptcha (key : String)
  deriving DecidableEq

def StoreOp.key : StoreOp → String
  | setCaptcha key _ _ _ | setCaptchaNx key _ _ _ | consumeCaptcha key | peekCaptcha key
  | incrFailedAttempts key | resetFailedAttempts key | deleteCaptcha key => key

inductive StoreAnswer
  | done
  | stored (b : Bool)
  | captcha (c : Option (String × String))
  | attempts (n : Nat)
  | error
  deriving DecidableEq

/-! ### In memory -/

/-- Code, openid and expiry. -/
abbrev CaptchaEntry : Type := String × String × Option Int

structure MemoryCaptchaStore where
  captchas : String → Option CaptchaEntry := fun _ => none
  attempts : String → Option Nat := fun _ => none

/-- The last instant of `Instant`. -/
def instantMax : Int := nanos (2 ^ 63)

/-- `Instant::checked_add` -/
def checkedAdd (now : Int) (ttl : Nat) : Option Int :=
  if now + ttl ≤ instantMax then some (now + ttl) else none

/-- `Instant::now() > exp` -/
def pastExpiry (now : Int) (expiry : Option Int) : Bool := expiry.any (decide <| · < now)

namespace MemoryCaptchaStore

def insert (m : MemoryCaptchaStore) (now : Int) (key code openid : String) (ttl : Nat) :
    MemoryCaptchaStore where
  captchas := Function.update m.captchas key (some (code, openid, checkedAdd now ttl))
  attempts := Function.update m.attempts key (some 0)

def remove (m : MemoryCaptchaStore) (key : String) : MemoryCaptchaStore :=
  { m with captchas := Function.update m.captchas key none }

def removeAttempts (m : MemoryCaptchaStore) (key : String) : MemoryCaptchaStore :=
  { m with attempts := Function.update m.attempts key none }

def setCaptchaNx (m : MemoryCaptchaStore) (now : Int) (key code openid : String) (ttl : Nat) :
    MemoryCaptchaStore × Bool :=
  if (m.captchas key).isSome then (m, false) else (m.insert now key code openid ttl, true)

def consumeCaptcha (m : MemoryCaptchaStore) (now : Int) (key : String) :
    MemoryCaptchaStore × Option (String × String) :=
  match m.captchas key with
  | none => (m, none)
  | some (code, openid, expiry) =>
    if pastExpiry now expiry then ((m.remove key).removeAttempts key, none)
    else (m.remove key, some (code, openid))

def peekCaptcha (m : MemoryCaptchaStore) (now : Int) (key : String) : Option (String × String) :=
  match m.captchas key with
  | none => none
  | some (code, openid, expiry) => if pastExpiry now expiry then none else some (code, openid)

/-- The counter is a `u32`. -/
def incrFailedAttempts (m : MemoryCaptchaStore) (key : String) : MemoryCaptchaStore × Nat :=
  let count := ((m.attempts key).getD 0 + 1) % 2 ^ 32
  ({ m with attempts := Function.update m.attempts key (some count) }, count)

def resetFailedAttempts (m : MemoryCaptchaStore) (key : String) : MemoryCaptchaStore :=
  { m with attempts := Function.update m.attempts key (some 0) }

def deleteCaptcha (m : MemoryCaptchaStore) (key : String) : MemoryCaptchaStore :=
  (m.remove key).removeAttempts key

def call (m : MemoryCaptchaStore) (now : Int) : StoreOp → MemoryCaptchaStore × StoreAnswer
  | .setCaptcha key code openid ttl => (m.insert now key code openid ttl, .done)
  | .setCaptchaNx key code openid ttl => (m.setCaptchaNx now key code openid ttl).map id .stored
  | .consumeCaptcha key => (m.consumeCaptcha now key).map id .captcha
  | .peekCaptcha key => (m, .captcha (m.peekCaptcha now key))
  | .incrFailedAttempts key => (m.incrFailedAttempts key).map id .attempts
  | .resetFailedAttempts key => (m.resetFailedAttempts key, .done)
  | .deleteCaptcha key => (m.deleteCaptcha key, .done)

end MemoryCaptchaStore

/-! ### In Redis -/

inductive RedisValue
  | text (s : String)
  /-- What INCR has written. -/
  | counter (n : Int)
  deriving DecidableEq

def RedisValue.toText : RedisValue → String
  | .text s => s
  | .counter n => toString n

/-- A value that INCR accepts is an integer in its one spelling. -/
def RedisValue.toCounter : RedisValue → Option Int
  | .text s => s.toInt?.filter fun n => toString n == s
  | .counter n => some n

abbrev RedisKeyspace : Type := Expiring String fun _ => RedisValue

def attemptsKey (key : String) : String := key ++ ":attempts"

def codeIndexKey (account code : String) : String := "wechat:" ++ account ++ ":code:" ++ code

/-- `"{code}:{openid}"` -/
def captchaValue (code openid : String) : String := code ++ ":" ++ openid

/-- `splitn(2, ':')`, if there are two parts. -/
def splitColon (stored : String) : Option (String × String) :=
  match stored.toList.dropWhile (· != ':') with
  | [] => none
  | _ :: openid =>
    some (String.ofList (stored.toList.takeWhile (· != ':')), String.ofList openid)

/-- What stands in front of the first occurrence of `s`. -/
def before (s : List Char) : List Char → Option (List Char)
  | [] => none
  | c :: rest => if s.isPrefixOf (c :: rest) then some [] else (before s rest).map (c :: ·)

/-- The reverse-index key that the script derives from the key of the captcha. -/
def derivedIndexKey (key code : String) : Option String :=
  (before ":captcha:".toList key.toList).map fun p => String.ofList p ++ ":code:" ++ code

namespace RedisKeyspace

/-- An expiry must be positive, and a deadline in milliseconds fit into 64 bits. -/
def expires (r : RedisKeyspace) (secs : Nat) : Bool :=
  secs ≠ 0 && r.clock + nanos secs < 2 ^ 63 * 1000000

/-- `SETEX`, and `SET` with `EX`. -/
def setEx (r : RedisKeyspace) (key value : String) (secs : Nat) : Option RedisKeyspace :=
  if r.expires secs then some (r.put key (.text value) (some (nanos secs))) else none

/-- `SET` with `NX` and `EX`. -/
def setNxEx (r : RedisKeyspace) (key value : String) (secs : Nat) :
    Option (RedisKeyspace × Bool) :=
  if r.expires secs then
    if (r.get key).isSome then some (r, false)
    else some (r.put key (.text value) (some (nanos secs)), true)
  else none

def getText (r : RedisKeyspace) (key : String) : Option String := (r.get key).map RedisValue.toText

/-- `incr`; what INCR answers must fit into a `u32`. -/
def incr (r : RedisKeyspace) (key : String) : RedisKeyspace × Option Nat :=
  match ((r.get key).getD (.counter 0)).toCounter with
  | none => (r, none)
  | some n =>
    let r := r.alter key fun _ => .counter (n + 1)
    if 0 ≤ n + 1 ∧ n + 1 < 2 ^ 32 then (r.expire key (nanos 600), some (n + 1).toNat)
    else (r, none)

/-- `CONSUME_CAPTCHA_SCRIPT` -/
def consumeScript (r : RedisKeyspace) (key : String) : RedisKeyspace × Option String :=
  match r.getText key with
  | none => (r, none)
  | some val =>
    let r := (r.del key).del (attemptsKey key)
    let r := match (splitColon val).bind fun (code, _) => derivedIndexKey key code with
      | none => r
      | some indexKey => r.del indexKey
    (r, some val)

end RedisKeyspace

/-- The keyspace is that of the Redis, the account the store's own. -/
structure RedisCaptchaStore where
  accountId : String
  keys : RedisKeyspace

namespace RedisCaptchaStore

def setCaptcha (r : RedisCaptchaStore) (key code openid : String) (ttl : Nat) :
    RedisCaptchaStore × StoreAnswer :=
  match r.keys.setEx key (captchaValue code openid) (asSecs ttl) with
  | none => (r, .error)
  | some keys =>
    match RedisKeyspace.setEx keys (codeIndexKey r.accountId code) openid (asSecs ttl) with
    | none => ({ r with keys := keys }, .error)
    | some keys => ({ r with keys := keys.del (attemptsKey key) }, .done)

def setCaptchaNx (r : RedisCaptchaStore) (key code openid : String) (ttl : Nat) :
    RedisCaptchaStore × StoreAnswer :=
  match r.keys.setNxEx key (captchaValue code openid) (asSecs ttl) with
  | none => (r, .error)
  | some (_, false) => (r, .stored false)
  | some (keys, true) =>
    -- an error of the index entry is only logged
    let keys := (RedisKeyspace.setEx keys (codeIndexKey r.accountId code) openid
      (asSecs ttl)).getD keys
    ({ r with keys := keys.del (attemptsKey key) }, .stored true)

def consumeCaptcha (r : RedisCaptchaStore) (key : String) :
    RedisCaptchaStore × Option (String × String) :=
  let (keys, val) := r.keys.consumeScript key
  ({ r with keys := keys }, val.bind splitColon)

def peekCaptcha (r : RedisCaptchaStore) (key : String) : Option (String × String) :=
  (r.keys.getText key).bind splitColon

def incrFailedAttempts (r : RedisCaptchaStore) (key : String) : RedisCaptchaStore × StoreAnswer :=
  let (keys, val) := r.keys.incr (attemptsKey key)
  ({ r with keys := keys }, val.elim .error .attempts)

def resetFailedAttempts (r : RedisCaptchaStore) (key : String) : RedisCaptchaStore :=
  { r with keys := r.keys.del (attemptsKey key) }

def deleteCaptcha (r : RedisCaptchaStore) (key : String) : RedisCaptchaStore :=
  let keys := match r.peekCaptcha key with
    | none => r.keys
    | some (code, _) => r.keys.del (codeIndexKey r.accountId code)
  { r with keys := (keys.del key).del (attemptsKey key) }

def call (r : RedisCaptchaStore) : StoreOp → RedisCaptchaStore × StoreAnswer
  | .setCaptcha key code openid ttl => r.setCaptcha key code openid ttl
  | .setCaptchaNx key code openid ttl => r.setCaptchaNx key code openid ttl
  | .consumeCaptcha key => (r.consumeCaptcha key).map id .captcha
  | .peekCaptcha key => (r, .captcha (r.peekCaptcha key))
  | .incrFailedAttempts key => r.incrFailedAttempts key
  | .resetFailedAttempts key => (r.resetFailedAttempts key, .done)
  | .deleteCaptcha key => (r.deleteCaptcha key, .done)

end RedisCaptchaStore

end CaptchaStore

end Webshelf
