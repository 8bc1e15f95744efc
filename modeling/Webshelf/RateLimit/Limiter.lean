import Webshelf.Lib.Expiring
import Webshelf.Store.User

/-!
# The rate limiter

`RedisRateLimiter::check` counts the requests of a key in Redis. One script increments
the counter and gives it a time to live when it has just been created, so a window
begins with its first request and ends when the counter expires.
-/

namespace Webshelf

namespace RateLimit

/-- The counters, under their full keys. -/
abbrev Counters := Expiring String fun _ => Nat

/-- The part of the configuration that `build_key` reads. -/
structure RateLimitConfig where
  keyPrefix : String

inductive RateLimitError where
  /-- The limiter has no Redis client. -/
  | notAvailable
  | redis
  deriving DecidableEq

/-- How far a call gets: the limiter is a disabled one, Redis is not reached, the reply of the
script is lost, or all is well. -/
inductive Line where
  | disabled
  | unreachable
  | replyLost
  | up
  deriving DecidableEq

def buildKey (cfg : RateLimitConfig) (bare : String) : String :=
  if cfg.keyPrefix = "" then bare else cfg.keyPrefix ++ ":" ++ bare

/-- The script `INC_AND_EXPIRE`; nothing comes between its commands. -/
def incAndExpire (db : Counters) (key : String) (ttl : Nat) : Counters × Nat :=
  let db := db.alter key fun count => count.getD 0 + 1
  let count := (db.get key).getD 0
  if count = 1 then (db.expire key (seconds ttl), count) else (db, count)

def check (cfg : RateLimitConfig) (db : Counters) (key : String) (maxRequests windowSeconds : Nat)
    (line : Line) : Counters × Except RateLimitError Bool :=
  let fullKey := buildKey cfg key
  match line with
  | .disabled => (db, .error .notAvailable)
  | .unreachable => (db, .error .redis)
  | .replyLost => ((incAndExpire db fullKey windowSeconds).1, .error .redis)
  | .up =>
    let (db, count) := incAndExpire db fullKey windowSeconds
    (db, .ok (decide (count ≤ maxRequests)))

/-! ### Calls on one key -/

/-- A call, by the time at which Redis gets to it. -/
structure Call where
  now : Time
  line : Line

/-- What became of a call, and whether the counter had expired since the call before. -/
structure Reply where
  now : Time
  expired : Bool
  result : Except RateLimitError Bool

/-- `Ok(true)` -/
def Reply.allowed (reply : Reply) : Bool :=
  match reply.result with
  | .ok b => b
  | .error _ => false

/-- What all calls have in common. -/
structure Limit where
  cfg : RateLimitConfig
  key : String
  maxRequests : Nat
  windowSeconds : Nat
  positive : 1 ≤ windowSeconds

namespace Limit

def fullKey (l : Limit) : String := buildKey l.cfg l.key

def call (l : Limit) (db : Counters) (c : Call) : Counters × Reply :=
  let later := db.tick c.now
  let (after, result) := check l.cfg later l.key l.maxRequests l.windowSeconds c.line
  let expired := (db.get l.fullKey).isSome && (later.get l.fullKey).isNone
  (after, { now := c.now, expired, result })

/-- Redis after some calls. -/
def after (l : Limit) (db : Counters) (calls : List Call) : Counters :=
  calls.foldl (fun db c => (l.call db c).1) db

def replies (l : Limit) : Counters → List Call → List Reply
  | _, [] => []
  | db, c :: calls => (l.call db c).2 :: l.replies (l.call db c).1 calls

/-- How many requests the counter has seen. -/
def count (l : Limit) (db : Counters) : Nat := (db.get l.fullKey).getD 0

/-- A counter has a deadline, and has been incremented. -/
def Dated (l : Limit) (db : Counters) : Prop :=
  ∀ n d, db.entry l.fullKey = some (n, d) → 1 ≤ n ∧ d.isSome = true

variable {l : Limit} {db : Counters} {c : Call} {calls : List Call} {n : Nat} {d : Option Int}

/-! ### One call -/

/-- A call leaves the counters alone and fails, begins a window, or counts on in one. -/
inductive Called (l : Limit) (db : Counters) (c : Call) : Counters → Reply → Prop
  | failed {reply : Reply} (allowed : reply.allowed = false) :
      Called l db c (db.tick c.now) reply
  | began {db' : Counters} {reply : Reply} (absent : (db.tick c.now).get l.fullKey = none)
      (clock : db'.clock = c.now)
      (entry : db'.entry l.fullKey = some (1, some (c.now + seconds l.windowSeconds)))
      (allowed : reply.allowed = true → 1 ≤ l.maxRequests) : Called l db c db' reply
  | counted {db' : Counters} {reply : Reply} {n : Nat} {d : Option Int}
      (found : db.entry l.fullKey = some (n, d)) (alive : Expiring.inTime c.now d = true)
      (clock : db'.clock = c.now) (entry : db'.entry l.fullKey = some (n + 1, d))
      (allowed : reply.allowed = true → n + 1 ≤ l.maxRequests) : Called l db c db' reply

theorem incAndExpire_absent {key : String} {ttl : Nat} (h : db.get key = none) :
    (incAndExpire db key ttl).1.clock = db.clock ∧
      (incAndExpire db key ttl).1.entry key = some (1, some (db.clock + seconds ttl)) ∧
      (incAndExpire db key ttl).2 = 1 := by
  have hget : (db.alter key fun count => count.getD 0 + 1).get key = some 1 := by
    rw [Expiring.get_alter_self, h, Option.getD_none]
  simp only [incAndExpire, hget, Option.getD_some, if_true, and_true]
  refine ⟨rfl, ?_⟩
  rw [Expiring.expire, Expiring.entry_write_self, hget]
  rfl

theorem incAndExpire_found {key : String} {ttl : Nat} (he : db.entry key = some (n, d))
    (hd : Expiring.inTime db.clock d = true) (hn : 1 ≤ n) :
    (incAndExpire db key ttl).1.clock = db.clock ∧
      (incAndExpire db key ttl).1.entry key = some (n + 1, d) ∧
      (incAndExpire db key ttl).2 = n + 1 := by
  have hfound : db.get key = some n := Expiring.get_eq_some.mpr ⟨d, he, hd⟩
  have hget : (db.alter key fun count => count.getD 0 + 1).get key = some (n + 1) := by
    rw [Expiring.get_alter_self, hfound, Option.getD_some]
  have hne : ¬ n + 1 = 1 := by omega
  simp only [incAndExpire, hget, Option.getD_some, if_neg hne, and_true]
  refine ⟨rfl, ?_⟩
  rw [Expiring.alter, Expiring.entry_write_self, hfound, he]
  rfl

theorem allowed_check {db' : Counters} {k : Nat} (now : Time) (expired : Bool)
    (line : Line) (hcount : (incAndExpire db' l.fullKey l.windowSeconds).2 = k)
    (h : (Reply.mk now expired
      (check l.cfg db' l.key l.maxRequests l.windowSeconds line).2).allowed = true) :
    k ≤ l.maxRequests := by
  cases line with
  | up =>
    rw [← hcount]
    exact of_decide_eq_true h
  | disabled | unreachable | replyLost => cases h

theorem called (hdated : l.Dated db) (c : Call) :
    Called l db c (l.call db c).1 (l.call db c).2 := by
  cases hline : c.line with
  | disabled | unreachable =>
    have h1 : (l.call db c).1 = db.tick c.now := by simp [call, check, hline]
    rw [h1]
    exact .failed (by simp [call, check, hline, Reply.allowed])
  | replyLost | up =>
    have h1 : (l.call db c).1 = (incAndExpire (db.tick c.now) l.fullKey l.windowSeconds).1 := by
      simp [call, check, hline, fullKey]
    rw [h1]
    cases hget : (db.tick c.now).get l.fullKey with
    | none =>
      obtain ⟨hclock, hentry, hcount⟩ := @incAndExpire_absent _ _ l.windowSeconds hget
      exact .began hget hclock hentry (allowed_check _ _ _ hcount)
    | some n =>
      obtain ⟨d, he, hd⟩ := Expiring.get_eq_some.mp hget
      obtain ⟨hclock, hentry, hcount⟩ :=
        @incAndExpire_found _ _ _ _ l.windowSeconds he hd (hdated n d he).1
      exact .counted he hd hclock hentry (allowed_check _ _ _ hcount)

end Limit

end RateLimit

end Webshelf
