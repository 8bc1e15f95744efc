import Webshelf.Cache.GetOrInsert

/-!
# Is the value computed once?

Until the value is stored, the call that holds the lock is the one that may
compute it: the others wait for the lock, or poll the key beyond its SETEX. A
call that gets the lock later finds the value by its double-check.
-/

namespace Webshelf

open Runs

variable {T : Type}

abbrev Inserts (T : Type) := Threads.State (CacheKeys T) (InsertCall T)

abbrev InsertLabel (T : Type) := Threads.Label (InsertCall T) (InsertInput T) Time

/-- The value comes back from the cache as it was stored. -/
def Serde.roundTrips [DecidableEq T] (serde : Serde T) (val : T) : Bool :=
  (serde.toString val).bind serde.fromStr == some val

namespace InsertPhase

/-- The call holds the lock, and its SETEX is still to come. -/
def locked : InsertPhase T → Bool
  | recheck | compute true | set true _ => true
  | _ => false

def computing : InsertPhase T → Bool
  | compute _ => true
  | _ => false

def result : InsertPhase T → Option (Except CacheError T)
  | returned _ r => some r
  | _ => none

end InsertPhase

theorem InsertCall.left_ne_zero {call : InsertCall T} (h : call.phase.result = none) :
    call.left ≠ 0 := by
  cases hphase : call.phase with
  | returned =>
    rw [hphase] at h
    cases h
  | _ => simp [left, hphase, InsertPhase.left]

namespace Inserts

def step (serde : Serde T) (key : String) : Inserts T → InsertLabel T → Option (Inserts T) :=
  Threads.step (cacheService serde true key)

/-- The call that held the lock is past its SETEX. -/
def stored (s : Inserts T) (rival : Option Nat) : Bool :=
  rival.any fun m => s.threads[m]?.any fun call => !call.phase.locked

/-- The command succeeds; and if the value is not there yet, the last poll of a
call comes after the SETEX of the call that held the lock. -/
def succeeds (key : String) (s : Inserts T) (call : InsertCall T) : Bool :=
  match call.phase with
  | .lock _ _ => call.lockExpirySecs != 0
  | .set _ _ => call.ttlSecs != 0
  | .poll i rival => i + 1 != call.maxRetries ||
    ((s.shared.redis.get key).isSome || s.stored rival)
  | _ => true

/-- Redis answers, the computations succeed with values that survive serde, no
lock expires before the SETEX of its holder, and the cached value stays. -/
def undisturbed [DecidableEq T] (serde : Serde T) (key : String) (s : Inserts T) :
    InsertLabel T → Bool
  | .begin call => decide (1 ≤ call.maxRetries)
  | .step n (.redis outcome) => outcome == .done && s.threads[n]?.all (s.succeeds key)
  | .step _ (.computed (.ok val)) => serde.roundTrips val
  | .step _ (.computed (.error _)) => false
  | .surround now =>
    let later := s.shared.redis.tick now
    ((s.shared.redis.get key).isSome || s.threads.all fun call => !call.phase.locked ||
      later.get (lockKey key) == s.shared.redis.get (lockKey key)) &&
    later.get key == s.shared.redis.get key

/-- The computations that have been started. -/
def executions (s : Inserts T) : Nat :=
  s.shared.computed.length + s.threads.countP fun call => call.phase.computing

/-- At most one computation is started; once a call has returned it is exactly
one, and the call has its value. -/
def ComputedOnce (s : Inserts T) : Prop :=
  s.executions ≤ 1 ∧ ∀ (n : Nat) (call : InsertCall T) r, s.threads[n]? = some call →
    call.phase.result = some r →
    s.executions = 1 ∧ ∃ val, r = .ok val ∧ s.shared.computed = [.ok val]

/-- Call `n` returns: until then it goes on, whatever its next command or its
future answers, and each of its steps brings it nearer to its end, which is
`2 * max_retries + 8` steps away at most. -/
structure Returns (serde : Serde T) (key : String) (s : Inserts T) (n : Nat)
    (call : InsertCall T) : Prop where
  goesOn : call.phase.result = none → ∀ outcome r,
    (s.step serde key (.step n (.redis outcome))).isSome = true ∨
      (s.step serde key (.step n (.computed r))).isSome = true
  nearer : ∀ input s', s.step serde key (.step n input) = some s' →
    ∃ q, s'.threads[n]? = some q ∧ q.left < call.left
  near : call.left ≤ 2 * call.maxRetries + 8

/-- Where all the calls have returned, one computation has been executed, and
every call has its value. -/
def ReturnedOne (s : Inserts T) : Prop :=
  s.threads ≠ [] → (∀ call ∈ s.threads, call.phase.result.isSome = true) →
    s.executions = 1 ∧ ∃ val, s.shared.computed = [.ok val] ∧
      ∀ call ∈ s.threads, call.phase.result = some (.ok val)

/-- No call yet, and neither the key nor its marker is there. -/
structure Initial (key : String) (s : Inserts T) : Prop where
  threads : s.threads = []
  computed : s.shared.computed = []
  lockedBy : s.shared.lockedBy = none
  absent : s.shared.redis.get key = none
  unmarked : s.shared.redis.get (nullKey key) = none

end Inserts

namespace InsertCall

variable {serde : Serde T} {key : String} {s : CacheKeys T} {n : Nat} {call : InsertCall T}

/-- Call `n` has taken the lock last, and the lock stands. -/
def Owner (key : String) (s : CacheKeys T) (n : Nat) (call : InsertCall T) : Prop :=
  s.lockedBy = some n ∧ s.redis.get (lockKey key) = some call.lockValue

/-- Before the value is stored: who holds the lock, and whom the others wait for. -/
def Cold [DecidableEq T] (serde : Serde T) (key : String) (s : CacheKeys T) (n : Nat)
    (call : InsertCall T) : Prop :=
  match call.phase with
  | .get | .existsNull => True
  | .lock _ rival => rival = none ∨ rival = s.lockedBy
  | .poll i rival => i < call.maxRetries ∧ (rival = none ∨ rival = s.lockedBy)
  | .recheck | .compute true => call.Owner key s n ∧ s.computed = []
  | .set true val => call.Owner key s n ∧ s.computed = [.ok val] ∧ serde.roundTrips val = true
  | .compute false | .set false _ | .returned _ _ => False

/-- Once the value is stored. -/
def Warm (val : T) (call : InsertCall T) : Prop :=
  match call.phase with
  | .compute _ | .set _ _ => False
  | .poll i _ => i < call.maxRetries
  | .returned _ r => r = .ok val
  | _ => True

structure Stands [DecidableEq T] (serde : Serde T) (key : String) (s : CacheKeys T) (n : Nat)
    (call : InsertCall T) : Prop where
  retries : 1 ≤ call.maxRetries
  cold : s.redis.get key = none → call.Cold serde key s n
  warm : ∀ text val, s.redis.get key = some text → serde.fromStr text = some val → call.Warm val

end InsertCall

namespace CacheKeys

/-- The stored value is the one that has been computed. -/
structure Sound (serde : Serde T) (key : String) (s : CacheKeys T) : Prop where
  unmarked : s.redis.get (nullKey key) = none
  cold : s.redis.get key = none → s.lockedBy = none → s.computed = []
  warm : ∀ text, s.redis.get key = some text →
    ∃ val, s.computed = [.ok val] ∧ serde.fromStr text = some val

end CacheKeys

theorem nullKey_ne_key (key : String) : nullKey key ≠ key := by
  intro h
  have hlen := congrArg String.length h
  simp [nullKey] at hlen

theorem lockKey_ne_key (key : String) : lockKey key ≠ key := by
  intro h
  have hlen := congrArg String.length h
  simp [lockKey] at hlen

theorem nullKey_ne_lockKey (key : String) : nullKey key ≠ lockKey key := by
  intro h
  have hlen := congrArg String.length h
  have hnull : ":null".length = 5 := by decide
  have hlock : "cache:lock:".length = 11 := by decide
  simp only [nullKey, lockKey, String.length_append, hnull, hlock] at hlen
  omega

namespace RedisKeys

variable {serde : Serde T} {key : String} {s : RedisKeys} {text : String} {val : T}

theorem getValue_of_none (h : s.get key = none) : s.getValue serde key .done = .ok none := by
  simp [getValue, RedisOutcome.answer, h]

theorem getValue_of_some (h : s.get key = some text) (hval : serde.fromStr text = some val) :
    s.getValue serde key .done = .ok (some val) := by
  simp [getValue, RedisOutcome.answer, h, hval]

theorem setNxEx_of_some {value : String} {secs : Nat} {held : String} (hsecs : secs ≠ 0)
    (h : s.get key = some held) : s.setNxEx key value secs .done = (s, .ok false) := by
  simp [setNxEx, RedisOutcome.runs, RedisOutcome.answer, hsecs, h]

theorem setNxEx_of_none {value : String} {secs : Nat} (hsecs : secs ≠ 0)
    (h : s.get key = none) :
    s.setNxEx key value secs .done = (s.put key value (some (seconds secs)), .ok true) := by
  simp [setNxEx, RedisOutcome.runs, RedisOutcome.answer, hsecs, h]

theorem setValue_of_roundTrips [DecidableEq T] {secs : Nat} (hsecs : secs ≠ 0)
    (h : serde.roundTrips val = true) :
    ∃ text, serde.fromStr text = some val ∧
      s.setValue serde key secs val .done = s.put key text (some (seconds secs)) := by
  obtain ⟨text, htext, hval⟩ := Option.bind_eq_some_iff.mp (beq_iff_eq.mp h)
  refine ⟨text, hval, ?_⟩
  simp [setValue, htext, setEx, RedisOutcome.runs, hsecs]

theorem get_put_secs {text : String} {secs : Nat} :
    (s.put key text (some (seconds secs))).get key = some text := by
  refine Expiring.get_put_self ?_
  simp only [seconds]
  omega

theorem get_safeRelease_of_ne {key' value : String} (h : key' ≠ key) :
    (s.safeRelease key value).get key' = s.get key' := by
  rw [safeRelease]
  split
  · exact Expiring.get_del_of_ne h
  · rfl

end RedisKeys

namespace InsertCall

variable [DecidableEq T] {serde : Serde T} {key : String} {s a : CacheKeys T} {n : Nat}
  {call q : InsertCall T} {text : String} {val : T}

/-- A call of the service after an undisturbed step. -/
inductive Does (serde : Serde T) (key : String) (n : Nat) (s : CacheKeys T) (call : InsertCall T) :
    CacheKeys T → InsertCall T → Prop
  | looks {phase : InsertPhase T} (stands : Stands serde key s n { call with phase })
      (locked : s.redis.get key = none → call.phase.locked = true → phase.locked = true) :
      Does serde key n s call s { call with phase }
  | acquires {secs : Nat} (waits : call.phase.locked = false)
      (vacant : s.redis.get (lockKey key) = none) :
      Does serde key n s call
        { s with
          redis := s.redis.put (lockKey key) call.lockValue (some (seconds secs))
          lockedBy := some n }
        { call with phase := .recheck }
  | computes {guard : Bool} {val : T} (phase : call.phase = .compute guard)
      (roundTrips : serde.roundTrips val = true) :
      Does serde key n s call { s with computed := s.computed ++ [.ok val] }
        { call with phase := .set guard val }
  | sets {guard : Bool} {val : T} {text : String} {secs : Nat} (phase : call.phase = .set guard val)
      (decoded : serde.fromStr text = some val) :
      Does serde key n s call { s with redis := s.redis.put key text (some (seconds secs)) }
        { call with phase := .returned guard (.ok val) }
  | releases {r : Except CacheError T} (phase : call.phase = .returned true r) :
      Does serde key n s call { s with redis := s.redis.safeRelease (lockKey key) call.lockValue }
        { call with phase := .returned false r }

theorem Stands.of_cold (absent : s.redis.get key = none) (retries : 1 ≤ call.maxRetries)
    (h : call.Cold serde key s n) : call.Stands serde key s n :=
  ⟨retries, fun _ => h, fun text val there => by
    rw [absent] at there
    cases there⟩

theorem Stands.of_warm (there : s.redis.get key = some text)
    (decoded : serde.fromStr text = some val) (retries : 1 ≤ call.maxRetries)
    (h : call.Warm val) : call.Stands serde key s n := by
  refine ⟨retries, ?_, ?_⟩
  · intro absent
    rw [there] at absent
    cases absent
  · intro text' val' there' decoded'
    rw [there] at there'
    cases there'
    rw [decoded] at decoded'
    cases decoded'
    exact h

/-- A step of another call, or of time, that leaves the lock to its holder. -/
theorem Cold.congr (h : call.Cold serde key s n) (hlockedBy : a.lockedBy = s.lockedBy)
    (hlocked : call.phase.locked = true → a.computed = s.computed ∧
      a.redis.get (lockKey key) = s.redis.get (lockKey key)) : call.Cold serde key a n := by
  cases hphase : call.phase with
  | get | existsNull => simp only [Cold, hphase]
  | lock | poll =>
    simp only [Cold, hphase, hlockedBy] at h ⊢
    exact h
  | recheck =>
    obtain ⟨hcomputed, hlock⟩ := hlocked (by rw [hphase]; rfl)
    simp only [Cold, Owner, hphase, hlockedBy, hcomputed, hlock] at h ⊢
    exact h
  | compute guard | set guard val =>
    cases guard with
    | false => simp only [Cold, hphase] at h
    | true =>
      obtain ⟨hcomputed, hlock⟩ := hlocked (by rw [hphase]; rfl)
      simp only [Cold, Owner, hphase, hlockedBy, hcomputed, hlock] at h ⊢
      exact h
  | returned => simp only [Cold, hphase] at h

/-- Where nobody has taken the lock, nobody waits for its holder. -/
theorem Cold.of_unlocked (h : call.Cold serde key s n) (hnone : s.lockedBy = none) :
    call.Cold serde key a n := by
  cases hphase : call.phase with
  | get | existsNull => simp only [Cold, hphase]
  | lock | poll =>
    simp only [Cold, hphase, hnone, or_self] at h ⊢
    simp [h]
  | recheck => simp [Cold, Owner, hphase, hnone] at h
  | compute guard | set guard val => cases guard <;> simp [Cold, Owner, hphase, hnone] at h
  | returned => simp only [Cold, hphase] at h

/-- A call that does not hold the lock has not computed anything. -/
theorem Cold.warm (h : call.Cold serde key s n) (hlocked : call.phase.locked = false) (val : T) :
    call.Warm val := by
  cases hphase : call.phase with
  | get | existsNull | lock | recheck => simp only [Warm, hphase]
  | poll =>
    simp only [Cold, Warm, hphase] at h ⊢
    exact h.1
  | compute guard | set guard val =>
    cases guard
    · simp only [Cold, hphase] at h
    · rw [hphase] at hlocked
      cases hlocked
  | returned => simp only [Cold, hphase] at h

end InsertCall

namespace Inserts

variable {serde : Serde T} {key : String} {s s' s₀ : Inserts T} {a : CacheKeys T} {n : Nat}
  {call q : InsertCall T} {l : InsertLabel T}

/-- As long as the value is not stored, the call that has taken the lock holds it. -/
def Held (key : String) (s : Inserts T) : Prop :=
  s.shared.redis.get key = none → ∀ m, s.shared.lockedBy = some m →
    ∃ call, s.threads[m]? = some call ∧ call.phase.locked = true

theorem Held.not_stored (h : s.Held key) (absent : s.shared.redis.get key = none)
    {rival : Option Nat} (hrival : rival = none ∨ rival = s.shared.lockedBy) :
    s.stored rival = false := by
  cases rival with
  | none => rfl
  | some m =>
    obtain ⟨call, hm, hlocked⟩ := h absent m (hrival.resolve_left nofun).symm
    simp [stored, hm, hlocked]

theorem cache_tick {now : Time} (h : (cacheService serde true key).surround s.shared now = some a) :
    s.shared.redis.clock ≤ now ∧ a = { s.shared with redis := s.shared.redis.tick now } := by
  simp only [cacheService] at h
  split at h
  · rename_i hle
    cases h
    exact ⟨hle, rfl⟩
  · cases h

theorem returns (hn : s.threads[n]? = some call) : s.Returns serde key n call := by
  refine ⟨?_, ?_, call.left_le⟩
  · intro hr outcome r
    have hnext := @InsertCall.next_isSome T serde true key n s.shared call
      (InsertCall.left_ne_zero hr) outcome r
    refine hnext.imp ?_ ?_ <;>
      · intro h
        simpa [Inserts.step, Threads.step, hn, cacheService] using h
  · intro input s' hstep
    obtain ⟨p, hl, -⟩ | ⟨m, input', p, a, q, hl, hp, hnext, rfl⟩ | ⟨now, a, hl, -⟩ :=
      Threads.step_cases hstep
    · cases hl
    · cases hl
      cases hn.symm.trans hp
      exact ⟨q, Threads.get_set_self hp, InsertCall.left_of_next hnext⟩
    · cases hl

theorem ComputedOnce.returnedOne (h : s.ComputedOnce) : s.ReturnedOne := by
  intro hsome hreturned
  obtain ⟨first, hfirst⟩ := List.exists_mem_of_ne_nil _ hsome
  have hresult : ∀ call ∈ s.threads, s.executions = 1 ∧ ∃ val,
      call.phase.result = some (.ok val) ∧ s.shared.computed = [.ok val] := by
    intro call hcall
    obtain ⟨n, hn⟩ := List.mem_iff_getElem?.mp hcall
    obtain ⟨r, hr⟩ := Option.isSome_iff_exists.mp (hreturned call hcall)
    obtain ⟨hone, val, rfl, hcomputed⟩ := h.2 n call r hn hr
    exact ⟨hone, val, hr, hcomputed⟩
  obtain ⟨hone, val, -, hcomputed⟩ := hresult first hfirst
  refine ⟨hone, val, hcomputed, ?_⟩
  intro call hcall
  obtain ⟨-, val', hr, hcomputed'⟩ := hresult call hcall
  cases hcomputed.symm.trans hcomputed'
  exact hr

variable [DecidableEq T]

/-- A lookup of the key either finds the stored value, or misses. -/
theorem does_found (hI : s.shared.Sound serde key) (retries : 1 ≤ call.maxRetries)
    {spawned : Bool} {miss : InsertPhase T}
    (cold : s.shared.redis.get key = none →
      InsertCall.Cold serde key s.shared n { call with phase := miss })
    (locked : call.phase.locked = true → miss.locked = true) :
    InsertCall.Does serde key n s.shared call s.shared { call with
      phase := .found spawned miss (s.shared.redis.getValue serde key .done) } := by
  cases hk : s.shared.redis.get key with
  | none =>
    rw [RedisKeys.getValue_of_none hk]
    exact .looks (.of_cold hk retries (cold hk)) fun _ => locked
  | some text =>
    obtain ⟨val, -, hval⟩ := hI.warm text hk
    rw [RedisKeys.getValue_of_some hk hval]
    refine .looks (.of_warm hk hval retries rfl) ?_
    intro absent
    rw [hk] at absent
    cases absent

theorem does_lock (hA : call.Stands serde key s.shared n) {attempt : Nat} {rival : Option Nat}
    (hphase : call.phase = .lock attempt rival) (hsecs : call.lockExpirySecs ≠ 0)
    (h : getOrInsertWithLock serde true key n s.shared call (.redis .done) = some (a, q)) :
    InsertCall.Does serde key n s.shared call a q := by
  have hwait : s.shared.redis.get key = none → rival = none ∨ rival = s.shared.lockedBy := by
    intro absent
    have hcold := hA.cold absent
    rwa [InsertCall.Cold, hphase] at hcold
  simp only [getOrInsertWithLock, hphase, Bool.not_true, Bool.false_eq_true, if_false] at h
  split at h
  · cases hlock : s.shared.redis.get (lockKey key) with
    | some held =>
      rw [RedisKeys.setNxEx_of_some hsecs hlock] at h
      cases h
      refine .looks ⟨hA.retries, fun _ => .inr rfl, fun _ _ _ _ => trivial⟩ ?_
      intro _
      simp [hphase, InsertPhase.locked]
    | none =>
      rw [RedisKeys.setNxEx_of_none hsecs hlock] at h
      cases h
      exact .acquires (by rw [hphase]; rfl) hlock
  · cases h
    refine .looks ⟨hA.retries, fun absent => ⟨hA.retries, hwait absent⟩,
      fun _ _ _ _ => hA.retries⟩ ?_
    intro _
    simp [hphase, InsertPhase.locked]

theorem does_poll (hI : s.shared.Sound serde key) (hW : s.Held key)
    (hA : call.Stands serde key s.shared n) {i : Nat} {rival : Option Nat}
    (hphase : call.phase = .poll i rival)
    (hlast : (i + 1 != call.maxRetries ||
      ((s.shared.redis.get key).isSome || s.stored rival)) = true)
    (h : getOrInsertWithLock serde true key n s.shared call (.redis .done) = some (a, q)) :
    InsertCall.Does serde key n s.shared call a q := by
  have hcold : s.shared.redis.get key = none →
      i < call.maxRetries ∧ (rival = none ∨ rival = s.shared.lockedBy) := by
    intro absent
    have hcold := hA.cold absent
    rwa [InsertCall.Cold, hphase] at hcold
  have hlt : i < call.maxRetries := by
    cases hk : s.shared.redis.get key with
    | none => exact (hcold hk).1
    | some text =>
      obtain ⟨val, -, hval⟩ := hI.warm text hk
      have hwarm := hA.warm text val hk hval
      rwa [InsertCall.Warm, hphase] at hwarm
  simp only [getOrInsertWithLock, hphase, if_pos hlt] at h
  cases h
  refine does_found hI hA.retries (fun absent => ?_) (by simp [hphase, InsertPhase.locked])
  obtain ⟨-, hrival⟩ := hcold absent
  rw [hW.not_stored absent hrival, absent, Option.isSome_none, Bool.or_false,
    Bool.or_false] at hlast
  have hne := bne_iff_ne.mp hlast
  have hlt' : i + 1 < call.maxRetries := by omega
  exact ⟨hlt', hrival⟩

theorem does_set (hI : s.shared.Sound serde key) (hA : call.Stands serde key s.shared n)
    {guard : Bool} {val : T} (hphase : call.phase = .set guard val) (hsecs : call.ttlSecs ≠ 0)
    (h : getOrInsertWithLock serde true key n s.shared call (.redis .done) = some (a, q)) :
    InsertCall.Does serde key n s.shared call a q := by
  cases hk : s.shared.redis.get key with
  | none =>
    have hcold := hA.cold hk
    rw [InsertCall.Cold, hphase] at hcold
    cases guard with
    | false => cases hcold
    | true =>
      obtain ⟨-, -, hval⟩ := hcold
      obtain ⟨text, hdecoded, hset⟩ : ∃ text, serde.fromStr text = some val ∧
          s.shared.redis.setValue serde key call.ttlSecs val .done =
            s.shared.redis.put key text (some (seconds call.ttlSecs)) :=
        RedisKeys.setValue_of_roundTrips hsecs hval
      simp only [getOrInsertWithLock, hphase, hset] at h
      cases h
      exact .sets hphase hdecoded
  | some text =>
    obtain ⟨val', -, hval⟩ := hI.warm text hk
    have hwarm := hA.warm text val' hk hval
    rw [InsertCall.Warm, hphase] at hwarm
    cases hwarm

theorem does_of_next (hI : s.shared.Sound serde key) (hW : s.Held key)
    (hA : call.Stands serde key s.shared n) (hp : s.threads[n]? = some call)
    {input : InsertInput T} (hok : s.undisturbed serde key (.step n input) = true)
    (h : getOrInsertWithLock serde true key n s.shared call input = some (a, q)) :
    InsertCall.Does serde key n s.shared call a q := by
  cases input with
  | computed r =>
    cases hphase : call.phase with
    | compute guard =>
      simp only [getOrInsertWithLock, hphase] at h
      cases h
      cases r with
      | error e => cases hok
      | ok val => exact .computes hphase hok
    | _ => simp [getOrInsertWithLock, hphase] at h
  | redis outcome =>
    obtain ⟨houtcome, hsucceeds⟩ := Bool.and_eq_true_iff.mp hok
    obtain rfl : outcome = .done := beq_iff_eq.mp houtcome
    rw [hp, Option.all_some, succeeds] at hsucceeds
    cases hphase : call.phase with
    | get =>
      simp only [getOrInsertWithLock, hphase] at h
      cases h
      exact does_found hI hA.retries (fun _ => trivial) (by simp [hphase, InsertPhase.locked])
    | existsNull =>
      simp only [getOrInsertWithLock, hphase, hI.unmarked] at h
      cases h
      refine .looks ⟨hA.retries, fun _ => .inl rfl, fun _ _ _ _ => trivial⟩ ?_
      intro _
      simp [hphase, InsertPhase.locked]
    | lock attempt rival =>
      rw [hphase] at hsucceeds
      exact does_lock hA hphase (bne_iff_ne.mp hsucceeds) h
    | recheck =>
      simp only [getOrInsertWithLock, hphase] at h
      cases h
      refine does_found hI hA.retries (fun absent => ?_) fun _ => rfl
      have hcold := hA.cold absent
      rwa [InsertCall.Cold, hphase] at hcold
    | poll i rival =>
      rw [hphase] at hsucceeds
      exact does_poll hI hW hA hphase hsucceeds h
    | compute guard => simp [getOrInsertWithLock, hphase] at h
    | set guard val =>
      rw [hphase] at hsucceeds
      exact does_set hI hA hphase (bne_iff_ne.mp hsucceeds) h
    | returned spawned r =>
      cases spawned with
      | true =>
        simp only [getOrInsertWithLock, hphase] at h
        cases h
        exact .releases hphase
      | false => simp [getOrInsertWithLock, hphase] at h

/-- Who holds the lock before the value is stored, and what has been computed. -/
theorem owner_of_locked (hA : call.Stands serde key s.shared n)
    (absent : s.shared.redis.get key = none) (hlocked : call.phase.locked = true) :
    s.shared.lockedBy = some n ∧
      s.shared.redis.get (lockKey key) = some call.lockValue := by
  have hcold := hA.cold absent
  cases hphase : call.phase with
  | recheck =>
    rw [InsertCall.Cold, hphase] at hcold
    exact hcold.1
  | compute guard | set guard =>
    cases guard with
    | true =>
      rw [InsertCall.Cold, hphase] at hcold
      exact hcold.1
    | false =>
      rw [hphase] at hlocked
      cases hlocked
  | _ =>
    rw [hphase] at hlocked
    cases hlocked

abbrev Invariant (serde : Serde T) (key : String) (s : Inserts T) : Prop :=
  Threads.Holds (CacheKeys.Sound serde key) (InsertCall.Stands serde key) s

/-- Where nobody has the lock, nobody has taken it before. -/
theorem unlocked (h : s.Invariant serde key) (hW : s.Held key)
    (absent : s.shared.redis.get key = none)
    (vacant : s.shared.redis.get (lockKey key) = none) : s.shared.lockedBy = none := by
  cases hm : s.shared.lockedBy with
  | none => rfl
  | some m =>
    obtain ⟨call, hcall, hlocked⟩ := hW absent m hm
    have howner := (owner_of_locked (h.thread m call hcall) absent hlocked).2
    rw [vacant] at howner
    cases howner

/-- While call `n` holds the lock, no other call does. -/
theorem other_not_locked (h : s.Invariant serde key) (absent : s.shared.redis.get key = none)
    (howner : s.shared.lockedBy = some n) {k : Nat} {r : InsertCall T} (hne : k ≠ n)
    (hk : s.threads[k]? = some r) : r.phase.locked = false := by
  cases hlocked : r.phase.locked with
  | false => rfl
  | true =>
    have hr := (owner_of_locked (h.thread k r hk) absent hlocked).1
    exact absurd (Option.some.inj (hr.symm.trans howner)) hne

/-- A computation, and the SETEX after it, are made by the holder of the lock
before the value is stored. -/
theorem holder_of_compute (h : s.Invariant serde key) (hp : s.threads[n]? = some call)
    {guard : Bool} (hphase : call.phase = .compute guard) :
    s.shared.redis.get key = none ∧ guard = true ∧ call.Owner key s.shared n ∧
      s.shared.computed = [] := by
  have hA := h.thread n call hp
  cases hk : s.shared.redis.get key with
  | none =>
    have hcold := hA.cold hk
    rw [InsertCall.Cold, hphase] at hcold
    cases guard with
    | true => exact ⟨rfl, rfl, hcold⟩
    | false => cases hcold
  | some text =>
    obtain ⟨val, -, hval⟩ := h.shared.warm text hk
    have hwarm := hA.warm text val hk hval
    rw [InsertCall.Warm, hphase] at hwarm
    cases hwarm

theorem holder_of_set (h : s.Invariant serde key) (hp : s.threads[n]? = some call)
    {guard : Bool} {val : T} (hphase : call.phase = .set guard val) :
    s.shared.redis.get key = none ∧ call.Owner key s.shared n ∧
      s.shared.computed = [.ok val] := by
  have hA := h.thread n call hp
  cases hk : s.shared.redis.get key with
  | none =>
    have hcold := hA.cold hk
    rw [InsertCall.Cold, hphase] at hcold
    cases guard with
    | true => exact ⟨rfl, hcold.1, hcold.2.1⟩
    | false => cases hcold
  | some text =>
    obtain ⟨val', -, hval⟩ := h.shared.warm text hk
    have hwarm := hA.warm text val' hk hval
    rw [InsertCall.Warm, hphase] at hwarm
    cases hwarm

theorem Invariant.acquires (h : s.Invariant serde key) (hW : s.Held key)
    (hp : s.threads[n]? = some call) {secs : Nat}
    (vacant : s.shared.redis.get (lockKey key) = none) :
    let a : CacheKeys T := { s.shared with
      redis := s.shared.redis.put (lockKey key) call.lockValue (some (seconds secs))
      lockedBy := some n }
    a.Sound serde key ∧ InsertCall.Stands serde key a n { call with phase := .recheck } ∧
      ∀ k r, k ≠ n → s.threads[k]? = some r → r.Stands serde key s.shared k →
        r.Stands serde key a k := by
  intro a
  have hkey : a.redis.get key = s.shared.redis.get key :=
    Expiring.get_put_of_ne (lockKey_ne_key key).symm
  have hnull : a.redis.get (nullKey key) = s.shared.redis.get (nullKey key) :=
    Expiring.get_put_of_ne (nullKey_ne_lockKey key)
  refine ⟨⟨hnull.trans h.shared.unmarked, nofun, ?_⟩,
    ⟨(h.thread n call hp).retries, ?_, fun _ _ _ _ => trivial⟩,
    fun k r _ hk hB => ⟨hB.retries, ?_, ?_⟩⟩
  · intro text there
    exact h.shared.warm text (hkey.symm.trans there)
  · intro absent
    have absent := hkey.symm.trans absent
    exact ⟨⟨rfl, RedisKeys.get_put_secs⟩, h.shared.cold absent (unlocked h hW absent vacant)⟩
  · intro absent
    have absent := hkey.symm.trans absent
    exact (hB.cold absent).of_unlocked (unlocked h hW absent vacant)
  · intro text val there
    exact hB.warm text val (hkey.symm.trans there)

theorem Invariant.computes (h : s.Invariant serde key) (hp : s.threads[n]? = some call)
    {guard : Bool} {val : T} (hphase : call.phase = .compute guard)
    (roundTrips : serde.roundTrips val = true) :
    let a : CacheKeys T := { s.shared with computed := s.shared.computed ++ [.ok val] }
    a.Sound serde key ∧ InsertCall.Stands serde key a n { call with phase := .set guard val } ∧
      ∀ k r, k ≠ n → s.threads[k]? = some r → r.Stands serde key s.shared k →
        r.Stands serde key a k := by
  intro a
  obtain ⟨absent, rfl, howner, hcomputed⟩ := holder_of_compute h hp hphase
  have hval : a.computed = [.ok val] := congrArg (· ++ [.ok val]) hcomputed
  refine ⟨⟨h.shared.unmarked, ?_, ?_⟩,
    .of_cold absent (h.thread n call hp).retries ⟨howner, hval, roundTrips⟩, ?_⟩
  · intro _ hnone
    cases howner.1.symm.trans hnone
  · intro text there
    cases absent.symm.trans there
  · intro k r hne hk hB
    have hfree := other_not_locked h absent howner.1 hne hk
    refine .of_cold absent hB.retries ((hB.cold absent).congr rfl fun hlocked => ?_)
    rw [hfree] at hlocked
    cases hlocked

theorem Invariant.sets (h : s.Invariant serde key) (hp : s.threads[n]? = some call)
    {guard : Bool} {val : T} {text : String} {secs : Nat} (hphase : call.phase = .set guard val)
    (decoded : serde.fromStr text = some val) :
    let a : CacheKeys T :=
      { s.shared with redis := s.shared.redis.put key text (some (seconds secs)) }
    a.Sound serde key ∧
      InsertCall.Stands serde key a n { call with phase := .returned guard (.ok val) } ∧
      ∀ k r, k ≠ n → s.threads[k]? = some r → r.Stands serde key s.shared k →
        r.Stands serde key a k := by
  intro a
  obtain ⟨absent, howner, hcomputed⟩ := holder_of_set h hp hphase
  have there : a.redis.get key = some text := RedisKeys.get_put_secs
  have hnull : a.redis.get (nullKey key) = s.shared.redis.get (nullKey key) :=
    Expiring.get_put_of_ne (nullKey_ne_key key)
  refine ⟨⟨hnull.trans h.shared.unmarked, ?_, ?_⟩,
    .of_warm there decoded (h.thread n call hp).retries rfl,
    fun k r hne hk hB => .of_warm there decoded hB.retries ?_⟩
  · intro absent'
    cases there.symm.trans absent'
  · intro text' there'
    cases there.symm.trans there'
    exact ⟨val, hcomputed, decoded⟩
  · exact (hB.cold absent).warm (other_not_locked h absent howner.1 hne hk) val

theorem Invariant.releases (h : s.Invariant serde key) (hp : s.threads[n]? = some call)
    {r : Except CacheError T} (hphase : call.phase = .returned true r) :
    let a : CacheKeys T :=
      { s.shared with redis := s.shared.redis.safeRelease (lockKey key) call.lockValue }
    a.Sound serde key ∧
      InsertCall.Stands serde key a n { call with phase := .returned false r } ∧
      ∀ k r, k ≠ n → s.threads[k]? = some r → r.Stands serde key s.shared k →
        r.Stands serde key a k := by
  intro a
  have hA := h.thread n call hp
  have hkey : a.redis.get key = s.shared.redis.get key :=
    RedisKeys.get_safeRelease_of_ne (lockKey_ne_key key).symm
  have hnull : a.redis.get (nullKey key) = s.shared.redis.get (nullKey key) :=
    RedisKeys.get_safeRelease_of_ne (nullKey_ne_lockKey key)
  -- a call returns once the value is stored
  have hstored : a.redis.get key ≠ none := by
    intro absent
    have hcold := hA.cold (hkey.symm.trans absent)
    rwa [InsertCall.Cold, hphase] at hcold
  refine ⟨⟨hnull.trans h.shared.unmarked, fun absent => absurd absent hstored,
    fun text there => h.shared.warm text (hkey.symm.trans there)⟩,
    ⟨hA.retries, fun absent => absurd absent hstored, fun text val there decoded => ?_⟩,
    fun k r _ _ hB => ⟨hB.retries, fun absent => absurd absent hstored,
      fun text val there => hB.warm text val (hkey.symm.trans there)⟩⟩
  have hwarm := hA.warm text val (hkey.symm.trans there) decoded
  rwa [InsertCall.Warm, hphase] at hwarm

/-- What an undisturbed passing of time leaves. -/
theorem undisturbed_surround {now : Time}
    (hok : s.undisturbed serde key (.surround now) = true) :
    (s.shared.redis.get key = none → ∀ (k : Nat) (r : InsertCall T), s.threads[k]? = some r →
      r.phase.locked = true →
        (s.shared.redis.tick now).get (lockKey key) = s.shared.redis.get (lockKey key)) ∧
    (s.shared.redis.tick now).get key = s.shared.redis.get key := by
  obtain ⟨hlocks, hkey⟩ := Bool.and_eq_true_iff.mp hok
  refine ⟨fun absent k r hk hlocked => ?_, beq_iff_eq.mp hkey⟩
  rw [absent, Option.isSome_none, Bool.false_or] at hlocks
  have hr := List.all_eq_true.mp hlocks r (List.mem_of_getElem? hk)
  rw [hlocked] at hr
  exact beq_iff_eq.mp hr

theorem Invariant.step (h : s.Invariant serde key) (hW : s.Held key)
    (hok : s.undisturbed serde key l = true) (hstep : s.step serde key l = some s') :
    s'.Invariant serde key := by
  refine Threads.Holds.step h hstep ?_ ?_ ?_
  · intro p hl hp
    subst hl
    have hphase : p.phase = .get := by
      simp only [cacheService] at hp
      split at hp
      · assumption
      · cases hp
    refine ⟨of_decide_eq_true hok, ?_, ?_⟩
    · intro _
      simp only [InsertCall.Cold, hphase]
    · intro _ _ _ _
      simp only [InsertCall.Warm, hphase]
  · intro n input p a q hl hp hA hn
    subst hl
    cases does_of_next h.shared hW hA hp hok hn with
    | looks stands => exact ⟨h.shared, stands, fun k r _ _ hB => hB⟩
    | acquires waits vacant => exact h.acquires hW hp vacant
    | computes phase roundTrips => exact h.computes hp phase roundTrips
    | sets phase decoded => exact h.sets hp phase decoded
    | releases phase => exact h.releases hp phase
  · intro now a hl he
    subst hl
    obtain ⟨hle, rfl⟩ := cache_tick he
    obtain ⟨hlocks, hkey⟩ := undisturbed_surround hok
    refine ⟨⟨?_, ?_, ?_⟩,
      fun k r hk hB => ⟨hB.retries, ?_, ?_⟩⟩
    · cases hnull : (s.shared.redis.tick now).get (nullKey key) with
      | none => rfl
      | some mark =>
        have hmark := Expiring.get_of_tick hle hnull
        rw [h.shared.unmarked] at hmark
        cases hmark
    · intro absent
      exact h.shared.cold (hkey.symm.trans absent)
    · intro text there
      exact h.shared.warm text (hkey.symm.trans there)
    · intro absent
      have absent := hkey.symm.trans absent
      exact (hB.cold absent).congr rfl fun hlocked => ⟨rfl, hlocks absent k r hk hlocked⟩
    · intro text val there
      exact hB.warm text val (hkey.symm.trans there)

theorem Held.step (h : s.Invariant serde key) (hW : s.Held key)
    (hok : s.undisturbed serde key l = true) (hstep : s.step serde key l = some s') :
    s'.Held key := by
  obtain ⟨p, rfl, hp, rfl⟩ | ⟨n, input, p, a, q, rfl, hp, hn, rfl⟩ | ⟨now, a, rfl, he, rfl⟩ :=
    Threads.step_cases hstep
  · intro absent m hm
    obtain ⟨call, hcall, hlocked⟩ := hW absent m hm
    obtain ⟨hlt, -⟩ := List.getElem?_eq_some_iff.mp hcall
    exact ⟨call, (List.getElem?_append_left hlt).trans hcall, hlocked⟩
  · -- the holder that does not move keeps the lock
    have hkeep : ∀ m, s.shared.redis.get key = none → s.shared.lockedBy = some m →
        (∀ r, s.threads[n]? = some r → r.phase.locked = true → q.phase.locked = true) →
        ∃ call, (s.threads.set n q)[m]? = some call ∧ call.phase.locked = true := by
      intro m absent hm hown
      obtain ⟨call, hcall, hlocked⟩ := hW absent m hm
      by_cases hmn : m = n
      · subst hmn
        exact ⟨q, Threads.get_set_self hcall, hown call hcall hlocked⟩
      · exact ⟨call, (Threads.get_set_other hmn).trans hcall, hlocked⟩
    cases does_of_next h.shared hW (h.thread n p hp) hp hok hn with
    | looks stands locked =>
      intro absent m hm
      refine hkeep m absent hm ?_
      intro r hr hlocked
      cases hp.symm.trans hr
      exact locked absent hlocked
    | acquires waits vacant =>
      intro absent m hm
      cases hm
      exact ⟨_, Threads.get_set_self hp, rfl⟩
    | computes phase =>
      intro absent m hm
      obtain ⟨-, rfl, -⟩ := holder_of_compute h hp phase
      exact hkeep m absent hm fun _ _ _ => rfl
    | @sets guard val text secs phase =>
      intro absent
      have there : (s.shared.redis.put key text (some (seconds secs))).get key = some text :=
        RedisKeys.get_put_secs
      cases there.symm.trans absent
    | releases phase =>
      intro absent m hm
      have hkey : (s.shared.redis.safeRelease (lockKey key) p.lockValue).get key =
          s.shared.redis.get key := RedisKeys.get_safeRelease_of_ne (lockKey_ne_key key).symm
      refine hkeep m (hkey.symm.trans absent) hm ?_
      intro r hr hlocked
      cases hp.symm.trans hr
      rw [phase] at hlocked
      cases hlocked
  · obtain ⟨-, rfl⟩ := cache_tick he
    intro absent
    exact hW ((undisturbed_surround hok).2.symm.trans absent)

theorem Invariant.computed_le_one (h : s.Invariant serde key) (hW : s.Held key) :
    s.shared.computed.length ≤ 1 := by
  cases hk : s.shared.redis.get key with
  | some text =>
    obtain ⟨val, hcomputed, -⟩ := h.shared.warm text hk
    rw [hcomputed]
    exact Nat.le_refl _
  | none =>
    cases hm : s.shared.lockedBy with
    | none =>
      rw [h.shared.cold hk hm]
      exact Nat.zero_le _
    | some m =>
      obtain ⟨call, hcall, hlocked⟩ := hW hk m hm
      have hcold := (h.thread m call hcall).cold hk
      cases hphase : call.phase with
      | recheck =>
        rw [InsertCall.Cold, hphase] at hcold
        rw [hcold.2]
        exact Nat.zero_le _
      | compute guard =>
        rw [(holder_of_compute h hcall hphase).2.2.2]
        exact Nat.zero_le _
      | set guard val =>
        rw [(holder_of_set h hcall hphase).2.2]
        exact Nat.le_refl _
      | _ =>
        rw [hphase] at hlocked
        cases hlocked

theorem Invariant.executions (h : s.Invariant serde key) (hW : s.Held key) : s.executions ≤ 1 := by
  have howner : ∀ (n : Nat) (call : InsertCall T), s.threads[n]? = some call →
      call.phase.computing = true → s.shared.lockedBy = some n ∧ s.shared.computed = [] := by
    intro n call hn hc
    cases hphase : call.phase with
    | compute guard =>
      obtain ⟨-, -, howner, hcomputed⟩ := holder_of_compute h hn hphase
      exact ⟨howner.1, hcomputed⟩
    | _ =>
      rw [hphase] at hc
      cases hc
  have hle : (s.threads.countP fun call : InsertCall T => call.phase.computing) ≤ 1 := by
    refine Threads.countP_le_one ?_
    intro n m p q hn hm hp hq
    exact Option.some.inj ((howner n p hn hp).1.symm.trans (howner m q hm hq).1)
  rw [Inserts.executions]
  rcases Nat.eq_zero_or_pos (s.threads.countP fun call => call.phase.computing) with hzero | hpos
  · rw [hzero]
    exact h.computed_le_one hW
  · obtain ⟨call, hcall, hc⟩ := List.countP_pos_iff.mp hpos
    obtain ⟨k, hk⟩ := List.mem_iff_getElem?.mp hcall
    rw [(howner k call hk hc).2, List.length_nil, Nat.zero_add]
    exact hle

theorem Invariant.result (h : s.Invariant serde key) (hn : s.threads[n]? = some call)
    {r : Except CacheError T} (hr : call.phase.result = some r) :
    ∃ val, r = .ok val ∧ s.shared.computed = [.ok val] := by
  have hA := h.thread n call hn
  cases hphase : call.phase with
  | returned spawned r' =>
    rw [hphase] at hr
    cases hr
    cases hk : s.shared.redis.get key with
    | none =>
      have hcold := hA.cold hk
      rw [InsertCall.Cold, hphase] at hcold
      cases hcold
    | some text =>
      obtain ⟨val, hcomputed, hval⟩ := h.shared.warm text hk
      have hwarm := hA.warm text val hk hval
      rw [InsertCall.Warm, hphase] at hwarm
      exact ⟨val, hwarm, hcomputed⟩
  | _ =>
    rw [hphase] at hr
    cases hr

theorem invariant_reached (h0 : s₀.Initial key)
    (h : Reaches (step serde key) (fun s l => s.undisturbed serde key l = true) s₀ s) :
    s.Invariant serde key ∧ s.Held key := by
  have hinit : s₀.Invariant serde key ∧ s₀.Held key := by
    refine ⟨⟨⟨h0.unmarked, fun _ _ => h0.computed, ?_⟩, ?_⟩, ?_⟩
    · intro text there
      cases h0.absent.symm.trans there
    · intro n call hn
      rw [h0.threads] at hn
      cases hn
    · intro _ m hm
      cases h0.lockedBy.symm.trans hm
  exact h.invariant (I := fun s : Inserts T => s.Invariant serde key ∧ s.Held key) hinit
    fun _ _ _ hs hok hstep => ⟨hs.1.step hs.2 hok hstep, Held.step hs.1 hs.2 hok hstep⟩

theorem Invariant.computedOnce (h : s.Invariant serde key) (hW : s.Held key) :
    s.ComputedOnce := by
  refine ⟨h.executions hW, ?_⟩
  intro n call r hn hr
  obtain ⟨val, rfl, hcomputed⟩ := h.result hn hr
  have hle := h.executions hW
  rw [Inserts.executions, hcomputed] at hle ⊢
  refine ⟨?_, val, rfl, rfl⟩
  simp only [List.length_singleton] at hle ⊢
  omega

/-- However many calls run into one another, at most one computation is started, every call goes
on until it returns, and what it returns is the value of the one computation. -/
theorem computed_once (h0 : s₀.Initial key)
    (h : Reaches (step serde key) (fun s l => s.undisturbed serde key l = true) s₀ s) :
    s.ComputedOnce ∧ s.ReturnedOne ∧
      ∀ n call, s.threads[n]? = some call → s.Returns serde key n call := by
  obtain ⟨hinv, hW⟩ := invariant_reached h0 h
  have honce := hinv.computedOnce hW
  exact ⟨honce, honce.returnedOne, fun n call => returns⟩

def noValue : Inserts Bool := ⟨⟨⟨0, fun _ => none⟩, [], none⟩, []⟩

def boolSerde : Serde Bool :=
  ⟨fun b => some (if b then "true" else "false"),
    fun text => if text = "true" then some true else if text = "false" then some false else none⟩

/-- Call `n` sends its next `k` commands. -/
def commands (n k : Nat) : List (InsertLabel Bool) := List.replicate k (.step n (.redis .done))

/-- Both calls miss; the first one gets the lock, and the second one polls the key once. -/
def twoMiss : List (InsertLabel Bool) :=
  [.begin ⟨60, 5, 1, "a", .get⟩, .begin ⟨60, 5, 1, "b", .get⟩] ++ commands 0 2 ++ commands 1 2 ++
    commands 0 1 ++ commands 1 2 ++ commands 0 1 ++ [.step 0 (.computed (.ok true))] ++
    commands 0 1 ++ [.surround (seconds 1)] ++ commands 1 1 ++ commands 0 1

theorem computed_once_two : ∃ s,
    Reaches (step boolSerde "k") (fun s l => s.undisturbed boolSerde "k" l = true) noValue s ∧
      (s.threads.map fun call => call.left) = [0, 0] ∧ s.executions = 1 ∧
        ∃ val, s.shared.computed = [.ok val] ∧
          ∀ call ∈ s.threads, call.phase.result = some (.ok val) := by
  have hrun : Reaches (step boolSerde "k") (fun s l => s.undisturbed boolSerde "k" l = true) noValue
      ((run (step boolSerde "k") (fun s l => s.undisturbed boolSerde "k" l = true) noValue
        twoMiss).get (by decide +kernel)) :=
    reaches_run_get _
  obtain ⟨-, hone, -⟩ := computed_once ⟨rfl, rfl, rfl, rfl, rfl⟩ hrun
  refine ⟨_, hrun, by decide +kernel, hone ?_ ?_⟩
  · exact List.ne_nil_of_length_pos (by decide +kernel)
  · exact List.all_eq_true.mp (by decide +kernel)

end Inserts

end Webshelf
