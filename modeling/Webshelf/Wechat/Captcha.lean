import Webshelf.Lib.Threads
import Webshelf.Store.Redis
import Mathlib.Data.Bool.AllAny

/-!
# WeChat captchas

`CaptchaService` over `RedisCaptchaStore`, for one official account. The
captcha of an openid, its failed-attempts counter and the reverse index from
code to openid are three keys; a call sends one command after the other.
-/

namespace Webshelf

/-- What the characters of a code are drawn from. -/
def CHARSET : List Char := "ABCDEFGHJKMNPQRSTUVWXYZ23456789".toList

/-- A code as `generate_code` draws it. -/
def FromCharset (code : String) : Prop := ∀ c ∈ code.toList, c ∈ CHARSET

instance (code : String) : Decidable (FromCharset code) :=
  decidable_of_iff (code.toList.all fun c => decide (c ∈ CHARSET)) List.all_iff_forall_prop

/-- The value `{code}:{openid}`; a code has no `:`. -/
structure Captcha where
  code : String
  openid : String
  /-- The call of `generate` that stored it; not in Redis. -/
  issuedBy : Nat
  deriving DecidableEq

/-- The keys of an account, those of different openids apart; as strings the counter of `x` and
the captcha of `x:attempts` would be one key. -/
inductive WechatKey where
  /-- `wechat:{account_id}:captcha:{openid}` -/
  | captcha (openid : String)
  /-- The captcha's key with `:attempts`. -/
  | attempts (openid : String)
  /-- `code_index_key`: `wechat:{account_id}:code:{code}` -/
  | code (code : String)
  deriving DecidableEq

@[reducible] def WechatKey.Value : WechatKey → Type
  | captcha _ => Captcha
  | attempts _ => Nat
  | code _ => String

/-- The account's keys, and which call of `verify_for_openid` has consumed a captcha. -/
structure Wechat where
  redis : Expiring WechatKey WechatKey.Value
  takenBy : Captcha → Option Nat := fun _ => none

/-- The part of the configuration that `CaptchaService` reads. -/
structure LoginConfig where
  captchaTtlSecs : Nat := 300
  maxFailedAttempts : Nat := 5

inductive WechatError where
  | cooldownActive
  | captchaNotFound
  | captchaMismatch
  | tooManyAttempts
  | userNotBound
  | internal
  deriving DecidableEq

/-- `str::eq_ignore_ascii_case` -/
def eqIgnoreAsciiCase (a b : String) : Bool :=
  a.toList.map Char.toLower == b.toList.map Char.toLower

def LoginConfig.ttl (cfg : LoginConfig) : Time := seconds cfg.captchaTtlSecs

/-- The EXPIRE of `incr`. -/
def ATTEMPTS_TTL_SECS : Int := 600

namespace Wechat

def captcha (s : Wechat) (openid : String) : Option Captcha :=
  s.redis.get (.captcha openid)

def del (s : Wechat) (k : WechatKey) : Wechat := { s with redis := s.redis.del k }

/-- The number under the captcha's `:attempts` key. -/
def attempts (s : Wechat) (openid : String) : Nat :=
  (s.redis.get (.attempts openid)).getD 0

/-- `INCR` -/
def incr (s : Wechat) (openid : String) : Wechat :=
  { s with redis := s.redis.alter (.attempts openid) fun n => n.getD 0 + 1 }

/-- `CONSUME_CAPTCHA_SCRIPT`, run by call `n`. -/
def consume (s : Wechat) (n : Nat) (openid : String) : Wechat :=
  match s.captcha openid with
  | none => s
  | some taken =>
    { redis := ((s.redis.del (.captcha openid)).del (.attempts openid)).del (.code taken.code)
      takenBy := Function.update s.takenBy taken (some n) }

end Wechat

/-- What a call of `generate` does next. -/
inductive GenerateCaptcha where
  /-- The SET NX of `set_captcha_nx`. -/
  | setNx
  /-- The reverse index. -/
  | setIndex
  /-- The DEL of the counter. -/
  | resetAttempts
  /-- Returned the code. -/
  | issued
  | failed (e : WechatError)
  deriving DecidableEq

/-- Call `n` of `generate`, with the code it has drawn. -/
def generateCaptcha (cfg : LoginConfig) (n : Nat) (openid code : String) (s : Wechat) :
    GenerateCaptcha → RedisOutcome → Option (Wechat × GenerateCaptcha)
  | .setNx, outcome =>
    -- an expiry of 0 seconds is an error of the command
    if !outcome.runs || cfg.captchaTtlSecs == 0 then some (s, .failed .internal)
    else if (s.captcha openid).isSome then
      some (s, .failed (if outcome == .done then .cooldownActive else .internal))
    else some ({ s with redis := s.redis.put (.captcha openid) ⟨code, openid, n⟩ (some cfg.ttl) },
      if outcome == .done then .setIndex else .failed .internal)
  | .setIndex, outcome =>
    some (if outcome.runs then { s with redis := s.redis.put (.code code) openid (some cfg.ttl) }
      else s, .resetAttempts)
  | .resetAttempts, outcome =>
    some (if outcome.runs then s.del (.attempts openid) else s,
      match outcome.answer () (.ok ()) WechatError.internal with
      | .ok () => .issued
      | .error e => .failed e)
  | .issued, _ | .failed _, _ => none

/-- What a call of `verify_for_openid` does next; `stored` is the captcha it has
peeked at, `taken` the one it has consumed. -/
inductive VerifyForOpenid where
  | peek
  /-- The code did not match: the INCR of `incr_failed_attempts`. -/
  | incr (stored : Captcha)
  /-- The EXPIRE of `incr_failed_attempts`. -/
  | expire (stored : Captcha) (attempts : Nat)
  /-- The GET, and the three DELs of `delete_captcha`. -/
  | deletePeek (stored : Captcha)
  | deleteIndex (stored : Captcha) (code : String)
  | deleteKey (stored : Captcha)
  | deleteAttempts (stored : Captcha)
  /-- The code did match: the script of `consume_captcha`. -/
  | consume (stored : Captcha)
  | reset (stored taken : Captcha)
  /-- Returned `Ok(openid)`. -/
  | accepted (stored taken : Captcha)
  | rejected (stored : Captcha) (e : WechatError)
  | failed (e : WechatError)
  deriving DecidableEq

/-- Call `n` of `verify_for_openid`. -/
def verifyForOpenid (cfg : LoginConfig) (n : Nat) (openid code : String) (s : Wechat) :
    VerifyForOpenid → RedisOutcome → Option (Wechat × VerifyForOpenid)
  | .peek, outcome => some (s,
      match outcome.answer (s.captcha openid) (.ok none) WechatError.internal with
      | .error e => .failed e
      | .ok none => .failed .captchaNotFound
      | .ok (some stored) =>
        if eqIgnoreAsciiCase stored.code code then .consume stored else .incr stored)
  | .incr stored, outcome => some (if outcome.runs then s.incr openid else s,
      match outcome.answer (s.attempts openid + 1) (.error .internal) WechatError.internal with
      | .error e => .rejected stored e
      | .ok attempts => .expire stored attempts)
  | .expire stored attempts, outcome => some (
      if outcome.runs then
        { s with redis := s.redis.expire (.attempts openid) (seconds ATTEMPTS_TTL_SECS) }
      else s,
      match outcome.answer () (.error .internal) WechatError.internal with
      | .error e => .rejected stored e
      | .ok () =>
        if cfg.maxFailedAttempts ≤ attempts then .deletePeek stored
        else .rejected stored .captchaMismatch)
  | .deletePeek stored, outcome => some (s,
      match outcome.answer (s.captcha openid) (.ok none) WechatError.internal with
      | .error e => .rejected stored e
      | .ok none => .deleteKey stored
      | .ok (some peeked) => .deleteIndex stored peeked.code)
  | .deleteIndex stored code, outcome => some (if outcome.runs then s.del (.code code) else s,
      match outcome.answer () (.ok ()) WechatError.internal with
      | .error e => .rejected stored e
      | .ok () => .deleteKey stored)
  | .deleteKey stored, outcome => some (if outcome.runs then s.del (.captcha openid) else s,
      match outcome.answer () (.ok ()) WechatError.internal with
      | .error e => .rejected stored e
      | .ok () => .deleteAttempts stored)
  | .deleteAttempts stored, outcome => some (if outcome.runs then s.del (.attempts openid) else s,
      match outcome.answer () (.ok ()) WechatError.internal with
      | .error e => .rejected stored e
      | .ok () => .rejected stored .tooManyAttempts)
  | .consume stored, outcome => some (if outcome.runs then s.consume n openid else s,
      match outcome.answer (s.captcha openid) (.ok none) WechatError.internal with
      | .error e => .failed e
      | .ok none => .failed .captchaNotFound
      | .ok (some taken) => .reset stored taken)
  | .reset stored taken, outcome => some (if outcome.runs then s.del (.attempts openid) else s,
      match outcome.answer () (.ok ()) WechatError.internal with
      | .error e => .failed e
      | .ok () => .accepted stored taken)
  | .accepted _ _, _ | .rejected _ _, _ | .failed _, _ => none

/-- A call of the service with its arguments. -/
inductive CaptchaCall where
  | generate (openid code : String) (phase : GenerateCaptcha)
  | verify (openid code : String) (phase : VerifyForOpenid)
  deriving DecidableEq

/-- Calls of `generate` and `verify_for_openid` for the openids of one account,
while time goes on. -/
def captchaService (cfg : LoginConfig) : Threads.Program Wechat CaptchaCall RedisOutcome Time where
  initial
    | .generate _ _ phase => phase = .setNx
    | .verify _ _ phase => phase = .peek
  next n s call outcome := match call with
    | .generate openid code phase =>
      (generateCaptcha cfg n openid code s phase outcome).map fun (a, q) =>
        (a, .generate openid code q)
    | .verify openid code phase =>
      (verifyForOpenid cfg n openid code s phase outcome).map fun (a, q) =>
        (a, .verify openid code q)
  surround s now :=
    if s.redis.clock ≤ now then some { s with redis := s.redis.tick now } else none

end Webshelf
