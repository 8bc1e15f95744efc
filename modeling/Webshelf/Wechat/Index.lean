import Webshelf.Handlers.Auth
import Webshelf.Wechat.Issued

/-!
# Does the index of codes name the openid of each captcha?

A captcha stands under its openid and its code under the index, so two openids
with one code share an entry of the index. The calls run one after the other
here, with every command succeeding, while keys expire between them.
-/

namespace Webshelf

open Runs

/-- What the users table answers: `find_user_by_openid` and
`lookup_user_role_and_version`. -/
structure UserBindings where
  findUserByOpenid : String → Option UserId
  lookupUserRoleAndVersion : UserId → Option (String × Int)

/-- `VerifiedLogin` of the WeChat crate. -/
structure VerifiedLogin where
  openid : String
  userId : UserId

/-- A session that `wx_login` has issued. -/
structure WxSession where
  verified : VerifiedLogin
  token : JwtClaims

def invalidCaptcha : ApiError := .badRequest "Invalid or expired captcha code"

namespace Wechat

/-- A call on its own, every command succeeding. -/
def alone {π : Type} (next : Wechat → π → RedisOutcome → Option (Wechat × π)) :
    Nat → Wechat → π → Wechat × π
  | 0, s, p => (s, p)
  | fuel + 1, s, p => match next s p .done with
    | none => (s, p)
    | some (a, q) => alone next fuel a q

def generate (cfg : LoginConfig) (n : Nat) (openid code : String) (s : Wechat) :
    Wechat × GenerateCaptcha :=
  alone (generateCaptcha cfg n openid code) 3 s .setNx

def verify (cfg : LoginConfig) (n : Nat) (openid code : String) (s : Wechat) :
    Wechat × VerifyForOpenid :=
  alone (verifyForOpenid cfg n openid code) 7 s .peek

/-- `LoginService::verify_and_login` -/
def verifyAndLogin (cfg : LoginConfig) (users : UserBindings) (n : Nat) (openid code : String)
    (s : Wechat) : Wechat × Except WechatError VerifiedLogin :=
  match s.verify cfg n openid code with
  | (a, .accepted _ _) => (a, match users.findUserByOpenid openid with
    | none => .error .userNotBound
    | some userId => .ok ⟨openid, userId⟩)
  | (a, .rejected _ e) | (a, .failed e) => (a, .error e)
  | (a, _) => (a, .error .internal)

/-- `wx_login_inner` -/
def wxLogin (cfg : LoginConfig) (settings : Settings) (users : UserBindings) (n : Nat)
    (code : String) (s : Wechat) : Wechat × Except ApiError WxSession :=
  match s.redis.get (.code code) with
  | none => (s, .error invalidCaptcha)
  | some openid => match s.verifyAndLogin cfg users n openid code with
    | (a, .error _) => (a, .error invalidCaptcha)
    | (a, .ok verified) => (a, match users.lookupUserRoleAndVersion verified.userId with
      | none => .error (.internal "An unexpected error occurred")
      | some (role, tokenVersion) => .ok ⟨verified, generateToken a.redis.clock verified.userId
          role settings.jwtExpirySeconds false tokenVersion⟩)

end Wechat

inductive CaptchaEvent where
  | generate (openid code : String)
  | verify (openid code : String)
  | wxLogin (settings : Settings) (users : UserBindings) (code : String)
  /-- Time passes, and keys expire. -/
  | tick (now : Time)

/-- One account, with the codes `generate` has returned and their openids. -/
structure WechatAccount where
  wechat : Wechat
  issued : List (String × String) := []

namespace WechatAccount

def step (cfg : LoginConfig) (s : WechatAccount) : CaptchaEvent → Option WechatAccount
  | .generate openid code =>
    let (a, q) := s.wechat.generate cfg s.issued.length openid code
    some ⟨a, if q = .issued then (code, openid) :: s.issued else s.issued⟩
  | .verify openid code =>
    some { s with wechat := (s.wechat.verify cfg s.issued.length openid code).1 }
  | .wxLogin settings users code =>
    some { s with wechat := (s.wechat.wxLogin cfg settings users s.issued.length code).1 }
  | .tick now =>
    if s.wechat.redis.clock ≤ now then
      some { s with wechat := { s.wechat with redis := s.wechat.redis.tick now } }
    else none

/-- Every active captcha has its code in the index, under its openid; and a
code logs in no openid but the one it was issued to. -/
def Integrity (cfg : LoginConfig) (s : WechatAccount) : Prop :=
  (∀ openid c, s.wechat.captcha openid = some c →
    s.wechat.redis.get (.code c.code) = some openid) ∧
  ∀ settings users n code openid session, (code, openid) ∈ s.issued →
    (s.wechat.wxLogin cfg settings users n code).2 = .ok session →
      session.verified.openid = openid

/-- `generate` stores no code that has been issued to another openid. -/
def codesApart (cfg : LoginConfig) (s : WechatAccount) : CaptchaEvent → Bool
  | .generate openid code => cfg.captchaTtlSecs == 0 || (s.wechat.captcha openid).isSome ||
    s.issued.all fun (code', openid') => code' != code || openid' == openid
  | _ => true

end WechatAccount

namespace Wechat

variable {cfg : LoginConfig} {n : Nat} {s a : Wechat} {openid code : String} {c : Captcha}

theorem alone_some {π : Type} {next : Wechat → π → RedisOutcome → Option (Wechat × π)}
    {fuel : Nat} {p q : π} (h : next s p .done = some (a, q)) :
    alone next (fuel + 1) s p = alone next fuel a q := by
  rw [alone, h]

theorem alone_none {π : Type} {next : Wechat → π → RedisOutcome → Option (Wechat × π)}
    {fuel : Nat} {p : π} (h : next s p .done = none) : alone next fuel s p = (s, p) := by
  cases fuel with
  | zero => rfl
  | succ fuel => rw [alone, h]

/-- The counter after a wrong guess. -/
def guess (s : Wechat) (openid : String) : Wechat :=
  { s.incr openid with
    redis := (s.incr openid).redis.expire (.attempts openid) (seconds ATTEMPTS_TTL_SECS) }

theorem entry_guess {k : WechatKey} (h : ∀ o, k ≠ .attempts o) :
    (s.guess openid).redis.entry k = s.redis.entry k :=
  (Expiring.entry_write_of_ne (h openid)).trans (Expiring.entry_write_of_ne (h openid))

theorem captcha_guess : (s.guess openid).captcha openid = s.captcha openid :=
  Expiring.get_congr (entry_guess nofun) rfl

/-! ### The captcha of an openid -/

theorem captcha_none (h : s.redis.entry (.captcha openid) = none) : s.captcha openid = none := by
  rw [captcha, Expiring.get, h]
  rfl

theorem captcha_there {deadline : Time}
    (h : s.redis.entry (.captcha openid) = some (c, some deadline))
    (htime : s.redis.clock ≤ deadline) : s.captcha openid = some c :=
  Expiring.get_eq_some.mpr ⟨_, h, decide_eq_true htime⟩

theorem captcha_expired {deadline : Time}
    (h : s.redis.entry (.captcha openid) = some (c, some deadline))
    (hlate : deadline < s.redis.clock) : s.captcha openid = none := by
  have hout : Expiring.inTime s.redis.clock (some deadline) = false :=
    decide_eq_false (Int.not_le.mpr hlate)
  rw [captcha, Expiring.get, h, Option.bind_some, hout]
  rfl

/-- It is gone when it has been accepted. -/
theorem entry_captcha_accepted (h : s.captcha openid = some c) :
    ((s.consume n openid).del (.attempts openid)).redis.entry (.captcha openid) = none := by
  rw [consume_some h]
  exact (Expiring.entry_del_of_ne (by nofun)).trans ((Expiring.entry_del_of_ne (by nofun)).trans
    ((Expiring.entry_del_of_ne (by nofun)).trans Expiring.entry_del_self))

/-- It is gone when it has been missed too often. -/
theorem entry_captcha_deleted :
    ((((s.guess openid).del (.code code)).del (.captcha openid)).del
      (.attempts openid)).redis.entry (.captcha openid) = none :=
  (Expiring.entry_del_of_ne (by nofun)).trans Expiring.entry_del_self

/-! ### A call of `verify_for_openid` on its own -/

theorem verify_of_vacant (h : s.captcha openid = none) :
    s.verify cfg n openid code = (s, .failed .captchaNotFound) := by
  have hpeek : verifyForOpenid cfg n openid code s .peek .done =
      some (s, .failed .captchaNotFound) := by
    simp [verifyForOpenid, RedisOutcome.answer, h]
  rw [verify, alone_some hpeek, alone_none rfl]

theorem verify_of_match (h : s.captcha openid = some c)
    (hm : eqIgnoreAsciiCase c.code code = true) :
    s.verify cfg n openid code =
      ((s.consume n openid).del (.attempts openid), .accepted c c) := by
  have hpeek : verifyForOpenid cfg n openid code s .peek .done = some (s, .consume c) := by
    simp [verifyForOpenid, RedisOutcome.answer, h, hm]
  have hconsume : verifyForOpenid cfg n openid code s (.consume c) .done =
      some (s.consume n openid, .reset c c) := by
    simp [verifyForOpenid, RedisOutcome.answer, RedisOutcome.runs, h]
  rw [verify, alone_some hpeek, alone_some hconsume, alone_some rfl, alone_none rfl]
  rfl

theorem verify_of_mismatch (h : s.captcha openid = some c)
    (hm : eqIgnoreAsciiCase c.code code = false) :
    s.verify cfg n openid code =
      if cfg.maxFailedAttempts ≤ s.attempts openid + 1 then
        ((((s.guess openid).del (.code c.code)).del (.captcha openid)).del (.attempts openid),
          .rejected c .tooManyAttempts)
      else (s.guess openid, .rejected c .captchaMismatch) := by
  have hpeek : verifyForOpenid cfg n openid code s .peek .done = some (s, .incr c) := by
    simp [verifyForOpenid, RedisOutcome.answer, h, hm]
  have hexpire : verifyForOpenid cfg n openid code (s.incr openid)
      (.expire c (s.attempts openid + 1)) .done = some (s.guess openid,
        if cfg.maxFailedAttempts ≤ s.attempts openid + 1 then .deletePeek c
        else .rejected c .captchaMismatch) := rfl
  rw [verify, alone_some hpeek, alone_some rfl]
  simp only [RedisOutcome.answer, RedisOutcome.runs, if_true]
  rw [alone_some hexpire]
  split
  · have hdelete : verifyForOpenid cfg n openid code (s.guess openid) (.deletePeek c) .done =
        some (s.guess openid, .deleteIndex c c.code) := by
      simp [verifyForOpenid, RedisOutcome.answer, captcha_guess, h]
    rw [alone_some hdelete, alone_some rfl, alone_some rfl, alone_some rfl, alone_none rfl]
    rfl
  · rw [alone_none rfl]

/-- Seven commands are enough. -/
theorem verify_finished {outcome : RedisOutcome} :
    verifyForOpenid cfg n openid code (s.verify cfg n openid code).1
      (s.verify cfg n openid code).2 outcome = none := by
  cases hc : s.captcha openid with
  | none =>
    rw [verify_of_vacant hc]
    rfl
  | some c =>
    by_cases hm : eqIgnoreAsciiCase c.code code = true
    · rw [verify_of_match hc hm]
      rfl
    · rw [verify_of_mismatch hc (Bool.eq_false_iff.mpr hm)]
      split <;> rfl

/-- A call of `verify_for_openid` leaves the keys that are not counters as they
are, or takes its captcha away together with the index entry of the code. -/
inductive Verified (openid : String) (s a : Wechat) : Prop
  | same (clock : a.redis.clock = s.redis.clock)
      (entry : ∀ k, (∀ o, k ≠ .attempts o) → a.redis.entry k = s.redis.entry k)
  | removed {c : Captcha} (there : s.captcha openid = some c)
      (clock : a.redis.clock = s.redis.clock)
      (captcha : a.redis.entry (.captcha openid) = none)
      (index : a.redis.entry (.code c.code) = none)
      (entry : ∀ k, (∀ o, k ≠ .attempts o) → k ≠ .captcha openid → k ≠ .code c.code →
        a.redis.entry k = s.redis.entry k)

theorem verified : Verified openid s (s.verify cfg n openid code).1 := by
  cases hc : s.captcha openid with
  | none =>
    rw [verify_of_vacant hc]
    exact .same rfl fun _ _ => rfl
  | some c =>
    by_cases hm : eqIgnoreAsciiCase c.code code = true
    · have hgone := @entry_captcha_accepted n s openid c hc
      rw [verify_of_match hc hm]
      rw [consume_some hc] at hgone ⊢
      refine .removed hc rfl hgone ?_ ?_
      · exact (Expiring.entry_del_of_ne (by nofun)).trans Expiring.entry_del_self
      · intro k hk hcaptcha hindex
        exact (Expiring.entry_del_of_ne (hk _)).trans ((Expiring.entry_del_of_ne hindex).trans
          ((Expiring.entry_del_of_ne (hk _)).trans (Expiring.entry_del_of_ne hcaptcha)))
    · rw [verify_of_mismatch hc (Bool.eq_false_iff.mpr hm)]
      split
      · refine .removed hc rfl entry_captcha_deleted ?_ ?_
        · exact (Expiring.entry_del_of_ne (by nofun)).trans
            ((Expiring.entry_del_of_ne (by nofun)).trans Expiring.entry_del_self)
        · intro k hk hcaptcha hindex
          exact (Expiring.entry_del_of_ne (hk _)).trans ((Expiring.entry_del_of_ne hcaptcha).trans
            ((Expiring.entry_del_of_ne hindex).trans (entry_guess hk)))
      · exact .same rfl fun k hk => entry_guess hk

/-- It adds nothing to the index. -/
theorem Verified.index {openid' : String} (h : Verified openid s a)
    (hi : a.redis.get (.code code) = some openid') : s.redis.get (.code code) = some openid' := by
  cases h with
  | same clock entry =>
    exact (Expiring.get_congr (entry (.code code) (by simp)) clock).symm.trans hi
  | @removed c there clock captcha index entry =>
    by_cases hcode : code = c.code
    · subst hcode
      have hi : a.redis.get (.code c.code) = some openid' := hi
      rw [Expiring.get, index] at hi
      cases hi
    · have hne : (WechatKey.code code) ≠ .code c.code := fun h => hcode (WechatKey.code.inj h)
      have hentry := entry (.code code) (by simp) (by simp) hne
      exact (Expiring.get_congr hentry clock).symm.trans hi

theorem verifyAndLogin_fst {users : UserBindings} :
    (s.verifyAndLogin cfg users n openid code).1 = (s.verify cfg n openid code).1 := by
  rw [verifyAndLogin]
  split <;> rename_i h <;> rw [h]

theorem verifyAndLogin_openid {users : UserBindings} {verified : VerifiedLogin}
    (h : (s.verifyAndLogin cfg users n openid code).2 = .ok verified) :
    verified.openid = openid := by
  rw [verifyAndLogin] at h
  split at h
  · simp only at h
    split at h
    · cases h
    · cases h
      rfl
  all_goals cases h

/-- `wx_login` changes the keys as its call of `verify_for_openid` does. -/
theorem wxLogin_fst {settings : Settings} {users : UserBindings} :
    (s.wxLogin cfg settings users n code).1 = s ∨ ∃ openid,
      (s.wxLogin cfg settings users n code).1 = (s.verify cfg n openid code).1 := by
  rw [wxLogin]
  split
  · exact .inl rfl
  · rename_i openid _
    refine .inr ⟨openid, ?_⟩
    rw [← @verifyAndLogin_fst cfg n s openid code users]
    split <;> rename_i h <;> rw [h]

/-- A session is for the openid that the index gives. -/
theorem wxLogin_session {settings : Settings} {users : UserBindings} {session : WxSession}
    (h : (s.wxLogin cfg settings users n code).2 = .ok session) :
    s.redis.get (.code code) = some session.verified.openid := by
  rw [wxLogin] at h
  split at h
  · cases h
  · rename_i openid hindex
    split at h
    · cases h
    · rename_i a verified hverified
      simp only at h
      split at h
      · cases h
      · cases h
        rw [hindex, verifyAndLogin_openid (congrArg Prod.snd hverified)]

/-! ### A call of `generate` on its own -/

/-- The keys of a new captcha. -/
def issue (s : Wechat) (cfg : LoginConfig) (c : Captcha) : Wechat :=
  { s.store cfg c with
    redis := ((s.store cfg c).redis.put (.code c.code) c.openid (some cfg.ttl)).del
      (.attempts c.openid) }

theorem generate_zero (h : cfg.captchaTtlSecs = 0) :
    s.generate cfg n openid code = (s, .failed .internal) := by
  have hset : generateCaptcha cfg n openid code s .setNx .done =
      some (s, .failed .internal) := by simp [generateCaptcha, h]
  rw [generate, alone_some hset, alone_none rfl]

theorem generate_there (h : cfg.captchaTtlSecs ≠ 0) (hc : s.captcha openid = some c) :
    s.generate cfg n openid code = (s, .failed .cooldownActive) := by
  have hset : generateCaptcha cfg n openid code s .setNx .done =
      some (s, .failed .cooldownActive) := by simp [generateCaptcha, RedisOutcome.runs, h, hc]
  rw [generate, alone_some hset, alone_none rfl]

theorem generate_vacant (h : cfg.captchaTtlSecs ≠ 0) (hc : s.captcha openid = none) :
    s.generate cfg n openid code = (s.issue cfg ⟨code, openid, n⟩, .issued) := by
  have hset : generateCaptcha cfg n openid code s .setNx .done =
      some (s.store cfg ⟨code, openid, n⟩, .setIndex) := by
    simp [generateCaptcha, RedisOutcome.runs, h, hc, store]
  rw [generate, alone_some hset, alone_some rfl, alone_some rfl]
  rfl

theorem generate_cases : (∃ e, s.generate cfg n openid code = (s, .failed e)) ∨
    cfg.captchaTtlSecs ≠ 0 ∧ s.captcha openid = none ∧
      s.generate cfg n openid code = (s.issue cfg ⟨code, openid, n⟩, .issued) := by
  by_cases httl : cfg.captchaTtlSecs = 0
  · exact .inl ⟨_, generate_zero httl⟩
  · cases hc : s.captcha openid with
    | some c => exact .inl ⟨_, generate_there httl hc⟩
    | none => exact .inr ⟨httl, rfl, generate_vacant httl hc⟩

end Wechat

namespace WechatAccount

variable {cfg : LoginConfig} {s s' s₀ : WechatAccount} {e : CaptchaEvent}

/-- An account before its first captcha. -/
structure Initial (s : WechatAccount) : Prop where
  keys : ∀ k, s.wechat.redis.get k = none
  issued : s.issued = []

/-- What an event does to the account. -/
inductive Does (cfg : LoginConfig) (s : WechatAccount) : CaptchaEvent → WechatAccount → Prop
  | same {e : CaptchaEvent} : Does cfg s e s
  | issue {openid code : String} (lives : cfg.captchaTtlSecs ≠ 0)
      (vacant : s.wechat.captcha openid = none) : Does cfg s (.generate openid code)
        ⟨s.wechat.issue cfg ⟨code, openid, s.issued.length⟩, (code, openid) :: s.issued⟩
  | verified {e : CaptchaEvent} {openid : String} {a : Wechat}
      (verified : Wechat.Verified openid s.wechat a) : Does cfg s e { s with wechat := a }
  | tick {now : Time} (later : s.wechat.redis.clock ≤ now) : Does cfg s (.tick now)
      { s with wechat := { s.wechat with redis := s.wechat.redis.tick now } }

theorem does_of_step (hstep : s.step cfg e = some s') : Does cfg s e s' := by
  cases e with
  | generate openid code =>
    rcases @Wechat.generate_cases cfg s.issued.length s.wechat openid code with
      ⟨e, hg⟩ | ⟨httl, hvacant, hg⟩
    · simp only [step, hg, reduceCtorEq, if_false] at hstep
      cases hstep
      exact .same
    · simp only [step, hg, if_true] at hstep
      cases hstep
      exact .issue httl hvacant
  | verify openid code =>
    cases hstep
    exact .verified Wechat.verified
  | wxLogin settings users code =>
    cases hstep
    rcases @Wechat.wxLogin_fst cfg s.issued.length s.wechat code settings users with
      hsame | ⟨openid, hverify⟩
    · rw [hsame]
      exact .same
    · rw [hverify]
      exact .verified Wechat.verified
  | tick now =>
    simp only [step] at hstep
    split at hstep
    · rename_i hle
      cases hstep
      exact .tick hle
    · cases hstep

/-- Every captcha that is there has an index entry that stays as long as it does. -/
structure Indexed (s : WechatAccount) : Prop where
  captcha : ∀ openid c d, s.wechat.redis.entry (.captcha openid) = some (c, d) →
    Expiring.inTime s.wechat.redis.clock d = true →
    (c.code, openid) ∈ s.issued ∧ ∃ d', s.wechat.redis.entry (.code c.code) = some (openid, d') ∧
      ∀ now, Expiring.inTime now d = true → Expiring.inTime now d' = true
  named : ∀ code openid, s.wechat.redis.get (.code code) = some openid → (code, openid) ∈ s.issued
  issued : ∀ code openid openid', (code, openid) ∈ s.issued → (code, openid') ∈ s.issued →
    openid = openid'

theorem Indexed.verified {openid : String} {a : Wechat} (h : s.Indexed)
    (hverified : Wechat.Verified openid s.wechat a) : Indexed { s with wechat := a } := by
  have hnamed : ∀ code openid', a.redis.get (.code code) = some openid' →
      (code, openid') ∈ s.issued :=
    fun code openid' hi => h.named code openid' (hverified.index hi)
  cases hverified with
  | same clock entry =>
    refine ⟨?_, hnamed, h.issued⟩
    intro openid' c d hc hd
    rw [entry (.captcha openid') (by simp)] at hc
    rw [clock] at hd
    obtain ⟨hissued, d', hd', hle⟩ := h.captcha openid' c d hc hd
    exact ⟨hissued, d', (entry (.code c.code) (by simp)).trans hd', hle⟩
  | @removed c there clock captcha index entry =>
    refine ⟨?_, hnamed, h.issued⟩
    intro openid' c' d hc hd
    by_cases ho : openid' = openid
    · subst ho
      rw [captcha] at hc
      cases hc
    · have hne : (WechatKey.captcha openid') ≠ .captcha openid := by simpa using ho
      rw [entry (.captcha openid') (by simp) hne (by simp)] at hc
      rw [clock] at hd
      obtain ⟨hissued, d', hd', hle⟩ := h.captcha openid' c' d hc hd
      -- the other captcha has another code, as it has been issued to another openid
      have hcode : (WechatKey.code c'.code) ≠ .code c.code := by
        intro heq
        obtain ⟨d₀, hentry, hd₀⟩ := Expiring.get_eq_some.mp there
        have hissued' := (h.captcha openid c d₀ hentry hd₀).1
        have hsame : c'.code = c.code := WechatKey.code.inj heq
        rw [hsame] at hissued
        exact ho (h.issued _ _ _ hissued hissued')
      exact ⟨hissued, d', (entry (.code c'.code) (by simp) (by simp) hcode).trans hd', hle⟩

theorem Indexed.issue {openid code : String} {n : Nat} (h : s.Indexed)
    (hapart : ∀ openid', (code, openid') ∈ s.issued → openid' = openid) :
    Indexed ⟨s.wechat.issue cfg ⟨code, openid, n⟩, (code, openid) :: s.issued⟩ := by
  have hindex : (s.wechat.issue cfg ⟨code, openid, n⟩).redis.entry (.code code) =
      some (openid, some (s.wechat.redis.clock + cfg.ttl)) :=
    (Expiring.entry_del_of_ne (by nofun)).trans Expiring.entry_put_self
  have hother : ∀ k : WechatKey, k ≠ .captcha openid → k ≠ .code code → (∀ o, k ≠ .attempts o) →
      (s.wechat.issue cfg ⟨code, openid, n⟩).redis.entry k = s.wechat.redis.entry k :=
    fun k hcaptcha hcode hk => (Expiring.entry_del_of_ne (hk _)).trans
      ((Expiring.entry_put_of_ne hcode).trans (Expiring.entry_put_of_ne hcaptcha))
  refine ⟨?_, ?_, ?_⟩
  · intro openid' c d hc hd
    by_cases ho : openid' = openid
    · subst ho
      have hentry : (s.wechat.issue cfg ⟨code, openid', n⟩).redis.entry (.captcha openid') =
          some (⟨code, openid', n⟩, some (s.wechat.redis.clock + cfg.ttl)) :=
        (Expiring.entry_del_of_ne (by nofun)).trans
          ((Expiring.entry_put_of_ne (by nofun)).trans Expiring.entry_put_self)
      cases hentry.symm.trans hc
      exact ⟨List.mem_cons_self, _, hindex, fun _ h => h⟩
    · have hne : (WechatKey.captcha openid') ≠ .captcha openid := by simpa using ho
      obtain ⟨hissued, d', hd', hle⟩ :=
        h.captcha openid' c d ((hother _ hne (by nofun) (by nofun)).symm.trans hc) hd
      have hcode : (WechatKey.code c.code) ≠ .code code := by
        intro heq
        have hsame : c.code = code := WechatKey.code.inj heq
        exact ho (hapart openid' (hsame ▸ hissued))
      exact ⟨List.mem_cons_of_mem _ hissued, d',
        (hother _ (by nofun) hcode (by nofun)).trans hd', hle⟩
  · intro code' openid' hi
    by_cases hcode : code' = code
    · subst hcode
      obtain ⟨d, hentry⟩ := Expiring.entry_of_get hi
      cases hindex.symm.trans hentry
      exact List.mem_cons_self
    · have hne : (WechatKey.code code') ≠ .code code := fun h => hcode (WechatKey.code.inj h)
      have hget := Expiring.get_congr (hother _ (by nofun) hne (by nofun)) rfl
      exact List.mem_cons_of_mem _ (h.named code' openid' (hget.symm.trans hi))
  · intro code' o o' ho ho'
    rcases List.mem_cons.mp ho with ho | ho <;> rcases List.mem_cons.mp ho' with ho' | ho'
    · cases ho
      cases ho'
      rfl
    · cases ho
      exact (hapart o' ho').symm
    · cases ho'
      exact hapart o ho
    · exact h.issued code' o o' ho ho'

theorem Indexed.tick {now : Time} (h : s.Indexed) (hle : s.wechat.redis.clock ≤ now) :
    Indexed { s with wechat := { s.wechat with redis := s.wechat.redis.tick now } } :=
  ⟨fun openid c d hc hd => h.captcha openid c d hc (Expiring.inTime_mono hle hd),
    fun code openid hi => h.named code openid (Expiring.get_of_tick hle hi), h.issued⟩

theorem Indexed.step (h : s.Indexed) (hok : s.codesApart cfg e = true)
    (hstep : s.step cfg e = some s') : s'.Indexed := by
  cases does_of_step hstep with
  | same => exact h
  | @issue openid code httl hvacant =>
    refine h.issue ?_
    intro openid' hi
    simp only [codesApart, hvacant, Option.isSome_none, Bool.or_false,
      beq_eq_false_iff_ne.mpr httl, Bool.false_or] at hok
    simpa using List.all_eq_true.mp hok _ hi
  | verified hverified => exact h.verified hverified
  | tick hle => exact h.tick hle

theorem Indexed.integrity (h : s.Indexed) : s.Integrity cfg := by
  constructor
  · intro openid c hc
    obtain ⟨d, hentry, hd⟩ := Expiring.get_eq_some.mp hc
    obtain ⟨-, d', hd', hle⟩ := h.captcha openid c d hentry hd
    exact Expiring.get_eq_some.mpr ⟨d', hd', hle _ hd⟩
  · intro settings users n code openid session hissued hs
    have hnamed := h.named code _ (Wechat.wxLogin_session hs)
    exact h.issued code _ _ hnamed hissued

theorem code_index_integrity (h0 : s₀.Initial)
    (h : Reaches (step cfg) (fun s e => s.codesApart cfg e = true) s₀ s) : s.Integrity cfg := by
  have hinit : s₀.Indexed := by
    refine ⟨?_, ?_, ?_⟩
    · intro openid c d hc hd
      have hget : s₀.wechat.redis.get (.captcha openid) = some c :=
        Expiring.get_eq_some.mpr ⟨d, hc, hd⟩
      rw [h0.keys] at hget
      cases hget
    · intro code openid hi
      rw [h0.keys] at hi
      cases hi
    · intro code o o' ho _
      rw [h0.issued] at ho
      cases ho
  exact (h.invariant hinit fun _ _ _ hs hok hstep => hs.step hok hstep).integrity

def noKeys : WechatAccount := ⟨⟨⟨0, fun _ => none⟩, fun _ => none⟩, []⟩

theorem initial_noKeys : noKeys.Initial := ⟨fun _ => rfl, rfl⟩

/-- Two openids get their captchas; the first one logs in, and gets the code of its
captcha once more. -/
def twoOpenids (users : UserBindings) (settings : Settings) : List CaptchaEvent :=
  [.generate "ada" "QWERT", .generate "bob" "ZXCVB", .tick (seconds 10),
    .wxLogin settings users "QWERT", .generate "ada" "QWERT"]

theorem code_index_integrity_two :
    ∃ s, Reaches (step {}) (fun s e => s.codesApart {} e = true) noKeys s ∧
      (s.wechat.captcha "ada").map Captcha.issuedBy = some 2 ∧ s.issued.length = 3 ∧
      s.Integrity {} := by
  have hrun : Reaches (step {}) (fun s e => s.codesApart {} e = true) noKeys
      ((run (step {}) (fun s e => s.codesApart {} e = true) noKeys
        (twoOpenids ⟨fun _ => some 1, fun _ => some ("user", 1)⟩ ⟨id, 3600, 86400, 86400⟩)).get
        (by decide +kernel)) :=
    reaches_run_get _
  exact ⟨_, hrun, by decide +kernel, by decide +kernel, code_index_integrity initial_noKeys hrun⟩

/-- Two openids draw one code: the index keeps the second one. -/
theorem code_index_overwritten :
    ¬ ∀ cfg s₀ s, Initial s₀ → Reaches (step cfg) Free s₀ s → s.Integrity cfg := by
  intro h
  have hrun : Reaches (step {}) Free noKeys
      ((run (step {}) Free noKeys [.generate "ada" "QWERT", .generate "bob" "QWERT"]).get
        (by decide +kernel)) :=
    reaches_run_get _
  have hindex := (h {} noKeys _ initial_noKeys hrun).1 "ada" ⟨"QWERT", "ada", 0⟩
    (by decide +kernel)
  exact absurd hindex (by decide +kernel)

end WechatAccount

end Webshelf
