import Webshelf.Wechat.Index

/-!
# Can a captcha be requested again after the cooldown?

`generate` refuses while a captcha of the openid is there. Calls for one openid come one after the
other, every command succeeding.
-/

namespace Webshelf

open Runs

/-- With the minimum interval between two requests, which nothing reads. -/
structure ResendConfig extends LoginConfig where
  resendCooldownSecs : Nat := 60

def ResendConfig.cooldown (cfg : ResendConfig) : Time := seconds cfg.resendCooldownSecs

/-- A call for the openid. -/
inductive OpenidCall where
  | generate (code : String)
  | verify (code : String)

inductive OpenidAnswer where
  | generate (answer : GenerateCaptcha)
  | verify (answer : VerifyForOpenid)
  deriving DecidableEq

/-- The account, with what the calls returned and when, the latest in front. -/
structure Requests where
  wechat : Wechat
  past : List (Time × OpenidAnswer) := []

namespace Requests

/-- A call made at `time`. -/
def call (cfg : ResendConfig) (openid : String) (n : Nat) (s : Wechat) :
    OpenidCall → Wechat × OpenidAnswer
  | .generate code => (s.generate cfg.toLoginConfig n openid code).map id .generate
  | .verify code => (s.verify cfg.toLoginConfig n openid code).map id .verify

def step (cfg : ResendConfig) (openid : String) (g : Requests) (request : Time × OpenidCall) :
    Option Requests :=
  if g.wechat.redis.clock ≤ request.1 then
    let (a, answer) := call cfg openid g.past.length
      { g.wechat with redis := g.wechat.redis.tick request.1 } request.2
    some ⟨a, (request.1, answer) :: g.past⟩
  else none

/-- When the latest captcha was generated that was neither consumed nor invalidated. -/
def standing : List (Time × OpenidAnswer) → Option Time
  | [] => none
  | (time, .generate .issued) :: _ => some time
  | (_, .verify (.accepted _ _)) :: _ => none
  | (_, .verify (.rejected _ .tooManyAttempts)) :: _ => none
  | _ :: past => standing past

/-- `generate` refuses exactly during the configured cooldown. -/
def CoolsDown (cfg : ResendConfig) (past : List (Time × OpenidAnswer)) : Prop :=
  ∀ time answer before, (time, .generate answer) :: before <:+ past →
    (answer = .failed .cooldownActive ↔
      ∃ start, standing before = some start ∧ time < start + cfg.cooldown)

/-- Where `generate` is called, the lifetime of the captcha has passed if and only if the cooldown
has. -/
def Together (cfg : ResendConfig) (past : List (Time × OpenidAnswer)) : Prop :=
  ∀ time answer before, (time, .generate answer) :: before <:+ past →
    ∀ start, standing before = some start →
      (time ≤ start + cfg.ttl ↔ time < start + cfg.cooldown)

variable {cfg : ResendConfig} {openid code : String} {g g' : Requests} {request : Time × OpenidCall}
  {past : List (Time × OpenidAnswer)} {time : Time}

/-! ### One call -/

/-- When a call begins. -/
def arrived (g : Requests) (time : Time) : Wechat :=
  { g.wechat with redis := g.wechat.redis.tick time }

theorem step_cases (h : g.step cfg openid request = some g') :
    g.wechat.redis.clock ≤ request.1 ∧ ∃ n, g' =
      ⟨(call cfg openid n (g.arrived request.1) request.2).1,
        (request.1, (call cfg openid n (g.arrived request.1) request.2).2) :: g.past⟩ := by
  unfold step at h
  split at h
  · rename_i hle
    exact ⟨hle, _, (Option.some.inj h).symm⟩
  · cases h

/-- The captcha is there until its lifetime has passed. -/
structure Tracks (cfg : ResendConfig) (openid : String) (g : Requests) : Prop where
  stands : ∀ start, standing g.past = some start → cfg.captchaTtlSecs ≠ 0 ∧
    ∃ c, g.wechat.redis.entry (.captcha openid) = some (c, some (start + cfg.ttl))
  away : standing g.past = none → g.wechat.captcha openid = none

theorem Tracks.captcha (h : Tracks cfg openid g) (hle : g.wechat.redis.clock ≤ time) :
    (∃ c, (g.arrived time).captcha openid = some c) ↔
      ∃ start, standing g.past = some start ∧ time ≤ start + cfg.ttl := by
  cases hstanding : standing g.past with
  | none =>
    apply iff_of_false
    · rintro ⟨c, hc⟩
      cases (h.away hstanding).symm.trans (Expiring.get_of_tick hle hc)
    · rintro ⟨start, hstart, _⟩
      cases hstart
  | some start =>
    obtain ⟨_, c, hc⟩ := h.stands start hstanding
    constructor
    · rintro ⟨c', hc'⟩
      obtain ⟨d, hd, hin⟩ := Expiring.get_eq_some.mp hc'
      have hentry : (g.arrived time).redis.entry (.captcha openid) =
          some (c, some (start + cfg.ttl)) := hc
      rw [hentry] at hd
      cases hd
      exact ⟨start, rfl, of_decide_eq_true hin⟩
    · rintro ⟨start', hstart, htime⟩
      cases hstart
      exact ⟨c, Wechat.captcha_there hc htime⟩

/-- What a call of `generate` returns, by the calls before it. -/
def Refuses (cfg : ResendConfig) (past : List (Time × OpenidAnswer)) (time : Time)
    (answer : OpenidAnswer) : Prop :=
  ∀ q, answer = .generate q → (q = .failed .cooldownActive ↔
    ∃ start, standing past = some start ∧ time ≤ start + cfg.ttl)

/-- A call that changes neither the captcha nor when it was generated. -/
theorem Tracks.same {a : Wechat} {answer : OpenidAnswer} (h : Tracks cfg openid g)
    (hle : g.wechat.redis.clock ≤ time) (hclock : a.redis.clock = time)
    (hentry : a.redis.entry (.captcha openid) = g.wechat.redis.entry (.captcha openid))
    (hstanding : standing ((time, answer) :: g.past) = standing g.past) :
    Tracks cfg openid ⟨a, (time, answer) :: g.past⟩ := by
  constructor
  · intro start hstart
    rw [hstanding] at hstart
    obtain ⟨hne, c, hc⟩ := h.stands start hstart
    exact ⟨hne, c, hentry.trans hc⟩
  · intro hnone
    rw [hstanding] at hnone
    cases hcaptcha : a.captcha openid with
    | none => rfl
    | some c =>
      have hsame : a.captcha openid = (g.arrived time).captcha openid :=
        Expiring.get_congr hentry hclock
      cases (h.away hnone).symm.trans (Expiring.get_of_tick hle (hsame.symm.trans hcaptcha))

theorem Tracks.gone {a : Wechat} {answer : OpenidAnswer}
    (hentry : a.redis.entry (.captcha openid) = none)
    (hstanding : standing ((time, answer) :: past) = none) :
    Tracks cfg openid ⟨a, (time, answer) :: past⟩ := by
  constructor
  · intro start hstart
    cases hstanding.symm.trans hstart
  · intro _
    exact Wechat.captcha_none hentry

theorem Tracks.generate {n : Nat} (h : Tracks cfg openid g)
    (hle : g.wechat.redis.clock ≤ time) :
    Tracks cfg openid ⟨(call cfg openid n (g.arrived time) (.generate code)).1,
        (time, (call cfg openid n (g.arrived time) (.generate code)).2) :: g.past⟩ ∧
      Refuses cfg g.past time (call cfg openid n (g.arrived time) (.generate code)).2 := by
  have hcaptcha := h.captcha hle
  by_cases hzero : cfg.captchaTtlSecs = 0
  · simp only [call, Wechat.generate_zero hzero, Prod.map_apply, id]
    refine ⟨h.same hle rfl rfl rfl, ?_⟩
    rintro q ⟨⟩
    apply iff_of_false nofun
    rintro ⟨start, hstart, _⟩
    exact (h.stands start hstart).1 hzero
  · cases hc : (g.arrived time).captcha openid with
    | some c =>
      simp only [call, Wechat.generate_there hzero hc, Prod.map_apply, id]
      refine ⟨h.same hle rfl rfl rfl, ?_⟩
      rintro q ⟨⟩
      exact iff_of_true rfl (hcaptcha.mp ⟨c, hc⟩)
    | none =>
      simp only [call, Wechat.generate_vacant hzero hc, Prod.map_apply, id]
      refine ⟨⟨?_, nofun⟩, ?_⟩
      · rintro start ⟨⟩
        refine ⟨hzero, ⟨code, openid, n⟩, ?_⟩
        exact (Expiring.entry_del_of_ne (by nofun)).trans
          ((Expiring.entry_put_of_ne (by nofun)).trans Expiring.entry_put_self)
      · rintro q ⟨⟩
        apply iff_of_false nofun
        intro hthere
        obtain ⟨c, hc'⟩ := hcaptcha.mpr hthere
        cases hc.symm.trans hc'

theorem Tracks.verify {n : Nat} (h : Tracks cfg openid g)
    (hle : g.wechat.redis.clock ≤ time) :
    Tracks cfg openid ⟨(call cfg openid n (g.arrived time) (.verify code)).1,
      (time, (call cfg openid n (g.arrived time) (.verify code)).2) :: g.past⟩ := by
  cases hc : (g.arrived time).captcha openid with
  | none =>
    simp only [call, Wechat.verify_of_vacant hc, Prod.map_apply, id]
    exact h.same hle rfl rfl rfl
  | some c =>
    by_cases hm : eqIgnoreAsciiCase c.code code = true
    · simp only [call, Wechat.verify_of_match hc hm, Prod.map_apply, id]
      exact .gone (Wechat.entry_captcha_accepted hc) rfl
    · simp only [call, Wechat.verify_of_mismatch hc (Bool.eq_false_iff.mpr hm)]
      split
      · exact .gone Wechat.entry_captcha_deleted rfl
      · exact h.same hle rfl (Wechat.entry_guess (by nofun)) rfl

theorem Tracks.step (h : Tracks cfg openid g) (hstep : g.step cfg openid request = some g') :
    ∃ answer a, g' = ⟨a, (request.1, answer) :: g.past⟩ ∧ Tracks cfg openid g' ∧
      Refuses cfg g.past request.1 answer := by
  obtain ⟨hle, n, rfl⟩ := step_cases hstep
  refine ⟨_, _, rfl, ?_⟩
  cases request.2 with
  | generate code => exact h.generate hle
  | verify code =>
    refine ⟨h.verify hle, ?_⟩
    rintro q ⟨⟩

/-! ### A run of calls -/

theorem refuses (h0 : g.wechat.captcha openid = none) (hpast : g.past = [])
    (hrun : Reaches (Requests.step cfg openid) Free g g') :
    ∀ time answer before, (time, answer) :: before <:+ g'.past →
      Refuses cfg before time answer := by
  have hinit : Tracks cfg openid g ∧ ∀ time answer before,
      (time, answer) :: before <:+ g.past → Refuses cfg before time answer := by
    refine ⟨⟨?_, fun _ => h0⟩, ?_⟩
    · intro start hstart
      rw [hpast] at hstart
      cases hstart
    · rw [hpast]
      intro _ _ _ h
      cases List.suffix_nil.mp h
  refine (hrun.invariant (I := fun g => Tracks cfg openid g ∧ ∀ time answer before,
    (time, answer) :: before <:+ g.past → Refuses cfg before time answer) hinit ?_).2
  intro g request g' hg _ hstep
  obtain ⟨answer, a, rfl, htracks, hanswer⟩ := hg.1.step hstep
  refine ⟨htracks, ?_⟩
  intro time answer' before hbefore
  rcases List.suffix_cons_iff.mp hbefore with hsame | hbefore
  · cases hsame
    exact hanswer
  · exact hg.2 time answer' before hbefore

/-- The cooldown is the configured one exactly where no request comes between its end and that of
the captcha's lifetime. -/
theorem coolsDown_iff_together (h0 : g.wechat.captcha openid = none) (hpast : g.past = [])
    (hrun : Reaches (Requests.step cfg openid) Free g g') :
    CoolsDown cfg g'.past ↔ Together cfg g'.past := by
  have hrefuses := refuses h0 hpast hrun
  constructor
  · intro h time answer before hsuffix start hstart
    have hlife := hrefuses time _ before hsuffix answer rfl
    rw [h time answer before hsuffix] at hlife
    simp only [hstart, Option.some.injEq, exists_eq_left'] at hlife
    exact hlife.symm
  · intro h time answer before hsuffix
    rw [hrefuses time _ before hsuffix answer rfl]
    constructor
    · rintro ⟨start, hstart, htime⟩
      exact ⟨start, hstart, (h time answer before hsuffix start hstart).mp htime⟩
    · rintro ⟨start, hstart, htime⟩
      exact ⟨start, hstart, (h time answer before hsuffix start hstart).mpr htime⟩

/-! ### Three requests -/

def noRequests : Requests := ⟨⟨⟨0, fun _ => none⟩, fun _ => none⟩, []⟩

/-- A request, another one after `wait` seconds, and one when the captcha has expired. -/
def requestedAgain (wait : Int) : List (Time × OpenidCall) :=
  [(0, .generate "QWERT"), (seconds wait, .generate "ASDFG"), (seconds 301, .generate "YXCVB")]

theorem coolsDown_iff_together_soon :
    ∃ g, Reaches (Requests.step {} "ada") Free noRequests g ∧
      (CoolsDown {} g.past ↔ Together {} g.past) := by
  have hrun : Reaches (Requests.step {} "ada") Free noRequests
      ((run (Requests.step {} "ada") Free noRequests (requestedAgain 30)).get
        (by decide +kernel)) :=
    reaches_run_get _
  exact ⟨_, hrun, coolsDown_iff_together rfl rfl hrun⟩

/-- A minute is enough by the default configuration, but the captcha is still there. -/
theorem not_coolsDown_late :
    ¬ ∀ cfg openid g g', Wechat.captcha g.wechat openid = none → g.past = [] →
      Reaches (Requests.step cfg openid) Free g g' → CoolsDown cfg g'.past := by
  intro h
  have hrun : Reaches (Requests.step {} "ada") Free noRequests
      ((run (Requests.step {} "ada") Free noRequests ((requestedAgain 100).take 2)).get
        (by decide +kernel)) :=
    reaches_run_get _
  have hpast : ((run (Requests.step {} "ada") Free noRequests ((requestedAgain 100).take 2)).get
      (by decide +kernel)).past =
      [(seconds 100, .generate (.failed .cooldownActive)), (0, .generate .issued)] := by
    decide +kernel
  have hcool := h {} "ada" noRequests _ rfl rfl hrun
  rw [hpast] at hcool
  obtain ⟨start, hstart, htime⟩ := (hcool _ _ _ List.suffix_rfl).mp rfl
  cases hstart
  revert htime
  decide

end Requests

end Webshelf
