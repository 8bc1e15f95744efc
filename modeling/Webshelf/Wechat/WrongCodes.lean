import Webshelf.Lib.Streak
import Webshelf.Wechat.Index

/-!
# Is a captcha accepted until it expires?

Calls of `verify_for_openid` come one after the other once `generate` has returned a code. The
counter of wrong codes is a key of its own, which expires ten minutes after the latest of them.
-/

namespace Webshelf

open Runs

/-- A call of `verify_for_openid`. -/
structure Guess where
  time : Time
  openid : String
  code : String
  deriving DecidableEq

/-- Returned `Ok`. -/
def VerifyForOpenid.ok : VerifyForOpenid → Bool
  | .accepted _ _ => true
  | _ => false

/-- The account, with the calls and what they returned, the latest in front. -/
structure Guesses where
  wechat : Wechat
  past : List (Guess × VerifyForOpenid) := []

namespace Guesses

def step (cfg : LoginConfig) (g : Guesses) (call : Guess) : Option Guesses :=
  if g.wechat.redis.clock ≤ call.time then
    let (a, answer) := Wechat.verify cfg g.past.length call.openid call.code
      { g.wechat with redis := g.wechat.redis.tick call.time }
    some ⟨a, (call, answer) :: g.past⟩
  else none

end Guesses

/-- The code for the openid, in whatever case. -/
def Guess.right (openid code : String) (call : Guess) : Bool :=
  call.openid == openid && eqIgnoreAsciiCase code call.code

def Guess.wrong (openid code : String) (call : Guess) : Bool :=
  call.openid == openid && !eqIgnoreAsciiCase code call.code

theorem Guess.right_iff {openid code : String} {call : Guess} : call.right openid code = true ↔
    call.openid = openid ∧ eqIgnoreAsciiCase code call.code = true := by
  rw [right, Bool.and_eq_true, beq_iff_eq]

/-- When wrong codes were presented, the latest in front. -/
def wrongTimes (openid code : String) (calls : List Guess) : List Time :=
  (calls.filter (Guess.wrong openid code)).map Guess.time

namespace Guesses

/-- What is expected of the calls after `code` was stored at `start`. -/
structure Lawful (cfg : LoginConfig) (start : Time) (openid code : String)
    (past : List (Guess × VerifyForOpenid)) : Prop where
  accepts : ∀ call answer before, (call, answer) :: before <:+ past →
    call.right openid code = true →
    (answer.ok = true ↔ call.time ≤ start + cfg.ttl ∧
      (∀ e ∈ before, e.1.openid = openid → e.2.ok = false) ∧
      (wrongTimes openid code (before.map Prod.fst)).length < cfg.maxFailedAttempts)
  refuses : ∀ call answer before, (call, answer) :: before <:+ past → call.openid = openid →
    cfg.maxFailedAttempts ≤ (wrongTimes openid code (before.map Prod.fst)).length →
    answer.ok = false

/-- No more than ten minutes after the one before it. -/
def Soon (later earlier : Time) : Prop := later ≤ earlier + seconds ATTEMPTS_TTL_SECS

instance : DecidableRel Soon := fun later earlier => inferInstanceAs (Decidable (later ≤ earlier + _))

/-- When the code is first presented in time, and `max_failed_attempts` wrong ones were before it,
then as many of these came one soon after the other. -/
def InTime (cfg : LoginConfig) (start : Time) (openid code : String) (calls : List Guess) : Prop :=
  ∀ call before, call :: before <:+ calls → call.right openid code = true →
    call.time ≤ start + cfg.ttl → (∀ c ∈ before, c.right openid code = false) →
    cfg.maxFailedAttempts ≤ (wrongTimes openid code before).length →
    Streak.Occurs Soon cfg.maxFailedAttempts (wrongTimes openid code before)

end Guesses

namespace Wechat

variable {cfg : LoginConfig} {n : Nat} {s a : Wechat} {openid openid' code : String} {c : Captcha}

/-! ### The keys of one openid -/

theorem entry_guess_attempts : (s.guess openid).redis.entry (.attempts openid) =
    some (s.attempts openid + 1, some (s.redis.clock + seconds ATTEMPTS_TTL_SECS)) := by
  have hget : (s.incr openid).redis.get (.attempts openid) = some (s.attempts openid + 1) := by
    rw [incr, Expiring.get_alter_self]
    rfl
  rw [guess, Expiring.expire, Expiring.entry_write_self, hget]
  rfl

/-- A call for another openid leaves them alone. -/
theorem entry_attempts_verify (h : openid' ≠ openid) :
    (s.verify cfg n openid' code).1.redis.entry (.attempts openid) =
      s.redis.entry (.attempts openid) := by
  have hne : (WechatKey.attempts openid) ≠ .attempts openid' := fun he => h (by cases he; rfl)
  have hguess : (s.guess openid').redis.entry (.attempts openid) =
      s.redis.entry (.attempts openid) :=
    (Expiring.entry_write_of_ne hne).trans (Expiring.entry_write_of_ne hne)
  cases hc : s.captcha openid' with
  | none => rw [verify_of_vacant hc]
  | some c =>
    by_cases hm : eqIgnoreAsciiCase c.code code = true
    · rw [verify_of_match hc hm, consume_some hc]
      exact (Expiring.entry_del_of_ne hne).trans ((Expiring.entry_del_of_ne (by nofun)).trans
        ((Expiring.entry_del_of_ne hne).trans (Expiring.entry_del_of_ne (by nofun))))
    · rw [verify_of_mismatch hc (Bool.eq_false_iff.mpr hm)]
      split
      · exact (Expiring.entry_del_of_ne hne).trans ((Expiring.entry_del_of_ne (by nofun)).trans
          ((Expiring.entry_del_of_ne (by nofun)).trans hguess))
      · exact hguess

theorem entry_captcha_verify (h : openid' ≠ openid) :
    (s.verify cfg n openid' code).1.redis.entry (.captcha openid) =
      s.redis.entry (.captcha openid) := by
  have hne : (WechatKey.captcha openid) ≠ .captcha openid' := fun he => h (by cases he; rfl)
  cases @verified cfg n s openid' code with
  | same clock entry => exact entry _ (by nofun)
  | removed there clock captcha index entry => exact entry _ (by nofun) hne (by nofun)

theorem clock_verify : (s.verify cfg n openid code).1.redis.clock = s.redis.clock := by
  cases @verified cfg n s openid code with
  | same clock entry => exact clock
  | removed there clock captcha index entry => exact clock

end Wechat

namespace Guesses

variable {cfg : LoginConfig} {g g' : Guesses} {c : Captcha} {deadline : Time} {call : Guess}
  {answer : VerifyForOpenid} {past : List (Guess × VerifyForOpenid)} {calls : List Guess}
  {openid code : String}

/-! ### One call -/

/-- When a call begins. -/
def arrived (g : Guesses) (call : Guess) : Wechat :=
  { g.wechat with redis := g.wechat.redis.tick call.time }

theorem step_cases (h : g.step cfg call = some g') : g.wechat.redis.clock ≤ call.time ∧
    ∃ n, g' = ⟨((g.arrived call).verify cfg n call.openid call.code).1,
      (call, ((g.arrived call).verify cfg n call.openid call.code).2) :: g.past⟩ := by
  unfold step at h
  split at h
  · rename_i hle
    exact ⟨hle, _, (Option.some.inj h).symm⟩
  · cases h

theorem wrongTimes_cons_wrong (h : call.wrong openid code = true) :
    wrongTimes openid code (call :: calls) = call.time :: wrongTimes openid code calls := by
  rw [wrongTimes, List.filter_cons_of_pos h, List.map_cons]
  rfl

theorem wrongTimes_cons_of_not (h : call.wrong openid code = false) :
    wrongTimes openid code (call :: calls) = wrongTimes openid code calls := by
  rw [wrongTimes, List.filter_cons_of_neg (by rw [h]; nofun)]
  rfl

/-- The times at which a captcha was missed. -/
def missed (c : Captcha) (past : List (Guess × VerifyForOpenid)) : List Time :=
  wrongTimes c.openid c.code (past.map Prod.fst)

/-- The captcha was taken, or missed too often. -/
def Closed (cfg : LoginConfig) (c : Captcha) (past : List (Guess × VerifyForOpenid)) : Prop :=
  (∃ e ∈ past, e.1.openid = c.openid ∧ e.2.ok = true) ∨
    Streak.Occurs Soon cfg.maxFailedAttempts (missed c past)

theorem Closed.cons {e : Guess × VerifyForOpenid} (h : Closed cfg c past) :
    Closed cfg c (e :: past) := by
  rcases h with ⟨e', he', htaken⟩ | hmissed
  · exact .inl ⟨e', List.mem_cons_of_mem _ he', htaken⟩
  · refine .inr ?_
    cases hw : e.1.wrong c.openid c.code with
    | false => rwa [missed, List.map_cons, wrongTimes_cons_of_not hw]
    | true =>
      rw [missed, List.map_cons, wrongTimes_cons_wrong hw]
      exact Streak.Occurs.cons hmissed

theorem missed_cons_wrong (hw : call.wrong c.openid c.code = true) :
    missed c ((call, answer) :: past) = call.time :: missed c past := by
  rw [missed, List.map_cons, wrongTimes_cons_wrong hw]
  rfl

theorem missed_cons_of_not (hw : call.wrong c.openid c.code = false) :
    missed c ((call, answer) :: past) = missed c past := by
  rw [missed, List.map_cons, wrongTimes_cons_of_not hw]
  rfl

/-- A call that did not take the captcha can only have missed it. -/
theorem closed_cons (hok : call.openid = c.openid → answer.ok = false)
    (h : Closed cfg c ((call, answer) :: past)) :
    Streak.Occurs Soon cfg.maxFailedAttempts (missed c ((call, answer) :: past)) ∨
      Closed cfg c past := by
  rcases h with ⟨e, he, ho, htaken⟩ | hmissed
  · rcases List.mem_cons.mp he with rfl | he
    · rw [hok ho] at htaken
      cases htaken
    · exact .inr (.inl ⟨e, he, ho, htaken⟩)
  · exact .inl hmissed

/-- Another call leaves it as it is. -/
theorem closed_cons_iff (hok : call.openid = c.openid → answer.ok = false)
    (hw : call.wrong c.openid c.code = false) :
    Closed cfg c ((call, answer) :: past) ↔ Closed cfg c past := by
  refine ⟨fun h => ?_, Closed.cons⟩
  have hclosed := closed_cons hok h
  rw [missed_cons_of_not hw] at hclosed
  exact hclosed.elim .inr id

/-- A wrong code closes it at the end of a long streak. -/
theorem closed_cons_wrong (hok : answer.ok = false) (hw : call.wrong c.openid c.code = true) :
    Closed cfg c ((call, answer) :: past) ↔
      cfg.maxFailedAttempts ≤ Streak.latest Soon (call.time :: missed c past) ∨
        Closed cfg c past := by
  constructor
  · intro h
    have hclosed := closed_cons (fun _ => hok) h
    rw [missed_cons_wrong hw, Streak.occurs_cons, or_assoc] at hclosed
    exact hclosed.imp_right fun h => h.elim .inr id
  · rintro (hmax | hclosed)
    · refine .inr ?_
      rw [missed_cons_wrong hw]
      exact Streak.occurs_cons.mpr (.inl hmax)
    · exact hclosed.cons

/-- The counter after the wrong codes at `times`. -/
def counter (times : List Time) : Option (Nat × Option Time) :=
  times.head?.map fun t => (Streak.latest Soon times, some (t + seconds ATTEMPTS_TTL_SECS))

/-- One more wrong code makes the latest streak longer, or begins one. -/
theorem attempts_counter {s : Wechat} {times : List Time}
    (h : s.redis.entry (.attempts openid) = counter times) :
    s.attempts openid + 1 = Streak.latest Soon (s.redis.clock :: times) := by
  rw [Wechat.attempts, Expiring.get, h]
  cases times with
  | nil => rfl
  | cons t times =>
    by_cases hsoon : Soon s.redis.clock t
    · have hin : Expiring.inTime s.redis.clock (some (t + seconds ATTEMPTS_TTL_SECS)) = true :=
        decide_eq_true hsoon
      rw [Streak.latest, if_pos hsoon]
      simp [counter, hin]
    · have hout : Expiring.inTime s.redis.clock (some (t + seconds ATTEMPTS_TTL_SECS)) = false :=
        decide_eq_false hsoon
      rw [Streak.latest, if_neg hsoon]
      simp [counter, hout]

/-- The captcha is there with its counter, or it was taken away, or its time has passed. -/
inductive Stage (cfg : LoginConfig) (c : Captcha) (deadline : Time) (g : Guesses) : Prop
  | kept (there : g.wechat.redis.entry (.captcha c.openid) = some (c, some deadline))
      (counted : g.wechat.redis.entry (.attempts c.openid) = counter (missed c g.past))
      (opened : ¬ Closed cfg c g.past)
  | gone (away : g.wechat.redis.entry (.captcha c.openid) = none) (closed : Closed cfg c g.past)
  | expired (there : g.wechat.redis.entry (.captcha c.openid) = some (c, some deadline))
      (late : deadline < g.wechat.redis.clock)

/-- What a call answers, by the calls before it. -/
def Answers (cfg : LoginConfig) (c : Captcha) (deadline : Time)
    (past : List (Guess × VerifyForOpenid)) (call : Guess) (answer : VerifyForOpenid) : Prop :=
  call.openid = c.openid → (answer.ok = true ↔ call.right c.openid c.code = true ∧
    call.time ≤ deadline ∧ ¬ Closed cfg c past)

theorem Stage.other (h : Stage cfg c deadline g) (hstep : g.step cfg call = some g')
    (ho : call.openid ≠ c.openid) : Stage cfg c deadline g' := by
  obtain ⟨hle, n, rfl⟩ := step_cases hstep
  have hcaptcha := @Wechat.entry_captcha_verify cfg n (g.arrived call) c.openid call.openid
    call.code ho
  have hattempts := @Wechat.entry_attempts_verify cfg n (g.arrived call) c.openid call.openid
    call.code ho
  have hw : call.wrong c.openid c.code = false := by simp [Guess.wrong, ho]
  have hclosed := @closed_cons_iff cfg c call
    ((g.arrived call).verify cfg n call.openid call.code).2 g.past (fun h => absurd h ho) hw
  cases h with
  | kept there counted opened =>
    refine .kept (hcaptcha.trans there) ?_ (mt hclosed.mp opened)
    rw [missed_cons_of_not hw]
    exact hattempts.trans counted
  | gone away closed => exact .gone (hcaptcha.trans away) closed.cons
  | expired there late =>
    refine .expired (hcaptcha.trans there) ?_
    rw [Wechat.clock_verify]
    exact Int.lt_of_lt_of_le late hle

/-- No captcha is found. -/
theorem step_vacant (hnone : (g.arrived call).captcha c.openid = none)
    (ho : call.openid = c.openid) (hstep : g.step cfg call = some g') :
    g' = ⟨g.arrived call, (call, .failed .captchaNotFound) :: g.past⟩ := by
  obtain ⟨_, n, rfl⟩ := step_cases hstep
  rw [← ho] at hnone
  rw [Wechat.verify_of_vacant hnone]

theorem Stage.vacant (h : Stage cfg c deadline g) (hle : g.wechat.redis.clock ≤ call.time)
    (hnone : (g.arrived call).captcha c.openid = none) :
    Stage cfg c deadline ⟨g.arrived call, (call, .failed .captchaNotFound) :: g.past⟩ ∧
      Answers cfg c deadline g.past call (.failed .captchaNotFound) := by
  have hrefused : ¬ VerifyForOpenid.ok (.failed .captchaNotFound) = true := nofun
  have hlate {there : g.wechat.redis.entry (.captcha c.openid) = some (c, some deadline)} :
      ¬ call.time ≤ deadline := by
    intro htime
    cases hnone.symm.trans (Wechat.captcha_there (s := g.arrived call) there htime)
  cases h with
  | kept there counted opened =>
    refine ⟨.expired there (Int.not_le.mp (@hlate there)), fun _ => ?_⟩
    exact iff_of_false hrefused fun hright => @hlate there hright.2.1
  | gone away closed =>
    refine ⟨.gone away closed.cons, fun _ => ?_⟩
    exact iff_of_false hrefused fun hright => hright.2.2 closed
  | expired there late =>
    refine ⟨.expired there (Int.lt_of_lt_of_le late hle), fun _ => ?_⟩
    exact iff_of_false hrefused fun hright => @hlate there hright.2.1

/-- The captcha is taken. -/
theorem kept_right (there : g.wechat.redis.entry (.captcha c.openid) = some (c, some deadline))
    (opened : ¬ Closed cfg c g.past) (htime : call.time ≤ deadline)
    (hright : call.right c.openid c.code = true) (hstep : g.step cfg call = some g') :
    ∃ answer a, g' = ⟨a, (call, answer) :: g.past⟩ ∧ Stage cfg c deadline g' ∧
      Answers cfg c deadline g.past call answer := by
  obtain ⟨_, n, rfl⟩ := step_cases hstep
  obtain ⟨ho, hcode⟩ := Guess.right_iff.mp hright
  have hthere : (g.arrived call).captcha c.openid = some c := Wechat.captcha_there there htime
  have hcall : (g.arrived call).captcha call.openid = some c := ho ▸ hthere
  refine ⟨_, _, rfl, ?_, ?_⟩
  · rw [Wechat.verify_of_match hcall hcode, ho]
    exact .gone (Wechat.entry_captcha_accepted hthere) (.inl ⟨_, List.mem_cons_self, ho, rfl⟩)
  · rw [Wechat.verify_of_match hcall hcode]
    exact fun _ => iff_of_true rfl ⟨hright, htime, opened⟩

/-- The captcha is missed once more. -/
theorem kept_wrong (there : g.wechat.redis.entry (.captcha c.openid) = some (c, some deadline))
    (counted : g.wechat.redis.entry (.attempts c.openid) = counter (missed c g.past))
    (opened : ¬ Closed cfg c g.past) (htime : call.time ≤ deadline)
    (hwrong : call.wrong c.openid c.code = true) (hstep : g.step cfg call = some g') :
    ∃ answer a, g' = ⟨a, (call, answer) :: g.past⟩ ∧ Stage cfg c deadline g' ∧
      Answers cfg c deadline g.past call answer := by
  obtain ⟨_, n, rfl⟩ := step_cases hstep
  obtain ⟨ho, hcode⟩ : call.openid = c.openid ∧ eqIgnoreAsciiCase c.code call.code = false := by
    simpa [Guess.wrong] using hwrong
  have hthere : (g.arrived call).captcha c.openid = some c := Wechat.captcha_there there htime
  have hcall : (g.arrived call).captcha call.openid = some c := ho ▸ hthere
  have hcount : (g.arrived call).attempts c.openid + 1 =
      Streak.latest Soon (call.time :: missed c g.past) :=
    attempts_counter (s := g.arrived call) counted
  have hnot : ¬ call.right c.openid c.code = true := by simp [Guess.right, hcode]
  rw [Wechat.verify_of_mismatch hcall hcode, ho, hcount]
  refine ⟨_, _, rfl, ?_, ?_⟩
  · split
    · rename_i hmax
      exact .gone Wechat.entry_captcha_deleted ((closed_cons_wrong rfl hwrong).mpr (.inl hmax))
    · rename_i hmax
      refine .kept ((Wechat.entry_guess (by simp)).trans there) ?_ ?_
      · rw [missed_cons_wrong hwrong, Wechat.entry_guess_attempts, hcount]
        rfl
      · rw [closed_cons_wrong rfl hwrong]
        exact fun h => h.elim hmax opened
  · intro _
    refine iff_of_false ?_ fun h => hnot h.1
    split <;> simp [VerifyForOpenid.ok]

theorem Stage.step (h : Stage cfg c deadline g) (hstep : g.step cfg call = some g') :
    ∃ answer a, g' = ⟨a, (call, answer) :: g.past⟩ ∧ Stage cfg c deadline g' ∧
      Answers cfg c deadline g.past call answer := by
  obtain ⟨hle, n, heq⟩ := step_cases hstep
  by_cases ho : call.openid = c.openid
  · cases hcaptcha : (g.arrived call).captcha c.openid with
    | none =>
      have hvacant := h.vacant hle hcaptcha
      exact ⟨_, _, step_vacant hcaptcha ho hstep, step_vacant hcaptcha ho hstep ▸ hvacant.1,
        hvacant.2⟩
    | some c' =>
      cases h with
      | kept there counted opened =>
        have htime : call.time ≤ deadline := by
          by_contra hlate
          have hnone : (g.arrived call).captcha c.openid = none :=
            Wechat.captcha_expired there (Int.not_le.mp hlate)
          cases hcaptcha.symm.trans hnone
        cases hcode : eqIgnoreAsciiCase c.code call.code with
        | true => exact kept_right there opened htime (by simp [Guess.right, ho, hcode]) hstep
        | false =>
          exact kept_wrong there counted opened htime (by simp [Guess.wrong, ho, hcode]) hstep
      | gone away closed =>
        have hnone : (g.arrived call).captcha c.openid = none := Wechat.captcha_none away
        cases hcaptcha.symm.trans hnone
      | expired there late =>
        have hnone : (g.arrived call).captcha c.openid = none :=
          Wechat.captcha_expired there (Int.lt_of_lt_of_le late hle)
        cases hcaptcha.symm.trans hnone
  · exact ⟨_, _, heq, h.other hstep ho, fun hsame => absurd hsame ho⟩

/-! ### A run of calls -/

/-- Every call was answered by the calls before it, which came no later. -/
def Answered (cfg : LoginConfig) (c : Captcha) (deadline : Time)
    (past : List (Guess × VerifyForOpenid)) : Prop :=
  ∀ call answer before, (call, answer) :: before <:+ past →
    Answers cfg c deadline before call answer ∧ ∀ e ∈ before, e.1.time ≤ call.time

theorem answered_step (h : Stage cfg c deadline g) (hA : Answered cfg c deadline g.past)
    (htimes : ∀ e ∈ g.past, e.1.time ≤ g.wechat.redis.clock) (hstep : g.step cfg call = some g') :
    Stage cfg c deadline g' ∧ Answered cfg c deadline g'.past ∧
      ∀ e ∈ g'.past, e.1.time ≤ g'.wechat.redis.clock := by
  obtain ⟨hle, n, heq⟩ := step_cases hstep
  have hclock : g'.wechat.redis.clock = call.time := by
    rw [heq, Wechat.clock_verify]
    rfl
  obtain ⟨answer, a, rfl, hstage, hanswer⟩ := h.step hstep
  have hearlier : ∀ e ∈ g.past, e.1.time ≤ call.time :=
    fun e he => Int.le_trans (htimes e he) hle
  refine ⟨hstage, ?_, ?_⟩
  · intro call' answer' before hbefore
    rcases List.suffix_cons_iff.mp hbefore with hsame | hbefore
    · cases hsame
      exact ⟨hanswer, hearlier⟩
    · exact hA call' answer' before hbefore
  · intro e he
    rw [hclock]
    rcases List.mem_cons.mp he with rfl | he
    · exact Int.le_refl _
    · exact hearlier e he

theorem answered (h0 : Stage cfg c deadline g) (hpast : g.past = [])
    (hrun : Reaches (step cfg) Free g g') : Answered cfg c deadline g'.past := by
  have hinit : Stage cfg c deadline g ∧ Answered cfg c deadline g.past ∧
      ∀ e ∈ g.past, e.1.time ≤ g.wechat.redis.clock := by
    rw [Answered, hpast]
    exact ⟨h0, fun _ _ _ h => (nomatch List.suffix_nil.mp h), nofun⟩
  exact (hrun.invariant hinit
    fun _ _ _ hs _ hstep => answered_step hs.1 hs.2.1 hs.2.2 hstep).2.1

theorem Closed.mono {before : List (Guess × VerifyForOpenid)} (hsuffix : before <:+ past)
    (h : Closed cfg c before) : Closed cfg c past := by
  induction past with
  | nil => exact List.suffix_nil.mp hsuffix ▸ h
  | cons e past ih =>
    rcases List.suffix_cons_iff.mp hsuffix with rfl | htail
    · exact h
    · exact (ih htail).cons

/-- While the captcha is there, nobody has presented its code. -/
theorem Answered.not_right (hA : Answered cfg c deadline past) (hopen : ¬ Closed cfg c past)
    (htimes : ∀ e ∈ past, e.1.time ≤ deadline) :
    ∀ e ∈ past, e.1.right c.openid c.code = false := by
  intro e he
  obtain ⟨after, before, rfl⟩ := List.append_of_mem he
  have hsuffix : e :: before <:+ after ++ e :: before := List.suffix_append ..
  refine Bool.eq_false_iff.mpr fun hright => ?_
  have ho := (Guess.right_iff.mp hright).1
  have hbefore : ¬ Closed cfg c before :=
    fun h => hopen (h.mono ((List.suffix_cons e before).trans hsuffix))
  have hok := ((hA e.1 e.2 before hsuffix).1 ho).mpr ⟨hright, htimes e he, hbefore⟩
  exact hopen (.inl ⟨e, he, ho, hok⟩)

theorem Answered.suffix {before : List (Guess × VerifyForOpenid)}
    (hA : Answered cfg c deadline past) (hsuffix : before <:+ past) :
    Answered cfg c deadline before :=
  fun call answer earlier h => hA call answer earlier (h.trans hsuffix)

/-- A captcha that is open has been missed too few times, where those who miss it do so soon. -/
theorem few_of_inTime {start : Time} {before : List (Guess × VerifyForOpenid)}
    (hA : Answered cfg c (start + cfg.ttl) past)
    (hin : InTime cfg start c.openid c.code (past.map Prod.fst))
    (hsuffix : (call, answer) :: before <:+ past) (hright : call.right c.openid c.code = true)
    (htime : call.time ≤ start + cfg.ttl) (hopen : ¬ Closed cfg c before) :
    (missed c before).length < cfg.maxFailedAttempts := by
  refine Nat.lt_of_not_le fun hmax => hopen (.inr ?_)
  have hbefore : before <:+ past := (List.suffix_cons _ before).trans hsuffix
  have hearlier := (hA call answer before hsuffix).2
  have hnone := (hA.suffix hbefore).not_right hopen
    fun e he => Int.le_trans (hearlier e he) htime
  refine hin call (before.map Prod.fst) ?_ hright htime ?_ hmax
  · exact hsuffix.map Prod.fst
  · intro guess hguess
    obtain ⟨e, he, rfl⟩ := List.mem_map.mp hguess
    exact hnone e he

theorem Answered.lawful {start : Time} (hA : Answered cfg c (start + cfg.ttl) past)
    (hin : InTime cfg start c.openid c.code (past.map Prod.fst)) :
    Lawful cfg start c.openid c.code past := by
  constructor
  · intro call answer before hsuffix hright
    rw [(hA call answer before hsuffix).1 (Guess.right_iff.mp hright).1]
    constructor
    · rintro ⟨_, htime, hopen⟩
      refine ⟨htime, ?_, few_of_inTime hA hin hsuffix hright htime hopen⟩
      intro e he heo
      exact Bool.eq_false_iff.mpr fun hok => hopen (.inl ⟨e, he, heo, hok⟩)
    · rintro ⟨htime, huntaken, hfew⟩
      refine ⟨hright, htime, ?_⟩
      rintro (⟨e, he, heo, hok⟩ | hmissed)
      · rw [huntaken e he heo] at hok
        cases hok
      · exact Nat.not_le_of_lt hfew hmissed.le_length
  · intro call answer before hsuffix ho hmax
    refine Bool.eq_false_iff.mpr fun hok => ?_
    obtain ⟨hright, htime, hopen⟩ := ((hA call answer before hsuffix).1 ho).mp hok
    exact Nat.not_lt_of_le hmax (few_of_inTime hA hin hsuffix hright htime hopen)

theorem Answered.inTime {start : Time} (hA : Answered cfg c (start + cfg.ttl) past)
    (hlaw : Lawful cfg start c.openid c.code past) :
    InTime cfg start c.openid c.code (past.map Prod.fst) := by
  intro call calls hsuffix hright htime hnone hmax
  obtain ⟨after, hafter⟩ := hsuffix
  obtain ⟨l, rest, rfl, -, hrest⟩ := List.map_eq_append_iff.mp hafter.symm
  obtain ⟨⟨call, answer⟩, before, rfl, rfl, rfl⟩ := List.map_eq_cons_iff.mp hrest
  have hsuffix : (call, answer) :: before <:+ l ++ (call, answer) :: before :=
    List.suffix_append ..
  have ho := (Guess.right_iff.mp hright).1
  by_contra hsoon
  have hopen : ¬ Closed cfg c before := by
    rintro (⟨e, he, heo, hok⟩ | hmissed)
    · obtain ⟨l', before', rfl⟩ := List.append_of_mem he
      have hbefore : e :: before' <:+ l ++ (call, answer) :: (l' ++ e :: before') :=
        (List.suffix_append l' (e :: before')).trans ((List.suffix_cons _ _).trans hsuffix)
      have hearlier := (((hA e.1 e.2 before' hbefore).1 heo).mp hok).1
      rw [hnone e.1 (List.mem_map_of_mem he)] at hearlier
      cases hearlier
    · exact hsoon hmissed
  have hok := ((hA call answer before hsuffix).1 ho).mpr ⟨hright, htime, hopen⟩
  rw [hlaw.refuses call answer before hsuffix ho hmax] at hok
  cases hok

theorem issue_stage {s : Wechat} {n : Nat} (hmax : 1 ≤ cfg.maxFailedAttempts) :
    Stage cfg ⟨code, openid, n⟩ (s.redis.clock + cfg.ttl) ⟨s.issue cfg ⟨code, openid, n⟩, []⟩ := by
  refine .kept ?_ Expiring.entry_del_self ?_
  · exact (Expiring.entry_del_of_ne (by nofun)).trans ((Expiring.entry_put_of_ne (by nofun)).trans
      Expiring.entry_put_self)
  · rintro (⟨e, he, _⟩ | hmissed)
    · cases he
    · exact Streak.not_occurs_nil hmax hmissed

/-- The calls are lawful exactly where no one takes too long to guess. -/
theorem lawful_iff_inTime {s a : Wechat} {n : Nat}
    (hissued : s.generate cfg n openid code = (a, .issued)) (hmax : 1 ≤ cfg.maxFailedAttempts)
    (hrun : Reaches (step cfg) Free ⟨a, []⟩ g) :
    Lawful cfg a.redis.clock openid code g.past ↔
      InTime cfg a.redis.clock openid code (g.past.map Prod.fst) := by
  have hissue : a = s.issue cfg ⟨code, openid, n⟩ := by
    rcases @Wechat.generate_cases cfg n s openid code with ⟨e, h⟩ | ⟨_, _, h⟩
    · rw [h] at hissued
      cases hissued
    · rw [h] at hissued
      exact (congrArg Prod.fst hissued).symm
  subst hissue
  have hA := answered (issue_stage hmax) rfl hrun
  exact ⟨hA.inTime, hA.lawful⟩

/-! ### Two wrong codes -/

def anHour : LoginConfig := { captchaTtlSecs := 3600, maxFailedAttempts := 2 }

/-- The code `QWERT` has been stored for `ada`. -/
def qwert (cfg : LoginConfig) : Guesses :=
  ⟨(Wechat.generate cfg 0 "ada" "QWERT" ⟨⟨0, fun _ => none⟩, fun _ => none⟩).1, []⟩

/-- Two wrong codes, the second one after `wait` seconds, and then the right one. -/
def missedTwice (wait : Int) : List Guess :=
  [⟨seconds 1, "ada", "AAAAA"⟩, ⟨seconds (1 + wait), "ada", "BBBBB"⟩,
    ⟨seconds (2 + wait), "ada", "qwert"⟩]

theorem lawful_iff_inTime_missedTwice :
    ∃ g, Reaches (step anHour) Free (qwert anHour) g ∧
      (Lawful anHour (qwert anHour).wechat.redis.clock "ada" "QWERT" g.past ↔
        InTime anHour (qwert anHour).wechat.redis.clock "ada" "QWERT" (g.past.map Prod.fst)) := by
  have hrun : Reaches (step anHour) Free (qwert anHour)
      ((run (step anHour) Free (qwert anHour) (missedTwice 600)).get (by decide +kernel)) :=
    reaches_run_get _
  exact ⟨_, hrun, lawful_iff_inTime (Prod.ext rfl (by decide +kernel)) (by decide) hrun⟩

/-- A second more, and the first wrong code is forgotten. -/
theorem accepted_missedTwice :
    ¬ ∀ cfg s a n openid code g, Wechat.generate cfg n openid code s = (a, .issued) →
      1 ≤ cfg.maxFailedAttempts → Reaches (step cfg) Free ⟨a, []⟩ g →
        Lawful cfg a.redis.clock openid code g.past := by
  intro h
  have hrun : Reaches (step anHour) Free (qwert anHour)
      ((run (step anHour) Free (qwert anHour) (missedTwice 601)).get (by decide +kernel)) :=
    reaches_run_get _
  have hpast : ((run (step anHour) Free (qwert anHour) (missedTwice 601)).get
      (by decide +kernel)).past =
      [(⟨seconds 603, "ada", "qwert"⟩, .accepted ⟨"QWERT", "ada", 0⟩ ⟨"QWERT", "ada", 0⟩),
        (⟨seconds 602, "ada", "BBBBB"⟩, .rejected ⟨"QWERT", "ada", 0⟩ .captchaMismatch),
        (⟨seconds 1, "ada", "AAAAA"⟩, .rejected ⟨"QWERT", "ada", 0⟩ .captchaMismatch)] := by
    decide +kernel
  have hlaw := h anHour _ _ 0 "ada" "QWERT" _ (Prod.ext rfl (by decide +kernel)) (by decide) hrun
  rw [hpast] at hlaw
  have hrefused := hlaw.refuses _ _ _ List.suffix_rfl rfl (by decide +kernel)
  cases hrefused

end Guesses

end Webshelf
