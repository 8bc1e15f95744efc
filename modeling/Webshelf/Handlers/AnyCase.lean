import Webshelf.Handlers.Login

/-!
# May a captcha code be given in any case?

`verify_for_openid` ignores the case of ASCII letters. Both logins ask the index for the openid
first, by the code as it was given.
-/

namespace Webshelf

open Runs

def CaptchaEvent.FromCharset : CaptchaEvent → Prop
  | .generate _ code => Webshelf.FromCharset code
  | _ => True

/-- `login_inner` returns a session. -/
def LoginAccepted (settings : Settings) (validator : Validator) (cfg : LoginConfig)
    (x : LoginInputs) (body : LoginRequestBody) (s : LoginState) : Prop :=
  ∃ s' issued session, loginInner settings validator (some cfg) x body s =
    some (s', issued, .ok session)

namespace Wechat

def WxLoginAccepted (cfg : LoginConfig) (settings : Settings) (users : UserBindings) (n : Nat)
    (code : String) (s : Wechat) : Prop :=
  ∃ session, (s.wxLogin cfg settings users n code).2 = .ok session

/-- Whoever logs in, and whatever else is in the request, `given` does as well as `code`. -/
structure CaseIgnored (cfg : LoginConfig) (s : Wechat) (code given : String) : Prop where
  wxLogin : ∀ settings users n, s.WxLoginAccepted cfg settings users n given ↔
    s.WxLoginAccepted cfg settings users n code
  login : ∀ settings validator world x (body : LoginRequestBody),
    LoginAccepted settings validator cfg x { body with captchaCode := some given } ⟨world, s⟩ ↔
      LoginAccepted settings validator cfg x { body with captchaCode := some code } ⟨world, s⟩

/-- The openid that the index has for the code has a captcha of this code. -/
def Redeemable (s : Wechat) (code : String) : Prop :=
  ∃ openid c, s.redis.get (.code code) = some openid ∧ s.captcha openid = some c ∧
    eqIgnoreAsciiCase c.code code = true

variable {cfg : LoginConfig} {settings : Settings} {users : UserBindings} {n : Nat}
  {s a : Wechat} {openid code given : String}

/-! ### What is accepted -/

theorem redeemable_of_wxLogin (h : s.WxLoginAccepted cfg settings users n code) :
    s.Redeemable code := by
  obtain ⟨session, h⟩ := h
  have hindex := wxLogin_session h
  rw [wxLogin, hindex] at h
  cases hc : s.captcha session.verified.openid with
  | none =>
    simp only [verifyAndLogin, verify_of_vacant hc] at h
    cases h
  | some c =>
    cases hm : eqIgnoreAsciiCase c.code code with
    | true => exact ⟨_, c, hindex, hc, hm⟩
    | false =>
      have hverify := @verify_of_mismatch cfg n s session.verified.openid code c hc hm
      by_cases hmax : cfg.maxFailedAttempts ≤ s.attempts session.verified.openid + 1
      · rw [if_pos hmax] at hverify
        simp only [verifyAndLogin, hverify] at h
        cases h
      · rw [if_neg hmax] at hverify
        simp only [verifyAndLogin, hverify] at h
        cases h

/-- Where every openid is bound to a user. -/
theorem wxLogin_of_redeemable (h : s.Redeemable code) :
    s.WxLoginAccepted cfg settings ⟨fun _ => some 1, fun _ => some ("user", 1)⟩ n code := by
  obtain ⟨openid, c, hindex, hc, hm⟩ := h
  rw [WxLoginAccepted, wxLogin, hindex]
  simp only [verifyAndLogin, verify_of_match hc hm]
  exact ⟨_, rfl⟩

theorem redeemable_of_login {validator : Validator} {x : LoginInputs} {body : LoginRequestBody}
    {world : World} (hcode : body.captchaCode = some code)
    (h : LoginAccepted settings validator cfg x body ⟨world, s⟩) : s.Redeemable code := by
  obtain ⟨s', issued, session, h⟩ := h
  have hverified : ∃ captcha, (LoginState.captchaUserId (some cfg) x body ⟨world, s⟩).2 =
      .ok captcha := by
    unfold loginInner at h
    split at h
    · cases h
    · split at h
      · cases h
      · rename_i a captcha hok
        exact ⟨captcha, congrArg Prod.snd hok⟩
  obtain ⟨captcha, hok⟩ := hverified
  cases LoginState.captchaUserId_ok.mp hok with
  | bound hgiven nonempty index captcha right =>
    rw [hcode, Option.getD_some] at hgiven
    subst hgiven
    exact ⟨_, _, index, captcha, right⟩

/-! ### Codes in the index -/

/-- Two letters or digits of the character set do not differ in case only. -/
theorem charset_toLower : ∀ c ∈ CHARSET, ∀ d ∈ CHARSET, c.toLower = d.toLower → c = d := by
  have hall : (CHARSET.all fun c => CHARSET.all fun d =>
      decide (c.toLower = d.toLower → c = d)) = true := by decide
  intro c hc
  exact List.all_iff_forall_prop.mp (List.all_eq_true.mp hall c hc)

theorem eq_of_fromCharset (hcode : FromCharset code) (hgiven : FromCharset given)
    (h : eqIgnoreAsciiCase code given = true) : given = code := by
  have hlower : code.toList.map Char.toLower = given.toList.map Char.toLower := beq_iff_eq.mp h
  apply String.toList_inj.mp
  unfold FromCharset at hcode hgiven
  generalize code.toList = l at hcode hlower
  generalize given.toList = l' at hgiven hlower
  induction l generalizing l' with
  | nil => exact List.map_eq_nil_iff.mp hlower.symm
  | cons c l ih =>
    match l' with
    | d :: l' =>
      rw [List.map_cons, List.map_cons, List.cons.injEq] at hlower
      have hc := charset_toLower c (hcode c List.mem_cons_self) d (hgiven d List.mem_cons_self)
        hlower.1
      rw [hc, ih (fun c h => hcode c (List.mem_cons_of_mem _ h)) l'
        (fun c h => hgiven c (List.mem_cons_of_mem _ h)) hlower.2]

end Wechat

namespace WechatAccount

variable {cfg : LoginConfig} {s s' s₀ : WechatAccount} {e : CaptchaEvent}
  {openid code given : String}

/-- The codes that were generated, and those in the index, are of the character set. -/
structure Charset (s : WechatAccount) : Prop where
  index : ∀ code openid, s.wechat.redis.get (.code code) = some openid → FromCharset code
  issued : ∀ code openid, (code, openid) ∈ s.issued → FromCharset code

theorem Charset.verified {a : Wechat} (h : s.Charset) (hv : Wechat.Verified openid s.wechat a) :
    Charset { s with wechat := a } :=
  ⟨fun code openid' hi => h.index code openid' (hv.index hi), h.issued⟩

theorem Charset.issue {n : Nat} (h : s.Charset) (hcode : FromCharset code) :
    Charset ⟨s.wechat.issue cfg ⟨code, openid, n⟩, (code, openid) :: s.issued⟩ := by
  constructor
  · intro code' openid' hi
    by_cases hsame : code' = code
    · exact hsame ▸ hcode
    · have hne : (WechatKey.code code') ≠ .code code := fun h => hsame (WechatKey.code.inj h)
      have hentry : (s.wechat.issue cfg ⟨code, openid, n⟩).redis.entry (.code code') =
          s.wechat.redis.entry (.code code') :=
        (Expiring.entry_del_of_ne (by nofun)).trans
          ((Expiring.entry_put_of_ne hne).trans (Expiring.entry_put_of_ne (by nofun)))
      exact h.index code' openid' ((Expiring.get_congr hentry rfl).symm.trans hi)
  · intro code' openid' hi
    rcases List.mem_cons.mp hi with hi | hi
    · cases hi
      exact hcode
    · exact h.issued code' openid' hi

theorem Charset.step (h : s.Charset) (hok : e.FromCharset) (hstep : s.step cfg e = some s') :
    s'.Charset := by
  cases does_of_step hstep with
  | same => exact h
  | issue => exact h.issue hok
  | verified hverified => exact h.verified hverified
  | tick hle =>
    exact ⟨fun code openid hi => h.index code openid (Expiring.get_of_tick hle hi), h.issued⟩

theorem charset_of_reaches (h0 : s₀.Initial)
    (h : Reaches (step cfg) (fun _ e => e.FromCharset) s₀ s) : s.Charset := by
  refine h.invariant ⟨?_, ?_⟩ fun _ _ _ hs hok hstep => hs.step hok hstep
  · intro code openid hi
    rw [h0.keys] at hi
    cases hi
  · intro code openid hi
    rw [h0.issued] at hi
    cases hi

/-- In another case than it was generated in, a code is accepted by neither login. -/
theorem not_redeemable_of_ne (h : s.Charset) (hcode : FromCharset code)
    (hcase : eqIgnoreAsciiCase code given = true) (hne : given ≠ code) :
    ¬ s.wechat.Redeemable given := by
  rintro ⟨openid, _, hindex, _⟩
  exact hne (Wechat.eq_of_fromCharset hcode (h.index given openid hindex) hcase)

/-- The case of a code is ignored exactly where it is given as it is, or is of no use anyway. -/
theorem caseIgnored_iff (h0 : s₀.Initial)
    (h : Reaches (step cfg) (fun _ e => e.FromCharset) s₀ s) (hissued : (code, openid) ∈ s.issued)
    (hcase : eqIgnoreAsciiCase code given = true) :
    s.wechat.CaseIgnored cfg code given ↔ given = code ∨ ¬ s.wechat.Redeemable code := by
  have hcharset := charset_of_reaches h0 h
  have hcode := hcharset.issued code openid hissued
  constructor
  · intro hignored
    by_cases hsame : given = code
    · exact .inl hsame
    · refine .inr fun hredeemable => ?_
      have haccepted := (hignored.wxLogin ⟨id, 0, 0, 0⟩ _ 0).mpr
        (Wechat.wxLogin_of_redeemable hredeemable)
      exact not_redeemable_of_ne hcharset hcode hcase hsame
        (Wechat.redeemable_of_wxLogin haccepted)
  · rintro (rfl | hnot)
    · exact ⟨fun _ _ _ => Iff.rfl, fun _ _ _ _ _ => Iff.rfl⟩
    · have hgiven : ¬ s.wechat.Redeemable given := by
        by_cases hsame : given = code
        · exact hsame ▸ hnot
        · exact not_redeemable_of_ne hcharset hcode hcase hsame
      constructor
      · intro settings users n
        exact iff_of_false (mt Wechat.redeemable_of_wxLogin hgiven)
          (mt Wechat.redeemable_of_wxLogin hnot)
      · intro settings validator world x body
        exact iff_of_false (mt (Wechat.redeemable_of_login rfl) hgiven)
          (mt (Wechat.redeemable_of_login rfl) hnot)

/-! ### Small letters -/

/-- The account after `ada` was sent her code. -/
def sentQwert : WechatAccount :=
  (noKeys.step {} (.generate "ada" "QWERT")).get (by decide +kernel)

theorem reaches_sentQwert :
    Reaches (step {}) (fun _ e => e.FromCharset) noKeys sentQwert := by
  have hcode : CaptchaEvent.FromCharset (.generate "ada" "QWERT") := by
    have hqwert : FromCharset "QWERT" := by decide
    exact hqwert
  exact .next .start hcode (Option.some_get _).symm

theorem caseIgnored_iff_sentQwert :
    sentQwert.wechat.CaseIgnored {} "QWERT" "qwert" ↔
      "qwert" = "QWERT" ∨ ¬ sentQwert.wechat.Redeemable "QWERT" :=
  caseIgnored_iff initial_noKeys reaches_sentQwert
    (show ("QWERT", "ada") ∈ sentQwert.issued by decide +kernel) (by decide +kernel)

/-- `qwert` is refused where `QWERT` is accepted. -/
theorem not_caseIgnored_qwert :
    ¬ ∀ cfg s₀ s code openid given, Initial s₀ →
      Reaches (step cfg) (fun _ e => e.FromCharset) s₀ s → (code, openid) ∈ s.issued →
      eqIgnoreAsciiCase code given = true → s.wechat.CaseIgnored cfg code given := by
  intro h
  have hignored := h {} noKeys sentQwert "QWERT" "ada" "qwert" initial_noKeys reaches_sentQwert
    (by decide +kernel) (by decide +kernel)
  have hredeemable : sentQwert.wechat.Redeemable "QWERT" :=
    ⟨"ada", ⟨"QWERT", "ada", 0⟩, by decide +kernel, by decide +kernel, by decide +kernel⟩
  have haccepted := (hignored.wxLogin ⟨id, 0, 0, 0⟩ _ 0).mpr
    (Wechat.wxLogin_of_redeemable hredeemable)
  obtain ⟨openid, _, hindex, _⟩ := Wechat.redeemable_of_wxLogin haccepted
  have hnone : sentQwert.wechat.redis.get (.code "qwert") = none := by decide +kernel
  cases hnone.symm.trans hindex

end WechatAccount

end Webshelf
