import Webshelf.Wechat.Issued

/-!
# Is a captcha accepted once?

A call of `verify_for_openid` compares a code with the captcha it peeks at and
then consumes whatever captcha the key holds. The two are the same one unless
`generate` stores another in between.
-/

namespace Webshelf

open Runs

namespace Captchas

/-- Where its SET NX stores a captcha for an openid, no call for this openid is
between its comparison and its consumption. -/
def storesApart (cfg : LoginConfig) (s : Captchas) : CaptchaLabel → Bool
  | .step n outcome => match s.threads[n]? with
    | some (.generate openid _ .setNx) =>
      (!outcome.runs || cfg.captchaTtlSecs == 0) || (s.shared.captcha openid).isSome ||
        s.threads.all fun call => call.matched.all fun (openid', _) => openid' != openid
    | _ => true
  | _ => true

/-- Call `n` has returned `Ok`; `stored` is the captcha its code has matched, and
`taken` the one it has consumed. -/
def Accepted (s : Captchas) (n : Nat) (stored taken : Captcha) : Prop :=
  ∃ openid code, s.threads[n]? = some (.verify openid code (.accepted stored taken))

/-- A captcha is accepted once, and it is the accepted one that is consumed. -/
def OneShot (s : Captchas) : Prop :=
  (∀ n m stored taken stored' taken', s.Accepted n stored taken → s.Accepted m stored' taken' →
    stored.issuedBy = stored'.issuedBy → n = m) ∧
  ∀ n stored taken, s.Accepted n stored taken → taken = stored

/-- No stored captcha has been consumed. -/
def Untaken (s : Wechat) : Prop :=
  ∀ openid c, s.captcha openid = some c → s.takenBy c = none

/-- The captcha that call `n` is going to consume is the one it has matched, and
the one it has consumed is its own. -/
structure Matches (s : Wechat) (n : Nat) (p : CaptchaCall) : Prop where
  matched : ∀ openid c c', p.matched = some (openid, c) → s.captcha openid = some c' → c' = c
  taken : ∀ stored taken, p.taken = some (stored, taken) →
    taken = stored ∧ s.takenBy taken = some n

variable {cfg : LoginConfig} {s s' s₀ : Captchas} {l : CaptchaLabel} {n : Nat} {p : CaptchaCall}

theorem Untaken.fewer {s a : Wechat} (h : Untaken s) (hf : s.Fewer a) : Untaken a := by
  intro openid c hc
  rw [hf.takenBy]
  exact h openid c (hf.captcha openid c hc)

theorem Matches.fewer {s a : Wechat} (h : Matches s n p) (hf : s.Fewer a) : Matches a n p :=
  ⟨fun openid c c' hm hc => h.matched openid c c' hm (hf.captcha openid c' hc),
    fun stored taken ht => hf.takenBy ▸ h.taken stored taken ht⟩

/-- A SET NX that does not run stores nothing. -/
theorem runs_of_store {s : Wechat} {openid code : String} {outcome : RedisOutcome}
    {q : CaptchaCall} (vacant : s.captcha openid = none)
    (hn : (captchaService cfg).next n s (.generate openid code .setNx) outcome =
      some (s.store cfg ⟨code, openid, n⟩, q)) :
    (!outcome.runs || cfg.captchaTtlSecs == 0) = false := by
  rw [Bool.eq_false_iff]
  intro hno
  obtain ⟨⟨a, phase⟩, hnext, h⟩ := Option.map_eq_some_iff.mp hn
  simp only [generateCaptcha, if_pos hno] at hnext
  cases hnext
  have hsame : s = s.store cfg ⟨code, openid, n⟩ := (Prod.mk.inj h).1
  have hthere : (s.store cfg ⟨code, openid, n⟩).captcha openid = some ⟨code, openid, n⟩ :=
    Wechat.captcha_store_self
  rw [← hsame, vacant] at hthere
  cases hthere

theorem matched_apart (hok : s.storesApart cfg l = true) {outcome : RedisOutcome}
    {openid code : String} {q : CaptchaCall} (hl : l = .step n outcome)
    (hp : s.threads[n]? = some (.generate openid code .setNx))
    (vacant : s.shared.captcha openid = none)
    (hn : (captchaService cfg).next n s.shared (.generate openid code .setNx) outcome =
      some (s.shared.store cfg ⟨code, openid, n⟩, q)) {k : Nat} {r : CaptchaCall} {c : Captcha}
    (hk : s.threads[k]? = some r) : r.matched ≠ some (openid, c) := by
  intro hm
  subst hl
  simp only [storesApart, hp, runs_of_store vacant hn, vacant, Option.isSome_none,
    Bool.false_or] at hok
  have h := List.all_eq_true.mp hok r (List.mem_of_getElem? hk)
  rw [hm, Option.all_some, bne_self_eq_false] at h
  cases h

theorem Matches.step (hI : s.AllIssued) (h : Threads.Holds Untaken Matches s)
    (hok : s.storesApart cfg l = true) (hstep : s.step cfg l = some s') :
    Threads.Holds Untaken Matches s' := by
  refine h.step hstep ?_ ?_ ?_
  · intro p _ hp
    cases p with
    | generate => exact ⟨nofun, nofun⟩
    | verify openid code phase =>
      have hphase : phase = .peek := of_decide_eq_true hp
      subst hphase
      exact ⟨nofun, nofun⟩
  · intro n outcome p a q hl hp hA hn
    cases CaptchaCall.does_of_next hn with
    | fewer fewer matched taken =>
      refine ⟨h.shared.fewer fewer, ⟨?_, ?_⟩,
        fun k r _ _ hB => hB.fewer fewer⟩
      · intro openid c c' hm hc
        have hc' := fewer.captcha openid c' hc
        exact Option.some.inj (hc'.symm.trans (matched openid c hm))
      · intro stored t ht
        rw [fewer.takenBy]
        exact hA.taken stored t (taken _ ht)
    | @store openid code q vacant =>
      refine ⟨?_, ⟨nofun, nofun⟩, fun k r _ hk hB => ⟨?_, hB.taken⟩⟩
      · intro openid' c hc
        rcases Wechat.captcha_store hc with ⟨rfl, -⟩ | hc
        · -- the call of `generate` has not been past its SET NX before
          cases ht : s.shared.takenBy ⟨code, openid, n⟩ with
          | none => exact ht
          | some m =>
            obtain ⟨phase, hphase, hne⟩ := hI.taken _ m ht
            cases hp.symm.trans hphase
            exact absurd rfl hne
        · exact h.shared openid' c hc
      · intro openid' c c' hm hc
        rcases Wechat.captcha_store hc with ⟨-, ho⟩ | hc
        · exact absurd (ho ▸ hm) (matched_apart hok hl hp vacant hn hk)
        · exact hB.matched openid' c c' hm hc
    | @consume openid code stored c q there after =>
      refine ⟨?_, ⟨?_, ?_⟩,
        fun k r _ _ hB => ⟨?_, ?_⟩⟩
      · intro openid' c' hc
        obtain ⟨hne, hc⟩ := Wechat.captcha_consume there hc
        cases ht : (s.shared.consume n openid).takenBy c' with
        | none => rfl
        | some m =>
          rcases Wechat.takenBy_consume there ht with ⟨rfl, -⟩ | ht
          · have ho := (hI.stored openid c' there).1
            exact absurd ((hI.stored openid' c' hc).1.symm.trans ho) hne
          · exact absurd (h.shared openid' c' hc) (by rw [ht]; nofun)
      · rcases after with rfl | ⟨e, rfl⟩ <;> nofun
      · intro stored' t ht
        rcases after with rfl | ⟨e, rfl⟩
        · cases ht
          refine ⟨hA.matched openid stored c rfl there, ?_⟩
          rw [Wechat.consume_some there]
          exact Function.update_self ..
        · cases ht
      · intro openid' c₁ c₂ hm hc
        exact hB.matched openid' c₁ c₂ hm (Wechat.captcha_consume there hc).2
      · intro stored' t ht
        obtain ⟨hsame, ht⟩ := hB.taken stored' t ht
        refine ⟨hsame, ?_⟩
        have hne : t ≠ c := fun he => by
          rw [he, h.shared openid c there] at ht
          cases ht
        rw [Wechat.consume_some there]
        exact (Function.update_of_ne hne ..).trans ht
  · intro now a hl he
    obtain ⟨hle, rfl⟩ := captchas_tick he
    have hf : s.shared.Fewer { s.shared with redis := s.shared.redis.tick now } :=
      ⟨fun _ _ hc => Expiring.get_of_tick hle hc, rfl⟩
    exact ⟨h.shared.fewer hf, fun k r _ hB => hB.fewer hf⟩

theorem captchas_one_shot (h0 : s₀.Initial)
    (h : Reaches (step cfg) (fun s l => s.storesApart cfg l = true) s₀ s) : s.OneShot := by
  have hinit : s₀.AllIssued ∧ Threads.Holds Untaken Matches s₀ := by
    refine ⟨.start h0, fun openid c _ => h0.untaken c, ?_⟩
    intro n p hn
    rw [h0.threads] at hn
    cases hn
  obtain ⟨hI, hM⟩ := h.invariant
    (I := fun s : Captchas => s.AllIssued ∧ Threads.Holds Untaken Matches s) hinit
    fun _ _ _ hs hok hstep => ⟨hs.1.step hstep, Matches.step hs.1 hs.2 hok hstep⟩
  have hown : ∀ n stored taken, s.Accepted n stored taken →
      taken = stored ∧ s.shared.takenBy taken = some n ∧ s.Issued stored := by
    rintro n stored taken ⟨openid, code, hn⟩
    obtain ⟨hsame, ht⟩ := (hM.thread n _ hn).taken stored taken rfl
    exact ⟨hsame, ht, (hI.seen n _ stored hn List.mem_cons_self).2⟩
  refine ⟨fun n m stored taken stored' taken' hn hm hsame => ?_, fun n stored taken hn =>
    (hown n stored taken hn).1⟩
  obtain ⟨rfl, htn, hi⟩ := hown n stored taken hn
  obtain ⟨rfl, htm, hi'⟩ := hown m stored' taken' hm
  rw [hi.eq_of_issuedBy hi' hsame, htm] at htn
  exact (Option.some.inj htn).symm

/-- A captcha is generated, and two calls present its code: the first one peeks at it,
the second one consumes it. -/
def twoMatch : List CaptchaLabel :=
  [.begin (.generate "ada" "QWERT" .setNx)] ++ steps 0 3 ++
    [.begin (.verify "ada" "qwert" .peek)] ++ steps 1 1 ++
    [.begin (.verify "ada" "QWERT" .peek)] ++ steps 2 3

theorem captchas_one_shot_two :
    ∃ s, Reaches (step {}) (fun s l => s.storesApart {} l = true) noCaptchas s ∧
      s.threads[1]? = some (.verify "ada" "qwert" (.failed .captchaNotFound)) ∧ s.OneShot := by
  have hrun : Reaches (step {}) (fun s l => s.storesApart {} l = true) noCaptchas
      ((run (step {}) (fun s l => s.storesApart {} l = true) noCaptchas (twoMatch ++ steps 1 1)).get
        (by decide +kernel)) :=
    reaches_run_get _
  exact ⟨_, hrun, by decide +kernel, captchas_one_shot initial_noCaptchas hrun⟩

/-- Before the first call goes on, another captcha is generated; it consumes that one. -/
def regenerated : List CaptchaLabel :=
  twoMatch ++ [.begin (.generate "ada" "ZXCVB" .setNx)] ++ steps 3 3 ++ steps 1 2

theorem captcha_accepted_twice :
    ¬ ∀ cfg s₀ s, Initial s₀ → Reaches (step cfg) Free s₀ s → s.OneShot := by
  intro h
  have hrun : Reaches (step {}) Free noCaptchas
      ((run (step {}) Free noCaptchas regenerated).get (by decide +kernel)) :=
    reaches_run_get _
  have hfirst : Accepted _ 2 ⟨"QWERT", "ada", 0⟩ ⟨"QWERT", "ada", 0⟩ :=
    ⟨"ada", "QWERT", show ((run (step {}) Free noCaptchas regenerated).get
      (by decide +kernel)).threads[2]? = _ by decide +kernel⟩
  have hsecond : Accepted _ 1 ⟨"QWERT", "ada", 0⟩ ⟨"ZXCVB", "ada", 3⟩ :=
    ⟨"ada", "qwert", show ((run (step {}) Free noCaptchas regenerated).get
      (by decide +kernel)).threads[1]? = _ by decide +kernel⟩
  have hsame := (h {} noCaptchas _ initial_noCaptchas hrun).1 2 1 _ _ _ _ hfirst hsecond rfl
  cases hsame

end Captchas

end Webshelf
