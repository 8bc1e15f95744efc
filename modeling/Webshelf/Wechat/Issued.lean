import Webshelf.Wechat.Captcha

/-!
# What the calls of the captcha service do

A step stores a captcha, consumes one, or leaves the captchas as they are or
fewer. Every captcha that is stored or that a call remembers comes from a call
of `generate` that is past its SET NX.
-/

namespace Webshelf

/-- The openid of a call that has matched its code and not consumed a captcha
yet, and the captcha it has matched. -/
def CaptchaCall.matched : CaptchaCall → Option (String × Captcha)
  | verify openid _ (.consume stored) => some (openid, stored)
  | _ => none

/-- The captchas a call has seen: the one it has peeked at, and the one it has consumed. -/
def VerifyForOpenid.seen : VerifyForOpenid → List Captcha
  | incr stored | expire stored _ | deletePeek stored | deleteIndex stored _ | deleteKey stored
  | deleteAttempts stored | consume stored | rejected stored _ => [stored]
  | reset stored taken | accepted stored taken => [stored, taken]
  | peek | failed _ => []

def CaptchaCall.seen : CaptchaCall → List Captcha
  | generate _ _ _ => []
  | verify _ _ phase => phase.seen

def CaptchaCall.openid : CaptchaCall → String
  | generate openid _ _ | verify openid _ _ => openid

/-- The captcha that a call has matched, and the one it has consumed. -/
def CaptchaCall.taken : CaptchaCall → Option (Captcha × Captcha)
  | verify _ _ (.reset stored taken) | verify _ _ (.accepted stored taken) => some (stored, taken)
  | _ => none

namespace Wechat

/-- No captcha is new, and none has been consumed. -/
structure Fewer (s a : Wechat) : Prop where
  captcha : ∀ openid c, a.captcha openid = some c → s.captcha openid = some c
  takenBy : a.takenBy = s.takenBy

/-- A new captcha under the key of its openid. -/
def store (s : Wechat) (cfg : LoginConfig) (c : Captcha) : Wechat :=
  { s with redis := s.redis.put (.captcha c.openid) c (some cfg.ttl) }

variable {cfg : LoginConfig} {s a : Wechat} {openid : String} {c : Captcha}

theorem Fewer.refl : Fewer s s := ⟨fun _ _ h => h, rfl⟩

theorem Fewer.ite {runs : Bool} (h : Fewer s a) : Fewer s (if runs then a else s) := by
  cases runs
  · exact .refl
  · exact h

/-- A command on a key that is not a captcha. -/
theorem fewer_of_captcha {redis : Expiring WechatKey WechatKey.Value}
    (h : ∀ openid, redis.get (.captcha openid) = s.captcha openid) :
    Fewer s { s with redis } :=
  ⟨fun openid _ hc => h openid ▸ hc, rfl⟩

theorem fewer_del {k : WechatKey} : Fewer s (s.del k) :=
  ⟨fun _ _ h => Expiring.get_of_del h, rfl⟩

theorem fewer_incr : Fewer s (s.incr openid) :=
  fewer_of_captcha fun _ => Expiring.get_alter_of_ne nofun

theorem captcha_store_self : (s.store cfg c).captcha c.openid = some c := by
  refine Expiring.get_put_self ?_
  simp only [LoginConfig.ttl, seconds]
  omega

theorem captcha_store {openid' : String} {c' : Captcha}
    (h : (s.store cfg c).captcha openid' = some c') :
    c' = c ∧ openid' = c.openid ∨ s.captcha openid' = some c' := by
  by_cases ho : openid' = c.openid
  · subst ho
    exact .inl ⟨Option.some.inj (h.symm.trans captcha_store_self), rfl⟩
  · have hne : (WechatKey.captcha openid') ≠ .captcha c.openid := fun h => ho (by cases h; rfl)
    exact .inr ((Expiring.get_put_of_ne hne).symm.trans h)

theorem consume_some {n : Nat} (hc : s.captcha openid = some c) :
    s.consume n openid =
      { redis := ((s.redis.del (.captcha openid)).del (.attempts openid)).del (.code c.code)
        takenBy := Function.update s.takenBy c (some n) } := by
  rw [consume, hc]

theorem captcha_consume {n : Nat} {openid' : String} {c' : Captcha}
    (hc : s.captcha openid = some c) (h : (s.consume n openid).captcha openid' = some c') :
    openid' ≠ openid ∧ s.captcha openid' = some c' := by
  rw [consume_some hc] at h
  have h : (s.redis.del (.captcha openid)).get (.captcha openid') = some c' :=
    Expiring.get_of_del (Expiring.get_of_del h)
  refine ⟨?_, Expiring.get_of_del h⟩
  rintro rfl
  rw [Expiring.get_del_self] at h
  cases h

theorem takenBy_consume {n m : Nat} {c' : Captcha} (hc : s.captcha openid = some c)
    (h : (s.consume n openid).takenBy c' = some m) : c' = c ∧ m = n ∨ s.takenBy c' = some m := by
  rw [consume_some hc] at h
  by_cases hne : c' = c
  · rw [hne] at h
    exact .inl ⟨hne, Option.some.inj (h.symm.trans (Function.update_self ..))⟩
  · exact .inr ((Function.update_of_ne hne ..).symm.trans h)

end Wechat

/-- What a step of a call does to the captchas, and which ones it holds after it. -/
inductive CaptchaCall.Does (cfg : LoginConfig) (n : Nat) (s : Wechat) :
    CaptchaCall → Wechat → CaptchaCall → Prop
  | fewer {p q : CaptchaCall} {a : Wechat} (fewer : s.Fewer a)
      (matched : ∀ openid c, q.matched = some (openid, c) → s.captcha openid = some c)
      (taken : ∀ x, q.taken = some x → p.taken = some x) : Does cfg n s p a q
  | store {openid code : String} {q : GenerateCaptcha} (vacant : s.captcha openid = none) :
      Does cfg n s (.generate openid code .setNx) (s.store cfg ⟨code, openid, n⟩)
        (.generate openid code q)
  | consume {openid code : String} {stored c : Captcha} {q : VerifyForOpenid}
      (there : s.captcha openid = some c)
      (after : q = .reset stored c ∨ ∃ e, q = .failed e) :
      Does cfg n s (.verify openid code (.consume stored)) (s.consume n openid)
        (.verify openid code q)

variable {cfg : LoginConfig} {n : Nat} {s a : Wechat} {p q : CaptchaCall} {outcome : RedisOutcome}

theorem CaptchaCall.does_of_generate {openid code : String} {p q : GenerateCaptcha}
    (h : generateCaptcha cfg n openid code s p outcome = some (a, q)) :
    Does cfg n s (.generate openid code p) a (.generate openid code q) := by
  cases p with
  | setNx =>
    simp only [generateCaptcha] at h
    split at h
    · cases h
      exact .fewer .refl nofun nofun
    · split at h
      · cases h
        exact .fewer .refl nofun nofun
      · rename_i hnone
        cases h
        exact .store (Option.not_isSome_iff_eq_none.mp hnone)
  | setIndex =>
    cases h
    exact .fewer (.ite (Wechat.fewer_of_captcha fun _ => Expiring.get_put_of_ne nofun)) nofun nofun
  | resetAttempts =>
    cases h
    exact .fewer (.ite Wechat.fewer_del) nofun nofun
  | issued | failed => cases h

theorem CaptchaCall.does_of_verify {openid code : String} {p q : VerifyForOpenid}
    (h : verifyForOpenid cfg n openid code s p outcome = some (a, q)) :
    Does cfg n s (.verify openid code p) a (.verify openid code q) := by
  cases p with
  | peek =>
    cases h
    refine .fewer .refl ?_ ?_
    · intro openid' c hm
      cases outcome <;> simp only [RedisOutcome.answer] at hm
      · cases hc : s.captcha openid with
        | none =>
          rw [hc] at hm
          cases hm
        | some stored =>
          rw [hc] at hm
          simp only at hm
          split at hm
          · cases hm
            exact hc
          · cases hm
      all_goals cases hm
    · intro x hx
      cases outcome <;> simp only [RedisOutcome.answer] at hx
      · cases hc : s.captcha openid with
        | none =>
          rw [hc] at hx
          cases hx
        | some stored =>
          rw [hc] at hx
          simp only at hx
          split at hx <;> cases hx
      all_goals cases hx
  | incr stored =>
    cases h
    exact .fewer (.ite Wechat.fewer_incr) (by cases outcome <;> nofun) (by cases outcome <;> nofun)
  | expire stored attempts =>
    cases h
    refine .fewer (.ite (Wechat.fewer_of_captcha fun _ => Expiring.get_expire_of_ne nofun)) ?_ ?_
    all_goals
      cases outcome <;> simp only [RedisOutcome.answer]
      · split <;> nofun
      all_goals nofun
  | deletePeek stored =>
    cases h
    refine .fewer .refl ?_ ?_
    all_goals
      cases outcome <;> simp only [RedisOutcome.answer]
      · cases s.captcha openid <;> nofun
      all_goals nofun
  | deleteIndex | deleteKey | deleteAttempts =>
    cases h
    exact .fewer (.ite Wechat.fewer_del) (by cases outcome <;> nofun) (by cases outcome <;> nofun)
  | consume stored =>
    cases h
    cases hc : s.captcha openid with
    | none =>
      have hsame : s.consume n openid = s := by rw [Wechat.consume, hc]
      rw [hsame, ite_self]
      exact .fewer .refl (by cases outcome <;> nofun) (by cases outcome <;> nofun)
    | some c =>
      cases outcome with
      | done => exact .consume hc (.inl rfl)
      | lost => exact .consume hc (.inr ⟨_, rfl⟩)
      | unavailable | failed => exact .fewer .refl nofun nofun
  | reset stored taken =>
    cases h
    refine .fewer (.ite Wechat.fewer_del) (by cases outcome <;> nofun) ?_
    intro x hx
    cases outcome <;> cases hx <;> rfl
  | accepted | rejected | failed => cases h

/-- What a step of the service does. -/
theorem CaptchaCall.does_of_next
    (h : (captchaService cfg).next n s p outcome = some (a, q)) : Does cfg n s p a q := by
  cases p with
  | generate openid code phase =>
    obtain ⟨⟨a, q⟩, hq, h⟩ := Option.map_eq_some_iff.mp h
    cases h
    exact does_of_generate hq
  | verify openid code phase =>
    obtain ⟨⟨a, q⟩, hq, h⟩ := Option.map_eq_some_iff.mp h
    cases h
    exact does_of_verify hq

/-- A call sees the captcha of its openid only. -/
theorem VerifyForOpenid.seen_of_next {openid code : String} {p q : VerifyForOpenid} {c : Captcha}
    (h : verifyForOpenid cfg n openid code s p outcome = some (a, q)) (hc : c ∈ q.seen) :
    c ∈ p.seen ∨ s.captcha openid = some c := by
  cases p with
  | peek =>
    cases h
    cases outcome <;> simp only [RedisOutcome.answer] at hc
    · cases hs : s.captcha openid with
      | none =>
        rw [hs] at hc
        cases hc
      | some stored =>
        rw [hs] at hc
        simp only at hc
        split at hc <;> exact .inr (congrArg some (List.mem_singleton.mp hc).symm)
    all_goals cases hc
  | expire stored attempts =>
    cases h
    cases outcome <;> simp only [RedisOutcome.answer] at hc
    · split at hc <;> exact .inl hc
    all_goals exact .inl hc
  | deletePeek stored =>
    cases h
    cases outcome <;> simp only [RedisOutcome.answer] at hc
    · split at hc <;> exact .inl hc
    all_goals exact .inl hc
  | consume stored =>
    cases h
    cases outcome <;> simp only [RedisOutcome.answer] at hc
    · cases hs : s.captcha openid with
      | none =>
        rw [hs] at hc
        cases hc
      | some taken =>
        rw [hs] at hc
        rcases List.mem_cons.mp hc with rfl | hc
        · exact .inl (List.mem_singleton_self _)
        · exact .inr (congrArg some (List.mem_singleton.mp hc).symm)
    all_goals cases hc
  | incr | deleteIndex | deleteKey | deleteAttempts =>
    cases h
    cases outcome <;> exact .inl hc
  | reset stored taken =>
    cases h
    cases outcome <;> simp only [RedisOutcome.answer] at hc
    · exact .inl hc
    · exact .inl hc
    all_goals cases hc
  | accepted | rejected | failed => cases h

theorem CaptchaCall.seen_of_next {c : Captcha}
    (h : (captchaService cfg).next n s p outcome = some (a, q)) (hc : c ∈ q.seen) :
    c ∈ p.seen ∨ s.captcha p.openid = some c := by
  cases p with
  | generate openid code phase =>
    obtain ⟨⟨a, q⟩, -, h⟩ := Option.map_eq_some_iff.mp h
    cases h
    cases hc
  | verify openid code phase =>
    obtain ⟨⟨a, q⟩, hq, h⟩ := Option.map_eq_some_iff.mp h
    cases h
    exact VerifyForOpenid.seen_of_next hq hc

theorem CaptchaCall.openid_of_next (h : (captchaService cfg).next n s p outcome = some (a, q)) :
    q.openid = p.openid := by
  cases p <;>
  · obtain ⟨⟨a, q⟩, -, h⟩ := Option.map_eq_some_iff.mp h
    cases h
    rfl

/-- A call of `generate` does not go back to its SET NX. -/
theorem generate_of_next {openid code : String} {phase : GenerateCaptcha}
    (h : (captchaService cfg).next n s (.generate openid code phase) outcome = some (a, q)) :
    ∃ phase', q = .generate openid code phase' ∧ phase' ≠ .setNx := by
  obtain ⟨⟨a, q⟩, hq, h⟩ := Option.map_eq_some_iff.mp h
  cases h
  refine ⟨q, rfl, ?_⟩
  cases phase with
  | setNx =>
    simp only [generateCaptcha] at hq
    split at hq
    · cases hq
      nofun
    · split at hq
      · cases hq
        split <;> nofun
      · cases hq
        split <;> nofun
  | setIndex =>
    cases hq
    nofun
  | resetAttempts =>
    cases hq
    split <;> nofun
  | issued | failed => cases hq

theorem captchas_tick {now : Time} (h : (captchaService cfg).surround s now = some a) :
    s.redis.clock ≤ now ∧ a = { s with redis := s.redis.tick now } := by
  simp only [captchaService] at h
  split at h
  · exact ⟨‹_›, (Option.some.inj h).symm⟩
  · cases h

theorem not_seen_of_initial {c : Captcha} (h : (captchaService cfg).initial p = true) :
    c ∉ p.seen := by
  cases p with
  | generate => exact List.not_mem_nil
  | verify openid code phase =>
    have hphase : phase = .peek := of_decide_eq_true h
    subst hphase
    exact List.not_mem_nil

abbrev Captchas := Threads.State Wechat CaptchaCall

abbrev CaptchaLabel := Threads.Label CaptchaCall RedisOutcome Time

namespace Captchas

def step (cfg : LoginConfig) : Captchas → CaptchaLabel → Option Captchas :=
  Threads.step (captchaService cfg)

/-- No call has begun, and no captcha is stored or consumed. -/
structure Initial (s : Captchas) : Prop where
  threads : s.threads = []
  captchas : ∀ openid, s.shared.captcha openid = none
  untaken : ∀ c, s.shared.takenBy c = none

/-- The call of `generate` that stored the captcha is past its SET NX. -/
def Issued (s : Captchas) (c : Captcha) : Prop :=
  ∃ phase, s.threads[c.issuedBy]? = some (.generate c.openid c.code phase) ∧ phase ≠ .setNx

/-- Every captcha has been issued, and stands under the key of its openid. -/
structure AllIssued (s : Captchas) : Prop where
  stored : ∀ openid c, s.shared.captcha openid = some c → c.openid = openid ∧ s.Issued c
  taken : ∀ c m, s.shared.takenBy c = some m → s.Issued c
  seen : ∀ (n : Nat) (p : CaptchaCall) c, s.threads[n]? = some p → c ∈ p.seen →
    c.openid = p.openid ∧ s.Issued c

variable {s s' : Captchas} {l : CaptchaLabel} {c : Captcha}

/-- A call of `generate` draws one code for one openid. -/
theorem Issued.eq_of_issuedBy {c' : Captcha} (h : s.Issued c) (h' : s.Issued c')
    (hsame : c.issuedBy = c'.issuedBy) : c = c' := by
  obtain ⟨phase, hg, -⟩ := h
  obtain ⟨phase', hg', -⟩ := h'
  rw [hsame] at hg
  have heq := hg.symm.trans hg'
  simp only [Option.some.injEq, CaptchaCall.generate.injEq] at heq
  obtain ⟨ho, hcode, -⟩ := heq
  cases c
  cases c'
  simp_all only

theorem Issued.step (h : s.Issued c) (hstep : s.step cfg l = some s') : s'.Issued c := by
  obtain ⟨phase, hg, hne⟩ := h
  obtain ⟨p, -, -, rfl⟩ | ⟨n, outcome, p, a, q, -, hp, hn, rfl⟩ | ⟨now, a, -, -, rfl⟩ :=
    Threads.step_cases hstep
  · obtain ⟨hlt, -⟩ := List.getElem?_eq_some_iff.mp hg
    exact ⟨phase, (List.getElem?_append_left hlt).trans hg, hne⟩
  · by_cases hcn : c.issuedBy = n
    · subst hcn
      cases hp.symm.trans hg
      obtain ⟨phase', rfl, hne'⟩ := generate_of_next hn
      exact ⟨phase', Threads.get_set_self hp, hne'⟩
    · exact ⟨phase, (Threads.get_set_other hcn).trans hg, hne⟩
  · exact ⟨phase, hg, hne⟩

theorem AllIssued.step (h : s.AllIssued) (hstep : s.step cfg l = some s') : s'.AllIssued := by
  have hkeep : ∀ {c}, s.Issued c → s'.Issued c := fun hc => hc.step hstep
  obtain ⟨p, -, hp, rfl⟩ | ⟨n, outcome, p, a, q, -, hp, hn, rfl⟩ | ⟨now, a, -, he, rfl⟩ :=
    Threads.step_cases hstep
  · refine ⟨fun openid c hc => (h.stored openid c hc).imp_right hkeep,
      fun c m hc => hkeep (h.taken c m hc), ?_⟩
    intro k r c hk hc
    rcases Threads.get_begin hk with hk | ⟨-, rfl⟩
    · exact (h.seen k r c hk hc).imp_right hkeep
    · exact absurd hc (not_seen_of_initial hp)
  · refine ⟨?_, ?_, ?_⟩
    · intro openid c hc
      cases CaptchaCall.does_of_next hn with
      | fewer fewer => exact (h.stored openid c (fewer.captcha openid c hc)).imp_right hkeep
      | store vacant =>
        rcases Wechat.captcha_store hc with ⟨rfl, rfl⟩ | hc
        · obtain ⟨phase, hphase, hne⟩ := generate_of_next hn
          cases hphase
          exact ⟨rfl, _, Threads.get_set_self hp, hne⟩
        · exact (h.stored openid c hc).imp_right hkeep
      | consume there =>
        obtain ⟨-, hc⟩ := Wechat.captcha_consume there hc
        exact (h.stored openid c hc).imp_right hkeep
    · intro c m hc
      cases CaptchaCall.does_of_next hn with
      | fewer fewer => exact hkeep (h.taken c m (fewer.takenBy ▸ hc))
      | store vacant => exact hkeep (h.taken c m hc)
      | consume there =>
        rcases Wechat.takenBy_consume there hc with ⟨rfl, -⟩ | hc
        · exact hkeep (h.stored _ _ there).2
        · exact hkeep (h.taken c m hc)
    · intro k r c hk hc
      rcases Threads.get_set hp hk with ⟨rfl, rfl⟩ | ⟨-, hk⟩
      · rw [CaptchaCall.openid_of_next hn]
        rcases CaptchaCall.seen_of_next hn hc with hc | hc
        · exact (h.seen k p c hp hc).imp_right hkeep
        · exact (h.stored _ c hc).imp_right hkeep
      · exact (h.seen k r c hk hc).imp_right hkeep
  · obtain ⟨hle, rfl⟩ := captchas_tick he
    exact ⟨fun openid c hc => (h.stored openid c (Expiring.get_of_tick hle hc)).imp_right hkeep,
      fun c m hc => hkeep (h.taken c m hc), fun k r c hk hc => (h.seen k r c hk hc).imp_right hkeep⟩

theorem AllIssued.start (h : s.Initial) : s.AllIssued := by
  refine ⟨?_, ?_, ?_⟩
  · intro openid c hc
    rw [h.captchas] at hc
    cases hc
  · intro c m hc
    rw [h.untaken] at hc
    cases hc
  · intro n p c hn
    rw [h.threads] at hn
    cases hn

/-- An account without keys. -/
def noCaptchas : Captchas := ⟨⟨⟨0, fun _ => none⟩, fun _ => none⟩, []⟩

theorem initial_noCaptchas : noCaptchas.Initial := ⟨rfl, fun _ => rfl, fun _ => rfl⟩

/-- Call `n` takes its next `k` steps. -/
def steps (n k : Nat) : List CaptchaLabel := List.replicate k (.step n .done)

end Captchas

end Webshelf
