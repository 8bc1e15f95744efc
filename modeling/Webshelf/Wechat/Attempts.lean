import Webshelf.Wechat.Issued

/-!
# How many wrong guesses does a captcha take?

A wrong code is compared first and counted afterwards, so a captcha takes the
guesses that are still to be counted on top of those in its counter. The
counter is a key of its own: it may be deleted or expire under a captcha that
has been guessed wrong.
-/

namespace Webshelf

open Runs

/-- The captcha a wrong code has been compared with, before the INCR. -/
def CaptchaCall.pending : CaptchaCall → Option Captcha
  | verify _ _ (.incr stored) => some stored
  | _ => none

/-- The captcha a wrong code has been compared with, after the INCR. -/
def CaptchaCall.counted : CaptchaCall → Option Captcha
  | verify _ _ (.expire stored _) | verify _ _ (.deletePeek stored)
  | verify _ _ (.deleteIndex stored _) | verify _ _ (.deleteKey stored)
  | verify _ _ (.deleteAttempts stored) | verify _ _ (.rejected stored _) => some stored
  | _ => none

/-- The openid whose counter the next command deletes. -/
def CaptchaCall.resets : CaptchaCall → Option String
  | generate openid _ .resetAttempts | verify openid _ (.deleteAttempts _)
  | verify openid _ (.reset _ _) => some openid
  | _ => none

namespace Captchas

def pending (s : Captchas) (c : Captcha) : Nat :=
  s.threads.countP fun call => call.pending == some c

def counted (s : Captchas) (c : Captcha) : Nat :=
  s.threads.countP fun call => call.counted == some c

/-- The wrong codes that have been compared with the captcha. -/
def wrongGuesses (s : Captchas) (c : Captcha) : Nat :=
  s.threads.countP fun call => call.pending == some c || call.counted == some c

/-- The captcha of the openid, if there is one, has no wrong guess in its counter. -/
def unguessed (s : Captchas) (shared : Wechat) (openid : String) : Bool :=
  (shared.captcha openid).all fun c => s.counted c == 0

/-- A wrong code is compared while the counter and the guesses still to be
counted are below the maximum; every wrong guess is counted; and no counter is
deleted or expires under a captcha that has been guessed wrong. -/
def countsApart (cfg : LoginConfig) (s : Captchas) : CaptchaLabel → Bool
  | .step n outcome => match s.threads[n]? with
    | some (.verify openid code .peek) => outcome != .done ||
      (s.shared.captcha openid).all fun stored => eqIgnoreAsciiCase stored.code code ||
        decide (s.shared.attempts openid + s.pending stored < cfg.maxFailedAttempts)
    | some (.verify _ _ (.incr _)) => outcome.runs
    | some call => call.resets.all fun openid => !outcome.runs || s.unguessed s.shared openid
    | none => true
  | .surround now =>
    let later := { s.shared with redis := s.shared.redis.tick now }
    s.threads.all fun call => later.attempts call.openid == s.shared.attempts call.openid ||
      s.unguessed later call.openid
  | .begin _ => true

/-- Every wrong guess at a stored captcha that is not pending is in the counter. -/
def Counts (s : Captchas) : Prop :=
  ∀ openid c, s.shared.captcha openid = some c → s.counted c ≤ s.shared.attempts openid

def Bounded (cfg : LoginConfig) (s : Captchas) : Prop :=
  ∀ c, s.wrongGuesses c ≤ cfg.maxFailedAttempts

end Captchas

variable {cfg : LoginConfig} {n : Nat} {s a : Wechat} {p q : CaptchaCall} {outcome : RedisOutcome}
  {openid : String} {c : Captcha}

/-- A captcha after a step was there before it, or the step has stored it. -/
theorem captcha_of_next (h : (captchaService cfg).next n s p outcome = some (a, q))
    (hc : a.captcha openid = some c) :
    s.captcha openid = some c ∨ ∃ code, p = .generate openid code .setNx ∧ c.issuedBy = n := by
  cases CaptchaCall.does_of_next h with
  | fewer fewer => exact .inl (fewer.captcha openid c hc)
  | @store openid' code q vacant =>
    rcases Wechat.captcha_store hc with ⟨rfl, rfl⟩ | hc
    · exact .inr ⟨code, rfl, rfl⟩
    · exact .inl hc
  | consume there => exact .inl (Wechat.captcha_consume there hc).2

/-- What a step of a call adds to the wrong guesses. -/
inductive CaptchaCall.Guesses (s : Wechat) (outcome : RedisOutcome) :
    CaptchaCall → CaptchaCall → Prop
  | wrong {openid code : String} {c : Captcha} (answered : outcome = .done)
      (there : s.captcha openid = some c) (differs : eqIgnoreAsciiCase c.code code = false) :
      Guesses s outcome (.verify openid code .peek) (.verify openid code (.incr c))
  | count {openid code : String} {c : Captcha} {q : CaptchaCall} (pending : q.pending = none)
      (counted : q.counted = some c) : Guesses s outcome (.verify openid code (.incr c)) q
  | same {p q : CaptchaCall} (pending : p.pending = none) (after : q.pending = none)
      (counted : q.counted = p.counted) : Guesses s outcome p q

theorem CaptchaCall.guesses_of_verify {openid code : String} {p q : VerifyForOpenid}
    (h : verifyForOpenid cfg n openid code s p outcome = some (a, q)) :
    Guesses s outcome (.verify openid code p) (.verify openid code q) := by
  cases p with
  | peek =>
    cases h
    cases outcome <;> simp only [RedisOutcome.answer]
    · cases hc : s.captcha openid with
      | none => exact .same rfl rfl rfl
      | some stored =>
        simp only
        split
        · exact .same rfl rfl rfl
        · rename_i hne
          exact .wrong rfl hc (Bool.eq_false_iff.mpr hne)
    all_goals exact .same rfl rfl rfl
  | incr stored =>
    cases h
    cases outcome <;> exact .count rfl rfl
  | expire stored attempts =>
    cases h
    cases outcome <;> simp only [RedisOutcome.answer]
    · split <;> exact .same rfl rfl rfl
    all_goals exact .same rfl rfl rfl
  | deletePeek stored =>
    cases h
    cases outcome <;> simp only [RedisOutcome.answer]
    · cases s.captcha openid <;> exact .same rfl rfl rfl
    all_goals exact .same rfl rfl rfl
  | consume stored =>
    cases h
    cases outcome <;> simp only [RedisOutcome.answer]
    · cases s.captcha openid <;> exact .same rfl rfl rfl
    all_goals exact .same rfl rfl rfl
  | deleteIndex | deleteKey | deleteAttempts | reset =>
    cases h
    cases outcome <;> exact .same rfl rfl rfl
  | accepted | rejected | failed => cases h

theorem CaptchaCall.guesses_of_next
    (h : (captchaService cfg).next n s p outcome = some (a, q)) : Guesses s outcome p q := by
  cases p with
  | generate openid code phase =>
    obtain ⟨⟨a, q⟩, -, h⟩ := Option.map_eq_some_iff.mp h
    cases h
    exact .same rfl rfl rfl
  | verify openid code phase =>
    obtain ⟨⟨a, q⟩, hq, h⟩ := Option.map_eq_some_iff.mp h
    cases h
    exact guesses_of_verify hq

namespace Wechat

theorem attempts_incr : (s.incr openid).attempts openid = s.attempts openid + 1 := by
  simp [attempts, incr]

/-- A command on another key leaves the counter as it is. -/
theorem attempts_of_get {b : Wechat}
    (h : b.redis.get (.attempts openid) = s.redis.get (.attempts openid)) :
    s.attempts openid ≤ b.attempts openid :=
  Nat.le_of_eq (congrArg (Option.getD · 0) h.symm)

theorem le_attempts_incr {openid' : String} :
    s.attempts openid ≤ (s.incr openid').attempts openid := by
  by_cases ho : openid = openid'
  · rw [ho, attempts_incr]
    exact Nat.le_succ _
  · have hne : (WechatKey.attempts openid) ≠ .attempts openid' := fun h => ho (by cases h; rfl)
    exact attempts_of_get (by simp only [incr, Expiring.get_alter_of_ne hne])

theorem le_attempts_ite {runs : Bool} {b : Wechat} (h : s.attempts openid ≤ b.attempts openid) :
    s.attempts openid ≤ (if runs then b else s).attempts openid := by
  cases runs
  · exact Nat.le_refl _
  · exact h

theorem attempts_del {openid' : String} {runs : Bool} :
    s.attempts openid ≤ (if runs then s.del (.attempts openid') else s).attempts openid ∨
      some openid' = some openid ∧ runs = true := by
  cases runs with
  | false => exact .inl (Nat.le_refl _)
  | true =>
    by_cases ho : openid = openid'
    · exact .inr ⟨congrArg some ho.symm, rfl⟩
    · have hne : (WechatKey.attempts openid) ≠ .attempts openid' := fun h => ho (by cases h; rfl)
      exact .inl (attempts_of_get (Expiring.get_del_of_ne hne))

theorem attempts_consume {openid' : String} {c' : Captcha} (there : s.captcha openid' = some c')
    (hc : (s.consume n openid').captcha openid = some c) :
    s.attempts openid ≤ (s.consume n openid').attempts openid := by
  obtain ⟨hne, -⟩ := captcha_consume there hc
  have hkey : (WechatKey.attempts openid) ≠ .attempts openid' := fun h => hne (by cases h; rfl)
  rw [consume_some there]
  exact attempts_of_get ((Expiring.get_del_of_ne (by nofun)).trans
    ((Expiring.get_del_of_ne hkey).trans (Expiring.get_del_of_ne (by nofun))))

end Wechat

/-- The counter of a stored captcha only falls where the next command deletes it. -/
theorem attempts_of_verify {openid' code : String} {p q : VerifyForOpenid}
    (h : verifyForOpenid cfg n openid' code s p outcome = some (a, q))
    (hc : a.captcha openid = some c) :
    s.attempts openid ≤ a.attempts openid ∨
      CaptchaCall.resets (.verify openid' code p) = some openid ∧ outcome.runs = true := by
  cases p with
  | peek | deletePeek =>
    cases h
    exact .inl (Nat.le_refl _)
  | incr stored =>
    cases h
    exact .inl (Wechat.le_attempts_ite Wechat.le_attempts_incr)
  | expire stored attempts =>
    cases h
    refine .inl (Wechat.le_attempts_ite ?_)
    by_cases ho : openid = openid'
    · subst ho
      exact Wechat.attempts_of_get (Expiring.get_expire_self (by decide))
    · have hne : (WechatKey.attempts openid) ≠ .attempts openid' := fun h => ho (by cases h; rfl)
      exact Wechat.attempts_of_get (Expiring.get_expire_of_ne hne)
  | deleteIndex | deleteKey =>
    cases h
    exact .inl (Wechat.le_attempts_ite (Wechat.attempts_of_get (Expiring.get_del_of_ne (by simp))))
  | deleteAttempts | reset =>
    cases h
    exact Wechat.attempts_del
  | consume stored =>
    cases h
    cases hs : s.captcha openid' with
    | none =>
      have hsame : s.consume n openid' = s := by rw [Wechat.consume, hs]
      rw [hsame, ite_self]
      exact .inl (Nat.le_refl _)
    | some c' =>
      cases outcome with
      | done | lost => exact .inl (Wechat.attempts_consume hs hc)
      | unavailable | failed => exact .inl (Nat.le_refl _)
  | accepted | rejected | failed => cases h

theorem attempts_of_generate {openid' code : String} {p q : GenerateCaptcha}
    (h : generateCaptcha cfg n openid' code s p outcome = some (a, q)) :
    s.attempts openid ≤ a.attempts openid ∨
      CaptchaCall.resets (.generate openid' code p) = some openid ∧ outcome.runs = true := by
  cases p with
  | setNx =>
    simp only [generateCaptcha] at h
    split at h
    · cases h
      exact .inl (Nat.le_refl _)
    · split at h <;> cases h
      · exact .inl (Nat.le_refl _)
      · exact .inl (Wechat.attempts_of_get (Expiring.get_put_of_ne (by simp)))
  | setIndex =>
    cases h
    exact .inl (Wechat.le_attempts_ite (Wechat.attempts_of_get (Expiring.get_put_of_ne (by simp))))
  | resetAttempts =>
    cases h
    exact Wechat.attempts_del
  | issued | failed => cases h

theorem attempts_of_next (h : (captchaService cfg).next n s p outcome = some (a, q))
    (hc : a.captcha openid = some c) :
    s.attempts openid ≤ a.attempts openid ∨
      p.resets = some openid ∧ outcome.runs = true := by
  cases p with
  | generate openid' code phase =>
    obtain ⟨⟨a, q⟩, hq, h⟩ := Option.map_eq_some_iff.mp h
    cases h
    exact attempts_of_generate hq
  | verify openid' code phase =>
    obtain ⟨⟨a, q⟩, hq, h⟩ := Option.map_eq_some_iff.mp h
    cases h
    exact attempts_of_verify hq hc

/-- The INCR of a wrong guess that does not fail counts it. -/
theorem attempts_of_count {code : String} (runs : outcome.runs = true)
    (h : (captchaService cfg).next n s (.verify openid code (.incr c)) outcome = some (a, q)) :
    a.attempts openid = s.attempts openid + 1 := by
  simp only [captchaService, verifyForOpenid, runs, if_true, Option.map_some, Option.some.injEq,
    Prod.mk.injEq] at h
  rw [← h.1]
  exact Wechat.attempts_incr

theorem CaptchaCall.seen_of_counted (h : p.counted = some c) : c ∈ p.seen := by
  cases p with
  | generate => cases h
  | verify openid code phase => cases phase <;> cases h <;> exact List.mem_singleton_self _

theorem CaptchaCall.counted_of_pending {c' : Captcha} (h : p.pending = some c) :
    p.counted ≠ some c' := by
  cases p with
  | generate => cases h
  | verify openid code phase =>
    cases phase <;> cases h
    nofun

namespace Captchas

variable {s s' s₀ : Captchas} {l : CaptchaLabel} {a : Wechat}

/-- A wrong guess is pending or counted. -/
theorem wrongGuesses_eq (s : Captchas) (c : Captcha) :
    s.wrongGuesses c = s.pending c + s.counted c := by
  simp only [wrongGuesses, pending, counted]
  induction s.threads with
  | nil => rfl
  | cons call calls ih =>
    simp only [List.countP_cons, ih]
    by_cases hp : call.pending = some c
    · have hc : call.counted ≠ some c := CaptchaCall.counted_of_pending hp
      simp only [hp, hc, beq_self_eq_true, Bool.true_or, if_true, beq_iff_eq, if_false]
      omega
    · simp only [beq_eq_false_iff_ne.mpr hp, Bool.false_or, Bool.false_eq_true, if_false]
      omega

theorem counted_set {n : Nat} {p q : CaptchaCall} (hp : s.threads[n]? = some p) :
    counted ⟨a, s.threads.set n q⟩ c + (if p.counted == some c then 1 else 0) =
    s.counted c + if q.counted == some c then 1 else 0 :=
  Threads.countP_set_add (fun call : CaptchaCall => call.counted == some c) hp

theorem pending_set {n : Nat} {p q : CaptchaCall} (hp : s.threads[n]? = some p) :
    pending ⟨a, s.threads.set n q⟩ c + (if p.pending == some c then 1 else 0) =
    s.pending c + if q.pending == some c then 1 else 0 :=
  Threads.countP_set_add (fun call : CaptchaCall => call.pending == some c) hp

theorem counted_same {n : Nat} {p q : CaptchaCall} (hp : s.threads[n]? = some p)
    (h : q.counted = p.counted) :
    counted ⟨a, s.threads.set n q⟩ c = s.counted c := by
  have hset := counted_set (a := a) (q := q) (c := c) hp
  rw [h] at hset
  omega

/-- No call has seen the captcha that `generate` is going to store. -/
theorem counted_new (hI : s.AllIssued) {openid code : String}
    (hp : s.threads[c.issuedBy]? = some (.generate openid code .setNx)) : s.counted c = 0 := by
  refine List.countP_eq_zero.mpr ?_
  intro call hcall hc
  obtain ⟨k, hk⟩ := List.mem_iff_getElem?.mp hcall
  obtain ⟨-, phase, hg, hne⟩ := hI.seen k call c hk (CaptchaCall.seen_of_counted (beq_iff_eq.mp hc))
  cases hp.symm.trans hg
  exact hne rfl

/-- A new call has not compared anything. -/
theorem countP_begin {f : CaptchaCall → Bool} {p : CaptchaCall} (h : f p = false) :
    (s.threads ++ [p]).countP f = s.threads.countP f := by
  simp [List.countP_append, h]

theorem initial_pending_counted {p : CaptchaCall} (h : (captchaService cfg).initial p = true) :
    p.pending = none ∧ p.counted = none := by
  cases p with
  | generate => exact ⟨rfl, rfl⟩
  | verify openid code phase =>
    have hphase : phase = .peek := of_decide_eq_true h
    subst hphase
    exact ⟨rfl, rfl⟩

theorem unguessed_counted {shared : Wechat} {openid : String} (h : s.unguessed shared openid = true)
    (hc : shared.captcha openid = some c) : s.counted c = 0 := by
  rw [unguessed, hc, Option.all_some] at h
  exact beq_iff_eq.mp h

/-- Where the counter of a stored captcha is deleted, no guess at it has been counted. -/
theorem counted_of_reset {n : Nat} {outcome : RedisOutcome} {p : CaptchaCall} {openid : String}
    (hp : s.threads[n]? = some p) (hok : s.countsApart cfg (.step n outcome) = true)
    (hr : p.resets = some openid) (runs : outcome.runs = true)
    (hc : s.shared.captcha openid = some c) : s.counted c = 0 := by
  refine unguessed_counted ?_ hc
  cases p with
  | generate openid' code phase =>
    cases phase <;> cases hr
    simpa [countsApart, hp, CaptchaCall.resets, runs] using hok
  | verify openid' code phase =>
    cases phase <;> cases hr <;> simpa [countsApart, hp, CaptchaCall.resets, runs] using hok

theorem Counts.step (hI : s.AllIssued) (h : s.Counts) (hok : s.countsApart cfg l = true)
    (hstep : s.step cfg l = some s') : s'.Counts := by
  obtain ⟨p, -, hp, rfl⟩ | ⟨n, outcome, p, a, q, rfl, hp, hn, rfl⟩ | ⟨now, a, rfl, he, rfl⟩ :=
    Threads.step_cases hstep
  · intro openid c hc
    have hnone := (initial_pending_counted hp).2
    exact Nat.le_trans (Nat.le_of_eq (countP_begin (by rw [hnone]; rfl))) (h openid c hc)
  · intro openid c hc
    rcases captcha_of_next hn hc with hold | ⟨code, rfl, rfl⟩
    · have hle := h openid c hold
      cases CaptchaCall.guesses_of_next hn with
      | wrong =>
        refine Nat.le_trans (Nat.le_of_eq (counted_same hp rfl)) ?_
        exact Nat.le_trans hle ((attempts_of_next hn hc).resolve_right nofun)
      | @count openid' code c' q pending counted =>
        have hset := counted_set (a := a) (q := q) (c := c) hp
        by_cases hcc : c' = c
        · subst hcc
          have ho : openid = openid' :=
            (hI.stored openid c' hold).1.symm.trans
              (hI.seen n _ c' hp (List.mem_singleton_self _)).1
          have hruns : outcome.runs = true := by simpa [countsApart, hp] using hok
          subst ho
          rw [attempts_of_count hruns hn]
          rw [counted, beq_self_eq_true, if_pos rfl] at hset
          omega
        · have hne : (q.counted == some c) = false := by
            rw [counted]
            exact beq_eq_false_iff_ne.mpr fun h => hcc (Option.some.inj h)
          rw [hne] at hset
          have hgrow := (attempts_of_next hn hc).resolve_right nofun
          simp only [CaptchaCall.counted] at hset
          exact Nat.le_trans (Nat.le_of_eq (by simpa using hset)) (Nat.le_trans hle hgrow)
      | same pending after counted =>
        rw [counted_same hp counted]
        rcases attempts_of_next hn hc with hgrow | ⟨hr, hruns⟩
        · exact Nat.le_trans hle hgrow
        · rw [counted_of_reset hp hok hr hruns hold]
          exact Nat.zero_le _
    · obtain ⟨phase, rfl, -⟩ := generate_of_next hn
      have hsame : counted ⟨a, s.threads.set c.issuedBy (.generate openid code phase)⟩ c =
          s.counted c := counted_same hp rfl
      rw [hsame, counted_new hI hp]
      exact Nat.zero_le _
  · obtain ⟨hle, rfl⟩ := captchas_tick he
    intro openid c hc
    have hold : s.shared.captcha openid = some c := Expiring.get_of_tick hle hc
    rcases Nat.eq_zero_or_pos (s.counted c) with hzero | hpos
    · exact Nat.le_trans (Nat.le_of_eq hzero) (Nat.zero_le _)
    · obtain ⟨call, hcall, hcount⟩ := List.countP_pos_iff.mp hpos
      obtain ⟨k, hk⟩ := List.mem_iff_getElem?.mp hcall
      have ho : call.openid = openid :=
        (hI.seen k call c hk (CaptchaCall.seen_of_counted (beq_iff_eq.mp hcount))).1.symm.trans
          (hI.stored openid c hold).1
      have hok := List.all_eq_true.mp hok call hcall
      rw [ho] at hok
      rcases Bool.or_eq_true_iff.mp hok with hsame | hun
      · exact Nat.le_trans (h openid c hold) (Nat.le_of_eq (beq_iff_eq.mp hsame).symm)
      · exact absurd (unguessed_counted hun hc) (Nat.ne_of_gt hpos)

theorem Bounded.step (hC : s.Counts) (h : s.Bounded cfg) (hok : s.countsApart cfg l = true)
    (hstep : s.step cfg l = some s') : s'.Bounded cfg := by
  obtain ⟨p, -, hp, rfl⟩ | ⟨n, outcome, p, a, q, rfl, hp, hn, rfl⟩ | ⟨now, a, rfl, he, rfl⟩ :=
    Threads.step_cases hstep
  · intro c
    obtain ⟨hpend, hcount⟩ := initial_pending_counted hp
    exact Nat.le_trans (Nat.le_of_eq (countP_begin (by rw [hpend, hcount]; rfl))) (h c)
  · intro c
    have hpend := pending_set (a := a) (q := q) (c := c) hp
    have hcount := counted_set (a := a) (q := q) (c := c) hp
    have hbound := h c
    rw [wrongGuesses_eq] at hbound ⊢
    cases CaptchaCall.guesses_of_next hn with
    | @wrong openid code c' answered there differs =>
      by_cases hcc : c' = c
      · -- the counter has the guesses that are counted, and leaves room for one more
        subst hcc
        have hroom : s.shared.attempts openid + s.pending c' < cfg.maxFailedAttempts := by
          simpa [countsApart, hp, answered, there, differs] using hok
        have hle := hC openid c' there
        simp only [CaptchaCall.pending, CaptchaCall.counted, beq_self_eq_true,
          if_true] at hpend hcount
        simp only [reduceCtorEq, beq_iff_eq, if_false] at hpend hcount
        omega
      · have hne : (some c' == some c) = false :=
          beq_eq_false_iff_ne.mpr fun h => hcc (Option.some.inj h)
        simp only [CaptchaCall.pending, CaptchaCall.counted, hne] at hpend hcount
        simp only [reduceCtorEq, beq_iff_eq, if_false, Bool.false_eq_true] at hpend hcount
        omega
    | @count openid code c' q pending counted =>
      rw [pending] at hpend
      rw [counted] at hcount
      simp only [CaptchaCall.pending, CaptchaCall.counted] at hpend hcount
      simp only [reduceCtorEq, beq_iff_eq, if_false] at hpend hcount
      omega
    | same pending after counted =>
      rw [pending, after] at hpend
      rw [counted] at hcount
      omega
  · exact h

theorem wrong_guesses_bounded (h0 : s₀.Initial)
    (h : Reaches (step cfg) (fun s l => s.countsApart cfg l = true) s₀ s) : s.Bounded cfg := by
  have hinit : s₀.AllIssued ∧ s₀.Counts ∧ s₀.Bounded cfg := by
    refine ⟨.start h0, ?_, ?_⟩
    · intro openid c hc
      rw [h0.captchas] at hc
      cases hc
    · intro c
      rw [wrongGuesses, h0.threads, List.countP_nil]
      exact Nat.zero_le _
  exact (h.invariant (I := fun s : Captchas => s.AllIssued ∧ s.Counts ∧ s.Bounded cfg) hinit
    fun _ _ _ hs hok hstep => ⟨hs.1.step hstep, hs.2.1.step hs.1 hok hstep,
      hs.2.2.step hs.2.1 hok hstep⟩).2.2

/-- Two guesses are allowed; two wrong ones are made, one after the other, and a third finds
no captcha. -/
def guessed : List CaptchaLabel :=
  [.begin (.generate "ada" "QWERT" .setNx)] ++ steps 0 3 ++
    [.begin (.verify "ada" "AAAAA" .peek)] ++ steps 1 3 ++
    [.begin (.verify "ada" "BBBBB" .peek)] ++ steps 2 7 ++
    [.begin (.verify "ada" "QWERT" .peek)] ++ steps 3 1

theorem wrong_guesses_bounded_two :
    ∃ s, Reaches (step { maxFailedAttempts := 2 })
        (fun s l => s.countsApart { maxFailedAttempts := 2 } l = true) noCaptchas s ∧
      s.wrongGuesses ⟨"QWERT", "ada", 0⟩ = 2 ∧
      s.threads[3]? = some (.verify "ada" "QWERT" (.failed .captchaNotFound)) ∧
      s.Bounded { maxFailedAttempts := 2 } := by
  have hrun : Reaches (step { maxFailedAttempts := 2 })
      (fun s l => s.countsApart { maxFailedAttempts := 2 } l = true) noCaptchas
      ((run (step { maxFailedAttempts := 2 })
        (fun s l => s.countsApart { maxFailedAttempts := 2 } l = true) noCaptchas guessed).get
        (by decide +kernel)) :=
    reaches_run_get _
  exact ⟨_, hrun, by decide +kernel, by decide +kernel,
    wrong_guesses_bounded initial_noCaptchas hrun⟩

/-- Six calls compare a wrong code before any of them counts it; the default is five. -/
def atOnce : List CaptchaLabel :=
  [.begin (.generate "ada" "QWERT" .setNx)] ++ steps 0 3 ++
    List.replicate 6 (.begin (.verify "ada" "AAAAA" .peek)) ++
    (List.range 6).map fun n => .step (n + 1) .done

theorem more_wrong_guesses_at_once :
    ¬ ∀ cfg s₀ s, Initial s₀ → Reaches (step cfg) Free s₀ s → s.Bounded cfg := by
  intro h
  have hrun : Reaches (step {}) Free noCaptchas
      ((run (step {}) Free noCaptchas atOnce).get (by decide +kernel)) :=
    reaches_run_get _
  have hle := h {} noCaptchas _ initial_noCaptchas hrun ⟨"QWERT", "ada", 0⟩
  have hsix : wrongGuesses ((run (step {}) Free noCaptchas atOnce).get (by decide +kernel))
      ⟨"QWERT", "ada", 0⟩ = 6 := by decide +kernel
  rw [hsix] at hle
  exact absurd hle (by decide)

end Captchas

end Webshelf
