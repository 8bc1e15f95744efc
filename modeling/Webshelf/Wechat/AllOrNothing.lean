import Webshelf.Handlers.Login

/-!
# Is a captcha issued whole or not at all?

`generate` sends three commands, and any of them may fail or lose its answer. An
error of the index entry is only logged, one of the counter is returned although
the captcha stands by then.
-/

namespace Webshelf

namespace Wechat

def tick (s : Wechat) (now : Time) : Wechat := { s with redis := s.redis.tick now }

/-- A call of `generate`, its commands ending as `outcome` says. -/
def tryGenerate (cfg : LoginConfig) (n : Nat) (openid code : String)
    (outcome : Nat → RedisOutcome) (s : Wechat) : Wechat × GenerateCaptcha :=
  drive (generateCaptcha cfg n openid code) 3 outcome s .setNx

/-- As long as the captcha is there, `wx_login` finds the openid under the code. -/
def Usable (openid code : String) (s : Wechat) : Prop :=
  ∀ now, s.redis.clock ≤ now → ((s.tick now).captcha openid).isSome = true →
    (s.tick now).redis.get (.code code) = some openid

/-- The next call succeeds, whenever it is made. -/
def Retriable (cfg : LoginConfig) (openid : String) (s : Wechat) : Prop :=
  ∀ now n code, s.redis.clock ≤ now → ((s.tick now).generate cfg n openid code).2 = .issued

/-- What a call of `generate` should leave behind: a captcha that can be used if it returned
the code, and no captcha after an error other than `CooldownActive`. -/
structure AllOrNothing (cfg : LoginConfig) (openid code : String) (r : Wechat × GenerateCaptcha) :
    Prop where
  usable : r.2 = .issued → r.1.Usable openid code
  retriable : ∀ e, r.2 = .failed e → e ≠ .cooldownActive → r.1.Retriable cfg openid

/-- An index entry from before names the openid for as long as a new captcha lasts. -/
def IndexedFor (cfg : LoginConfig) (openid code : String) (s : Wechat) : Prop :=
  ∀ now, s.redis.clock ≤ now → now ≤ s.redis.clock + cfg.ttl →
    (s.tick now).redis.get (.code code) = some openid

/-- Where a captcha is there, the SET NX is answered. Where none is, the SET NX does not run
at all; or it is answered, the counter is deleted or there is no connection for that, and
the index entry is written or was there. -/
def Undisturbed (cfg : LoginConfig) (openid code : String) (outcome : Nat → RedisOutcome)
    (s : Wechat) : Prop :=
  cfg.captchaTtlSecs ≠ 0 ∧
    if (s.captcha openid).isSome then outcome 0 = .done
    else (outcome 0).runs = false ∨ outcome 0 = .done ∧
      (outcome 2 = .done ∨ outcome 2 = .unavailable) ∧
      ((outcome 1).runs = true ∨ s.IndexedFor cfg openid code)

variable {cfg : LoginConfig} {n n' : Nat} {openid code code' : String} {s a : Wechat}
  {outcome : Nat → RedisOutcome} {now : Time}

/-- With Redis healthy `generate` succeeds where no captcha is there. -/
theorem generate_issued_iff : (s.generate cfg n openid code).2 = .issued ↔
    cfg.captchaTtlSecs ≠ 0 ∧ s.captcha openid = none := by
  constructor
  · intro h
    rcases @generate_cases cfg n s openid code with ⟨e, he⟩ | ⟨httl, hnone, _⟩
    · rw [he] at h
      cases h
    · exact ⟨httl, hnone⟩
  · rintro ⟨httl, hnone⟩
    have hset : generateCaptcha cfg n openid code s .setNx .done =
        some (s.store cfg ⟨code, openid, n⟩, .setIndex) := by
      simp [generateCaptcha, RedisOutcome.runs, httl, hnone, store]
    rw [generate, alone_some hset, alone_some rfl, alone_some rfl]
    rfl

theorem captcha_of_tick {c : Captcha} (hle : s.redis.clock ≤ now)
    (h : (s.tick now).captcha openid = some c) : s.captcha openid = some c :=
  Expiring.get_of_tick hle h

/-- The next call succeeds exactly where there is no captcha. -/
theorem retriable_iff : s.Retriable cfg openid ↔
    cfg.captchaTtlSecs ≠ 0 ∧ s.captcha openid = none := by
  constructor
  · intro h
    exact generate_issued_iff.mp (h s.redis.clock 0 "" (Int.le_refl _))
  · rintro ⟨httl, hnone⟩ now n code hle
    refine generate_issued_iff.mpr ⟨httl, ?_⟩
    by_contra hc
    obtain ⟨c, hc⟩ := Option.ne_none_iff_exists'.mp hc
    cases hnone.symm.trans (captcha_of_tick hle hc)

theorem allOrNothing_internal : AllOrNothing cfg openid code (a, .failed .internal) ↔
      cfg.captchaTtlSecs ≠ 0 ∧ a.captcha openid = none := by
  rw [← retriable_iff]
  constructor
  · intro h
    exact h.retriable .internal rfl (by decide)
  · intro h
    refine ⟨(by simp), ?_⟩
    intro _ _ _
    exact h

theorem allOrNothing_issued : AllOrNothing cfg openid code (a, .issued) ↔
    a.Usable openid code := by
  constructor
  · intro h
    exact h.usable rfl
  · intro h
    exact ⟨fun _ => h, (by simp)⟩

theorem allOrNothing_cooldown : AllOrNothing cfg openid code (a, .failed .cooldownActive) := by
  refine ⟨(by simp), ?_⟩
  intro e h he
  cases h
  cases he rfl

/-! ### What the three commands leave -/

/-- The keys after a SET NX that stored the captcha, with the outcomes of the other two. -/
def left (cfg : LoginConfig) (c : Captcha) (index counter : RedisOutcome) (s : Wechat) : Wechat :=
  let s := s.store cfg c
  let s := if index.runs then
      { s with redis := s.redis.put (.code c.code) c.openid (some cfg.ttl) }
    else s
  if counter.runs then s.del (.attempts c.openid) else s

section
variable {c : Captcha} {index counter : RedisOutcome}

theorem ite_inTime {α : Type} {deadline : Time} {o o' : Option α} :
    (if Expiring.inTime now (some deadline) then o else o') =
      if now ≤ deadline then o else o' := by
  simp only [Expiring.inTime, Option.all_some, decide_eq_true_eq]

theorem left_clock : (s.left cfg c index counter).redis.clock = s.redis.clock := by
  unfold left
  dsimp only
  split <;> split <;> rfl

theorem left_captcha : (s.left cfg c index counter).redis.entry (.captcha c.openid) =
    some (c, some (s.redis.clock + cfg.ttl)) := by
  have hstore : (s.store cfg c).redis.entry (.captcha c.openid) =
      some (c, some (s.redis.clock + cfg.ttl)) := Expiring.entry_put_self
  have hindex : (if index.runs then
      { s.store cfg c with
        redis := (s.store cfg c).redis.put (.code c.code) c.openid (some cfg.ttl) }
      else s.store cfg c).redis.entry (.captcha c.openid) =
      some (c, some (s.redis.clock + cfg.ttl)) := by
    split
    · exact (Expiring.entry_put_of_ne (by simp)).trans hstore
    · exact hstore
  unfold left
  dsimp only
  split
  · exact (Expiring.entry_del_of_ne (by simp)).trans hindex
  · exact hindex

theorem left_code : (s.left cfg c index counter).redis.entry (.code c.code) =
    if index.runs then some (c.openid, some (s.redis.clock + cfg.ttl))
    else s.redis.entry (.code c.code) := by
  have hstore : (s.store cfg c).redis.entry (.code c.code) = s.redis.entry (.code c.code) :=
    Expiring.entry_put_of_ne (by simp)
  unfold left
  dsimp only
  split
  · split
    · exact (Expiring.entry_del_of_ne (by simp)).trans Expiring.entry_put_self
    · exact (Expiring.entry_del_of_ne (by simp)).trans hstore
  · split
    · exact Expiring.entry_put_self
    · exact hstore

/-- The captcha that is left is there until its deadline. -/
theorem left_there : ((s.left cfg c index counter).tick now).captcha c.openid =
    if now ≤ s.redis.clock + cfg.ttl then some c else none := by
  rw [captcha, tick, Expiring.get]
  change Option.bind ((s.left cfg c index counter).redis.entry _) _ = _
  rw [left_captcha, Option.bind_some]
  exact ite_inTime

theorem left_not_none : (s.left cfg c index counter).captcha c.openid ≠ none := by
  have h : (s.left cfg c index counter).captcha c.openid = some c := by
    refine Expiring.get_eq_some.mpr ⟨_, left_captcha, ?_⟩
    rw [left_clock]
    refine decide_eq_true ?_
    simp only [LoginConfig.ttl, seconds]
    omega
  rw [h]
  exact Option.some_ne_none c

/-- A captcha that is left can be used where its index entry was written, or one from before
lasts as long. -/
theorem left_usable : (s.left cfg c index counter).Usable c.openid c.code ↔
    index.runs = true ∨ s.IndexedFor cfg c.openid c.code := by
  have hget (now : Time) : ((s.left cfg c index counter).tick now).redis.get (.code c.code) =
      if index.runs then (if now ≤ s.redis.clock + cfg.ttl then some c.openid else none)
      else (s.tick now).redis.get (.code c.code) := by
    rw [tick, Expiring.get]
    change Option.bind ((s.left cfg c index counter).redis.entry _) _ = _
    rw [left_code]
    split
    · exact ite_inTime
    · rfl
  have husable : (∀ now, s.redis.clock ≤ now → now ≤ s.redis.clock + cfg.ttl →
      ((s.left cfg c index counter).tick now).redis.get (.code c.code) = some c.openid) ↔
      index.runs = true ∨ s.IndexedFor cfg c.openid c.code := by
    cases hruns : index.runs with
    | true => simp +contextual [hget, hruns]
    | false => simp [hget, hruns, IndexedFor]
  rw [← husable]
  constructor
  · intro h now hle hdeadline
    refine h now ?_ ?_
    · rw [left_clock]
      exact hle
    · rw [left_there, if_pos hdeadline]
      rfl
  · intro h now hle hthere
    rw [left_clock] at hle
    rw [left_there] at hthere
    split at hthere
    · rename_i hdeadline
      exact h now hle hdeadline
    · cases hthere

end

/-! ### The call -/

/-- A command that runs is answered, or its answer is lost. -/
theorem lost_of_runs {o : RedisOutcome} (hruns : o.runs = true) (hdone : o ≠ .done) :
    o = .lost := by
  cases o with
  | done => cases hdone rfl
  | lost => rfl
  | unavailable | failed => cases hruns

theorem tryGenerate_unset (h : cfg.captchaTtlSecs = 0 ∨ (outcome 0).runs = false) :
    s.tryGenerate cfg n openid code outcome = (s, .failed .internal) := by
  have hset : generateCaptcha cfg n openid code s .setNx (outcome 0) =
      some (s, .failed .internal) := by
    rcases h with h | h <;> simp [generateCaptcha, h]
  rw [tryGenerate, drive_some hset, drive_none fun _ => rfl]

theorem tryGenerate_there (httl : cfg.captchaTtlSecs ≠ 0) (hruns : (outcome 0).runs = true)
    (hthere : (s.captcha openid).isSome = true) :
    s.tryGenerate cfg n openid code outcome =
      (s, .failed (if outcome 0 = .done then .cooldownActive else .internal)) := by
  have hset : generateCaptcha cfg n openid code s .setNx (outcome 0) =
      some (s, .failed (if outcome 0 = .done then .cooldownActive else .internal)) := by
    simp [generateCaptcha, hruns, httl, hthere]
  rw [tryGenerate, drive_some hset, drive_none fun _ => rfl]

theorem tryGenerate_lost (httl : cfg.captchaTtlSecs ≠ 0) (hlost : outcome 0 = .lost)
    (hnone : s.captcha openid = none) :
    s.tryGenerate cfg n openid code outcome =
      (s.left cfg ⟨code, openid, n⟩ .failed .failed, .failed .internal) := by
  have hset : generateCaptcha cfg n openid code s .setNx (outcome 0) =
      some (s.store cfg ⟨code, openid, n⟩, .failed .internal) := by
    simp [generateCaptcha, RedisOutcome.runs, hlost, httl, hnone, store]
  rw [tryGenerate, drive_some hset, drive_none fun _ => rfl]
  rfl

theorem tryGenerate_done (httl : cfg.captchaTtlSecs ≠ 0) (hdone : outcome 0 = .done)
    (hnone : s.captcha openid = none) :
    s.tryGenerate cfg n openid code outcome =
      (s.left cfg ⟨code, openid, n⟩ (outcome 1) (outcome 2),
        if outcome 2 = .done ∨ outcome 2 = .unavailable then .issued else .failed .internal) := by
  have hset : generateCaptcha cfg n openid code s .setNx (outcome 0) =
      some (s.store cfg ⟨code, openid, n⟩, .setIndex) := by
    simp [generateCaptcha, RedisOutcome.runs, hdone, httl, hnone, store]
  rw [tryGenerate, drive_some hset, drive_some rfl, drive_some rfl, drive_none]
  · unfold left
    cases outcome 2 <;> rfl
  · intro o
    cases outcome 2 <;> rfl

theorem left_of_issued (h : (s.tryGenerate cfg n openid code outcome).2 = .issued) :
    (s.tryGenerate cfg n openid code outcome).1 =
      s.left cfg ⟨code, openid, n⟩ (outcome 1) (outcome 2) := by
  by_cases httl : cfg.captchaTtlSecs = 0
  · rw [tryGenerate_unset (.inl httl)] at h
    cases h
  · cases hruns : (outcome 0).runs with
    | false =>
      rw [tryGenerate_unset (.inr hruns)] at h
      cases h
    | true =>
      cases hc : s.captcha openid with
      | some c =>
        rw [tryGenerate_there httl hruns (by simp [hc])] at h
        cases h
      | none =>
        by_cases hdone : outcome 0 = .done
        · rw [tryGenerate_done httl hdone hc]
        · rw [tryGenerate_lost httl (lost_of_runs hruns hdone) hc] at h
          cases h

/-- Generation is all or nothing exactly where its commands are undisturbed. -/
theorem all_or_nothing_iff (cfg : LoginConfig) (n : Nat) (openid code : String)
    (outcome : Nat → RedisOutcome) (s : Wechat) :
    AllOrNothing cfg openid code (s.tryGenerate cfg n openid code outcome) ↔
      s.Undisturbed cfg openid code outcome := by
  by_cases httl : cfg.captchaTtlSecs = 0
  · rw [tryGenerate_unset (.inl httl), allOrNothing_internal]
    simp [Undisturbed, httl]
  · cases hruns : (outcome 0).runs with
    | false =>
      have hdone : outcome 0 ≠ .done := by
        intro h
        rw [h] at hruns
        cases hruns
      rw [tryGenerate_unset (.inr hruns), allOrNothing_internal]
      cases hc : s.captcha openid <;> simp [Undisturbed, httl, hruns, hc, hdone]
    | true =>
      cases hc : s.captcha openid with
      | some c =>
        rw [tryGenerate_there httl hruns (by simp [hc])]
        by_cases hdone : outcome 0 = .done
        · rw [if_pos hdone]
          simp [Undisturbed, httl, hc, hdone, allOrNothing_cooldown]
        · rw [if_neg hdone, allOrNothing_internal]
          simp [Undisturbed, httl, hc, hdone]
      | none =>
        by_cases hdone : outcome 0 = .done
        · rw [tryGenerate_done httl hdone hc]
          by_cases hcounter : outcome 2 = .done ∨ outcome 2 = .unavailable
          · rw [if_pos hcounter]
            have hissued : AllOrNothing cfg openid code
                (s.left cfg ⟨code, openid, n⟩ (outcome 1) (outcome 2), .issued) ↔
                (outcome 1).runs = true ∨ s.IndexedFor cfg openid code := by
              rw [← @left_usable cfg s ⟨code, openid, n⟩ (outcome 1) (outcome 2)]
              exact allOrNothing_issued
            rw [hissued]
            simp [Undisturbed, httl, RedisOutcome.runs, hc, hdone, hcounter]
          · rw [if_neg hcounter, allOrNothing_internal]
            have hleft : (s.left cfg ⟨code, openid, n⟩ (outcome 1) (outcome 2)).captcha openid ≠
                none := left_not_none
            simp [Undisturbed, hruns, hc, hcounter, hleft]
        · rw [tryGenerate_lost httl (lost_of_runs hruns hdone) hc, allOrNothing_internal]
          have hleft : (s.left cfg ⟨code, openid, n⟩ .failed .failed).captcha openid ≠ none :=
            left_not_none
          simp [Undisturbed, hruns, hc, hdone, hleft]

/-- A captcha whose code was returned can be used where the index entry, on which `generate`
does not insist, was written or is not needed; and a call that could not store its captcha is
not in the way of the next one. -/
theorem usable_and_retriable (cfg : LoginConfig) (n : Nat) (openid code : String)
    (outcome : Nat → RedisOutcome) (s : Wechat) :
    ((s.tryGenerate cfg n openid code outcome).2 = .issued →
      ((s.tryGenerate cfg n openid code outcome).1.Usable openid code ↔
        (outcome 1).runs = true ∨ s.IndexedFor cfg openid code)) ∧
    ∀ e, (s.tryGenerate cfg n openid code outcome).2 = .failed e → e ≠ .cooldownActive →
      cfg.captchaTtlSecs ≠ 0 → s.captcha openid = none → (outcome 0).runs = false →
      (s.tryGenerate cfg n openid code outcome).1.Retriable cfg openid := by
  constructor
  · intro h
    rw [left_of_issued h]
    exact @left_usable cfg s ⟨code, openid, n⟩ (outcome 1) (outcome 2)
  · intro _ _ _ httl hnone hruns
    rw [tryGenerate_unset (.inr hruns)]
    exact retriable_iff.mpr ⟨httl, hnone⟩

/-- All commands are answered; or Redis is down. -/
theorem usable_and_retriable_fresh :
    (tryGenerate {} 0 "o" "QWERT" (fun _ => .done)
      ⟨⟨0, fun _ => none⟩, fun _ => none⟩).1.Usable "o" "QWERT" ∧
    (tryGenerate {} 0 "o" "QWERT" (fun _ => .failed)
      ⟨⟨0, fun _ => none⟩, fun _ => none⟩).1.Retriable {} "o" := by
  obtain ⟨husable, _⟩ := usable_and_retriable {} 0 "o" "QWERT" (fun _ => .done)
    ⟨⟨0, fun _ => none⟩, fun _ => none⟩
  obtain ⟨_, hretriable⟩ := usable_and_retriable {} 0 "o" "QWERT" (fun _ => .failed)
    ⟨⟨0, fun _ => none⟩, fun _ => none⟩
  constructor
  · exact (husable rfl).mpr (.inl rfl)
  · exact hretriable .internal rfl (by decide) (by decide) (by decide) rfl

/-- Redis refuses the index entry, and the code is returned all the same. -/
theorem issued_without_index : ¬ AllOrNothing {} "o" "QWERT"
    (tryGenerate {} 0 "o" "QWERT" (fun i => if i = 1 then .failed else .done)
      ⟨⟨0, fun _ => none⟩, fun _ => none⟩) := by
  intro h
  exact absurd (h.usable rfl 0 (by decide) (by decide)) (by decide)

end Wechat

end Webshelf
