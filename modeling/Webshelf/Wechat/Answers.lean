import Webshelf.Wechat.SignIns

/-!
# What the callback answers

A callback answers `success` if it has not read a signed message, and a text to
the sender otherwise. The code is in the text only after it has been stored for
this sender, and the text is in one CDATA section as it is.
-/

namespace Webshelf

open Runs (Watched)

/-- `set_captcha_nx` has stored the code. -/
def GenerateCaptcha.hasStored : GenerateCaptcha → Bool
  | .setIndex | .resetAttempts | .issued => true
  | .setNx | .failed _ => false

section
variable {cfg : LoginConfig} {n : Nat} {openid code : String} {s a : Wechat}
  {phase phase' : GenerateCaptcha} {outcome : RedisOutcome}

theorem hasStored_of_next
    (h : generateCaptcha cfg n openid code s phase outcome = some (a, phase'))
    (hstored : phase'.hasStored = true) :
    phase.hasStored = true ∨ a.captcha openid = some ⟨code, openid, n⟩ := by
  cases phase with
  | setNx =>
    simp only [generateCaptcha] at h
    split at h
    · cases h
      cases hstored
    · split at h
      · cases h
        cases hstored
      · cases h
        right
        apply Expiring.get_put_self
        simp only [LoginConfig.ttl, seconds]
        omega
  | setIndex | resetAttempts => exact .inl rfl
  | issued | failed => cases h

/-- A cooldown is met at the SET NX, by a captcha that is there. -/
theorem cooldown_of_next
    (h : generateCaptcha cfg n openid code s phase outcome =
      some (a, .failed .cooldownActive)) :
    phase = .setNx ∧ a = s ∧ ∃ c, s.captcha openid = some c := by
  cases phase with
  | setNx =>
    simp only [generateCaptcha] at h
    split at h
    · cases h
    · split at h
      · rename_i hthere
        obtain ⟨rfl, -⟩ := Prod.mk.inj (Option.some.inj h)
        exact ⟨rfl, rfl, Option.isSome_iff_exists.mp hthere⟩
      · obtain ⟨-, hphase⟩ := Prod.mk.inj (Option.some.inj h)
        split at hphase <;> cases hphase
  | setIndex => cases h
  | resetAttempts => cases outcome <;> cases h
  | issued | failed => cases h

end

/-! ## Texts without brackets -/

section
variable {cfg : LoginConfig} {code : String}

theorem not_closing {t : List Char} (h : ']' ∉ t) : ¬ Xml.closing <:+: t :=
  fun hin => h (hin.subset (by decide))

theorem charset_plain : ']' ∉ CHARSET := by decide

theorem codeText_toList (cfg : LoginConfig) (code : String) : (codeText cfg code).toList =
    "Your verification code: ".toList ++ code.toList ++
      "\nEnter this code on the login page to sign in. Valid for ".toList ++
      cfg.captchaTtlSecs.repr.toList ++ " seconds.".toList := by
  unfold codeText
  rw [String.toList_append, String.toList_append, String.toList_append, String.toList_append]
  rfl

theorem codeText_plain (hcode : FromCharset code) : ']' ∉ (codeText cfg code).toList := by
  have hdrawn : ']' ∉ code.toList := fun h => charset_plain (hcode _ h)
  have hintro : ']' ∉ "Your verification code: ".toList := by decide +kernel
  have hrest : ']' ∉ "\nEnter this code on the login page to sign in. Valid for ".toList := by
    decide +kernel
  have hunit : ']' ∉ " seconds.".toList := by decide +kernel
  rw [codeText_toList]
  intro h
  rcases List.mem_append.mp h with h | h
  · rcases List.mem_append.mp h with h | h
    · rcases List.mem_append.mp h with h | h
      · rcases List.mem_append.mp h with h | h
        · exact hintro h
        · exact hdrawn h
      · exact hrest h
    · exact absurd (Reply.isDigit_of_mem_repr h) (by decide)
  · exact hunit h

end

/-! ## What a callback has to say -/

/-- What callback `n` tells the sender of its message, in a run through these states. -/
inductive CallbackPost.Tells (crates : CallbackCrates) (comps : WechatComponents)
    (states : List WechatState) (n : Nat) (post : CallbackPost) (msg : WechatMessage) :
    String → Prop
  | code (asks : post.AsksFor crates comps msg.fromUserName)
      (stored : ∃ a ∈ states, a.shared.wechat.captcha msg.fromUserName =
        some ⟨post.drawn, msg.fromUserName, n⟩) :
      Tells crates comps states n post msg (codeText comps.login post.drawn)
  /-- Another callback of the sender has stored a captcha for him. -/
  | cooldown (asks : post.AsksFor crates comps msg.fromUserName)
      (sent : ∃ a ∈ states, ∃ c, a.shared.wechat.captcha msg.fromUserName = some c ∧
        c.openid = msg.fromUserName ∧ c.issuedBy ≠ n ∧ a.Sent crates comps c) :
      Tells crates comps states n post msg cooldownText
  | busy (asks : post.AsksFor crates comps msg.fromUserName) :
      Tells crates comps states n post msg busyText
  | help (type : msg.msgType = "text") (plain : msg.asksForCode crates comps = false) :
      Tells crates comps states n post msg helpText
  | welcome (type : msg.msgType ≠ "text") : Tells crates comps states n post msg welcomeText

/-- What holds of a callback wherever it stands. -/
def CallbackPhase.Honest (crates : CallbackCrates) (comps : WechatComponents)
    (states : List WechatState) (n : Nat) (post : CallbackPost) : CallbackPhase → Prop
  | .received => True
  | .generating msg phase =>
    post.message crates comps.config = some msg ∧ post.AsksFor crates comps msg.fromUserName ∧
      (phase.hasStored = true → ∃ a ∈ states, a.shared.wechat.captcha msg.fromUserName =
        some ⟨post.drawn, msg.fromUserName, n⟩)
  | .answered body =>
    post.message crates comps.config = none ∧ body = "success".toList ∨
      ∃ msg now text, post.message crates comps.config = some msg ∧ body = msg.reply now text ∧
        post.Tells crates comps states n msg text

section
variable {crates : CallbackCrates} {comps : WechatComponents} {states : List WechatState}
  {n : Nat} {post : CallbackPost} {msg : WechatMessage} {text : String} {phase : CallbackPhase}
  {s : WechatState}

theorem CallbackPost.Tells.later (h : post.Tells crates comps states n msg text) :
    post.Tells crates comps (s :: states) n msg text := by
  cases h with
  | code asks stored =>
    obtain ⟨a, ha, hstored⟩ := stored
    exact .code asks ⟨a, List.mem_cons_of_mem s ha, hstored⟩
  | cooldown asks sent =>
    obtain ⟨a, ha, hsent⟩ := sent
    exact .cooldown asks ⟨a, List.mem_cons_of_mem s ha, hsent⟩
  | busy asks => exact .busy asks
  | help type plain => exact .help type plain
  | welcome type => exact .welcome type

theorem CallbackPhase.Honest.later (h : phase.Honest crates comps states n post) :
    phase.Honest crates comps (s :: states) n post := by
  cases phase with
  | received => exact trivial
  | generating msg phase =>
    obtain ⟨hread, hasks, hstored⟩ := h
    refine ⟨hread, hasks, ?_⟩
    intro hphase
    obtain ⟨a, ha, hstored⟩ := hstored hphase
    exact ⟨a, List.mem_cons_of_mem s ha, hstored⟩
  | answered body =>
    refine h.imp_right ?_
    rintro ⟨msg, now, text, hread, hbody, htells⟩
    exact ⟨msg, now, text, hread, hbody, htells.later⟩

theorem CallbackPost.Tells.plain (h : post.Tells crates comps states n msg text)
    (hdrawn : FromCharset post.drawn) : ']' ∉ text.toList := by
  cases h with
  | code => exact codeText_plain hdrawn
  | cooldown | busy | help | welcome => decide +kernel

end

/-! ## Over whole runs -/

namespace WechatState

variable {crates : CallbackCrates} {cfg : Settings} {v : Validator} {comps : WechatComponents}
  {f f' : Watched WechatState} {n : Nat} {post : CallbackPost} {phase phase' : CallbackPhase}
  {w : Wechat} {s' : WechatState} {l : Threads.Label WechatRequest WechatInput ServerMove}

/-- What a callback answers once `generate` has returned. -/
theorem honest_ofGenerate {msg : WechatMessage} {phase₁ phase₂ : GenerateCaptcha}
    {outcome : RedisOutcome} (hbacked : f.now.Backed crates comps)
    (hget : f.now.threads[n]? = some (.callback post (.generating msg phase₁)))
    (h : (CallbackPhase.generating msg phase₁).Honest crates comps f.states n post)
    (hnext : generateCaptcha comps.login n msg.fromUserName post.drawn f.now.shared.wechat phase₁
      outcome = some (s'.shared.wechat, phase₂)) (now : Time) :
    (CallbackPhase.ofGenerate comps.login msg post.drawn now phase₂).Honest crates comps
      (s' :: f.states) n post := by
  obtain ⟨hread, hasks, hold⟩ := h
  have hstored (hphase : phase₂.hasStored = true) : ∃ a ∈ s' :: f.states,
      a.shared.wechat.captcha msg.fromUserName = some ⟨post.drawn, msg.fromUserName, n⟩ := by
    rcases hasStored_of_next hnext hphase with hbefore | hnow
    · obtain ⟨a, ha, hstored⟩ := hold hbefore
      exact ⟨a, List.mem_cons_of_mem s' ha, hstored⟩
    · exact ⟨s', List.mem_cons_self, hnow⟩
  cases phase₂ with
  | setNx | setIndex | resetAttempts => exact ⟨hread, hasks, hstored⟩
  | issued => exact .inr ⟨msg, now, _, hread, rfl, .code hasks (hstored rfl)⟩
  | failed e =>
    cases e with
    | cooldownActive =>
      obtain ⟨rfl, -, c, hc⟩ := cooldown_of_next hnext
      obtain ⟨howner, hsent, -⟩ := hbacked.stored _ c hc
      -- the callback itself has not stored one yet
      have hother : c.issuedBy ≠ n := by
        obtain ⟨post', phase', hget', hset, -⟩ := hsent
        intro hn
        rw [hn, hget] at hget'
        cases hget'
        cases hset
      exact .inr ⟨msg, now, _, hread, rfl, .cooldown hasks
        ⟨f.now, List.mem_cons_of_mem s' List.mem_cons_self, c, hc, howner, hother, hsent⟩⟩
    | _ => exact .inr ⟨msg, now, _, hread, rfl, .busy hasks⟩

theorem honest_step (hbacked : f.now.Backed crates comps)
    (hget : f.now.threads[n]? = some (.callback post phase))
    (h : phase.Honest crates comps f.states n post)
    (hstep : CallbackPhase.Step crates comps n post f.now.shared.wechat phase s'.shared.wechat
      phase') : phase'.Honest crates comps (s' :: f.states) n post := by
  generalize hw : s'.shared.wechat = w at hstep
  cases hstep with
  | refused unread => exact .inl ⟨unread, rfl⟩
  | help read type plain => exact .inr ⟨_, _, _, read, rfl, .help type plain⟩
  | welcome read type => exact .inr ⟨_, _, _, read, rfl, .welcome type⟩
  | asked read type asks => exact ⟨read, ⟨_, read, type, asks, rfl⟩, nofun⟩
  | generate next =>
    subst hw
    exact honest_ofGenerate hbacked hget h next _

/-- Every callback of the run is honest, and draws its code from the charset. -/
def AllHonest (crates : CallbackCrates) (comps : WechatComponents) (f : Watched WechatState) :
    Prop :=
  ∀ (n : Nat) post phase, f.now.threads[n]? = some (.callback post phase) →
    FromCharset post.drawn ∧ phase.Honest crates comps f.states n post

theorem AllHonest.step (h : AllHonest crates comps f) (hbacked : f.now.Backed crates comps)
    (hstep : Watched.next (Threads.step (wechatEndpoints crates cfg v comps)) f l = some f') :
    AllHonest crates comps f' := by
  obtain ⟨s', hs', rfl⟩ := Watched.next_some hstep
  intro n post phase hget
  obtain ⟨p, -, hnew, rfl⟩ | ⟨k, input, p, a, q, -, hp, hn, rfl⟩ | ⟨e, a, -, he, rfl⟩ :=
    Threads.step_cases hs'
  · rcases Threads.get_begin hget with hget | ⟨-, rfl⟩
    · exact (h n post phase hget).imp_right CallbackPhase.Honest.later
    · cases phase with
      | received => exact ⟨of_decide_eq_true hnew, trivial⟩
      | generating | answered => cases hnew
  · rcases Threads.get_set hp hget with ⟨rfl, rfl⟩ | ⟨-, hget⟩
    · cases p with
      | callback post' phase' =>
        obtain ⟨w, phase'', hdoes, rfl, hq⟩ := callback_step hn
        cases hq
        obtain ⟨hdrawn, hhonest⟩ := h n post phase' hp
        exact ⟨hdrawn, honest_step hbacked hp hhonest hdoes⟩
      | signIn endpoint phase' =>
        obtain ⟨phase'', -, hq⟩ := signIn_step hn
        cases hq
    · exact (h n post phase hget).imp_right CallbackPhase.Honest.later
  · exact (h n post phase hget).imp_right CallbackPhase.Honest.later

theorem honest_reached {w : World} {account : Wechat}
    (hnone : ∀ openid, account.captcha openid = none)
    (huntaken : ∀ c, account.takenBy c = none)
    (h : Runs.Reaches (Watched.next (Threads.step (wechatEndpoints crates cfg v comps))) Runs.Free
      ⟨⟨⟨w, account⟩, []⟩, []⟩ f) : AllHonest crates comps f := by
  suffices hboth : f.now.Backed crates comps ∧ AllHonest crates comps f from hboth.2
  refine h.invariant (I := fun f => f.now.Backed crates comps ∧ AllHonest crates comps f) ?_ ?_
  · refine ⟨backed_start hnone huntaken, ?_⟩
    intro n post phase hget
    exact absurd hget (by simp)
  · intro f l f' hf _ hstep
    refine ⟨?_, hf.2.step hf.1 hstep⟩
    obtain ⟨s', hs', rfl⟩ := Watched.next_some hstep
    exact hf.1.step hs'

/-- **What a callback answers.** In every run of the callback, the logins and the rest of the
server: a callback answers `success` to what it cannot read or what is not signed, and otherwise
writes to the sender of the message. It tells its code only to a sender who has asked for one,
and only after the code has been stored for this sender; it speaks of a cooldown only if another
signed message of the sender has brought a captcha. Unless the names of the two accounts hold
`]]>`, what it writes is read as one text reply with these names and this text. -/
theorem answers_to_senders (crates : CallbackCrates) (cfg : Settings) (v : Validator)
    (comps : WechatComponents) (w : World) (account : Wechat)
    (hnone : ∀ openid, account.captcha openid = none)
    (huntaken : ∀ c, account.takenBy c = none) (f : Watched WechatState)
    (h : Runs.Reaches (Watched.next (Threads.step (wechatEndpoints crates cfg v comps))) Runs.Free
      ⟨⟨⟨w, account⟩, []⟩, []⟩ f) (n : Nat) (post : CallbackPost) (body : List Char)
    (hanswered : f.now.threads[n]? = some (.callback post (.answered body))) :
    post.message crates comps.config = none ∧ body = "success".toList ∨
      post.Signed crates comps ∧
      ∃ msg now text, post.message crates comps.config = some msg ∧ body = msg.reply now text ∧
        post.Tells crates comps f.states n msg text ∧
        (¬ "]]>".toList <:+: msg.fromUserName.toList →
          ¬ "]]>".toList <:+: msg.toUserName.toList →
            Xml.read body = some (Reply.textReply (now / seconds 1) msg.fromUserName.toList
              msg.toUserName.toList text.toList)) := by
  obtain ⟨hdrawn, hhonest⟩ := honest_reached hnone huntaken h n post _ hanswered
  refine hhonest.imp_right ?_
  rintro ⟨msg, now, text, hread, rfl, htells⟩
  refine ⟨CallbackPost.signed_of_message hread, msg, now, text, hread, rfl, htells, ?_⟩
  intro hfrom hto
  have hclosing : "]]>".toList = Xml.closing := by decide
  rw [hclosing] at hfrom hto
  exact Reply.read_text.mpr ⟨hfrom, hto, not_closing (htells.plain hdrawn)⟩

set_option maxRecDepth 20000 in
theorem adaRun_told : (adaRun.get adaRun_runs).now.threads[0]? =
    some (.callback adaPost (.answered
      (WechatMessage.reply ⟨"gh_test", "oAda", "text", some "Login"⟩ 0
        (codeText adaComps.login "QWERT")))) := by
  rfl

theorem answers_to_senders_ada : ∃ msg now text,
    adaPost.message adaCrates adaComps.config = some msg ∧
      adaPost.Tells adaCrates adaComps (adaRun.get adaRun_runs).states 0 msg text ∧
      Xml.read (WechatMessage.reply ⟨"gh_test", "oAda", "text", some "Login"⟩ 0
        (codeText adaComps.login "QWERT")) =
          some (Reply.textReply (now / seconds 1) msg.fromUserName.toList msg.toUserName.toList
            text.toList) := by
  have hread : adaPost.message adaCrates adaComps.config =
      some ⟨"gh_test", "oAda", "text", some "Login"⟩ := by decide +kernel
  obtain ⟨hunread, -⟩ | ⟨-, msg, now, text, hmsg, hbody, htells, hplain⟩ :=
    answers_to_senders adaCrates .plain adaValidator adaComps adaBound ⟨⟨0, fun _ => none⟩,
      fun _ => none⟩ (fun _ => rfl) (fun _ => rfl) (adaRun.get adaRun_runs)
      (Runs.reaches_run_get adaRun_runs) 0 adaPost _ adaRun_told
  · rw [hread] at hunread
    cases hunread
  · cases hread.symm.trans hmsg
    exact ⟨_, now, text, hread, htells, hplain (by decide +kernel) (by decide +kernel)⟩

end WechatState

end Webshelf
