import Webshelf.Wechat.Callback
import Webshelf.Wechat.Issued

/-!
# What the requests to the callback and the logins do

A request stores a captcha if its message is signed and asks for a code; a login
consumes a captcha that it has seen, with a code that it has matched. Otherwise a
step leaves the captchas as they are or fewer.
-/

namespace Webshelf

section
variable (crates : CallbackCrates) (comps : WechatComponents)

/-- The POST carries the account's signature. -/
def CallbackPost.Signed (post : CallbackPost) : Prop :=
  ∃ params, post.query = .ok params ∧
    let query := CallbackQuery.fromParams params
    verifySignature crates.sha1 comps.config.token query.timestamp query.nonce query.signature =
      true

/-- It is a text of the openid that asks for a code. -/
def CallbackPost.AsksFor (post : CallbackPost) (openid : String) : Prop :=
  ∃ msg, post.message crates comps.config = some msg ∧ msg.msgType = "text" ∧
    msg.asksForCode crates comps = true ∧ msg.fromUserName = openid

end

/-- Past the SET NX, if it came to that. -/
def CallbackPhase.hasSet : CallbackPhase → Bool
  | .received | .generating _ .setNx => false
  | _ => true

namespace WechatRequest

/-- The captchas a login has seen. -/
def seen : WechatRequest → List Captcha
  | signIn _ (.verify _ phase) => phase.seen
  | signIn _ (.find _ stored taken) => [stored, taken]
  | signIn _ (.waiting accepted _) | signIn _ (.answered accepted _ _) =>
    [accepted.stored, accepted.taken]
  | _ => []

/-- The openid a login goes on with. -/
def openid : WechatRequest → Option String
  | signIn _ (.verify openid _) | signIn _ (.find openid _ _) => some openid
  | signIn _ (.waiting accepted _) | signIn _ (.answered accepted _ _) => some accepted.openid
  | _ => none

/-- The captcha a login has matched. -/
def matched : WechatRequest → Option Captcha
  | signIn _ (.verify _ (.consume stored)) | signIn _ (.verify _ (.reset stored _))
  | signIn _ (.find _ stored _) => some stored
  | signIn _ (.waiting accepted _) | signIn _ (.answered accepted _ _) => some accepted.stored
  | _ => none

/-- The captcha a login has consumed. -/
def taken : WechatRequest → Option Captcha
  | signIn _ (.verify _ (.reset _ taken)) | signIn _ (.find _ _ taken) => some taken
  | signIn _ (.waiting accepted _) | signIn _ (.answered accepted _ _) => some accepted.taken
  | _ => none

/-- The endpoint, the captcha and the call of a login that has made its call. -/
def made : WechatRequest → Option (CaptchaEndpoint × AcceptedCaptcha × CallId)
  | signIn endpoint (.waiting accepted c) | signIn endpoint (.answered accepted c _) =>
    some (endpoint, accepted, c)
  | _ => none

/-- The code a login presents. -/
def presented : WechatRequest → String
  | signIn endpoint _ => endpoint.code
  | callback _ _ => ""

end WechatRequest

/-! ## What a step of a request does -/

/-- What a step of the callback does. -/
inductive CallbackPhase.Step (crates : CallbackCrates) (comps : WechatComponents) (n : Nat)
    (post : CallbackPost) (s : Wechat) : CallbackPhase → Wechat → CallbackPhase → Prop
  | refused (unread : post.message crates comps.config = none) :
      Step crates comps n post s .received s (.answered "success".toList)
  | help {msg : WechatMessage} (read : post.message crates comps.config = some msg)
      (type : msg.msgType = "text") (plain : msg.asksForCode crates comps = false) :
      Step crates comps n post s .received s (.answered (msg.reply s.redis.clock helpText))
  | welcome {msg : WechatMessage} (read : post.message crates comps.config = some msg)
      (type : msg.msgType ≠ "text") :
      Step crates comps n post s .received s (.answered (msg.reply s.redis.clock welcomeText))
  | asked {msg : WechatMessage} (read : post.message crates comps.config = some msg)
      (type : msg.msgType = "text") (asks : msg.asksForCode crates comps = true) :
      Step crates comps n post s .received s (.generating msg .setNx)
  | generate {msg : WechatMessage} {phase phase' : GenerateCaptcha} {a : Wechat}
      {outcome : RedisOutcome}
      (next : generateCaptcha comps.login n msg.fromUserName post.drawn s phase outcome =
        some (a, phase')) :
      Step crates comps n post s (.generating msg phase) a
        (.ofGenerate comps.login msg post.drawn s.redis.clock phase')

/-- What a step of a login does. -/
inductive SignInPhase.Step (cfg : Settings) (comps : WechatComponents) (n : Nat)
    (endpoint : CaptchaEndpoint) (s : LoginState) : SignInPhase → LoginState → SignInPhase → Prop
  | refused {phase : SignInPhase} {e : ApiError}
      (uncalled : (WechatRequest.signIn endpoint phase).made = none) :
      Step cfg comps n endpoint s phase s (.refused e)
  | indexed {openid : String} :
      Step cfg comps n endpoint s .received s (.verify openid .peek)
  | verify {openid : String} {phase phase' : VerifyForOpenid} {a : Wechat}
      {outcome : RedisOutcome}
      (next : verifyForOpenid comps.login n openid endpoint.code s.wechat phase outcome =
        some (a, phase')) :
      Step cfg comps n endpoint s (.verify openid phase) { s with wechat := a }
        (.ofVerify openid phase')
  | joined {openid : String} {stored taken : Captcha} {userId : UserId} {world : World}
      (bound : s.world.db.findUserByOpenid s.world.calls.length openid = some userId)
      (made : s.world.step cfg (.invoke (endpoint.call cfg userId)) = some world) :
      Step cfg comps n endpoint s (.find openid stored taken) { s with world }
        (.waiting ⟨openid, stored, taken, userId⟩ s.world.calls.length)
  | answered {accepted : AcceptedCaptcha} {c : CallId} {call : Call} {clock : Time}
      {r : Except ApiError LoginSession} (returned : s.world.calls[c]? = some call)
      (finished : endpoint.finish cfg accepted.userId clock call = some r) :
      Step cfg comps n endpoint s (.waiting accepted c) s (.answered accepted c r)

section
variable {crates : CallbackCrates} {cfg : Settings} {v : Validator} {comps : WechatComponents}
  {n : Nat} {post : CallbackPost} {endpoint : CaptchaEndpoint} {openid : String} {s a : LoginState}
  {w : Wechat} {p q : WechatRequest} {input : WechatInput} {c : Captcha}

theorem CallbackPost.signed_of_message {msg : WechatMessage}
    (h : post.message crates comps.config = some msg) : post.Signed crates comps := by
  unfold message at h
  split at h
  · rename_i params body hquery hbody
    refine ⟨params, hquery, ?_⟩
    unfold parseCallback at h
    split at h
    · simp [Except.toOption] at h
    · rename_i hsigned
      simpa using hsigned
  · cases h

theorem CallbackPost.AsksFor.signed (h : post.AsksFor crates comps openid) :
    post.Signed crates comps := by
  obtain ⟨msg, hmsg, -⟩ := h
  exact signed_of_message hmsg

theorem callback_step {phase : CallbackPhase}
    (h : (wechatEndpoints crates cfg v comps).next n s (.callback post phase) input = some (a, q)) :
    ∃ w phase', CallbackPhase.Step crates comps n post s.wechat phase w phase' ∧
      a = { s with wechat := w } ∧ q = .callback post phase' := by
  obtain ⟨⟨w, phase'⟩, hstep, h⟩ := Option.map_eq_some_iff.mp h
  cases h
  refine ⟨w, phase', ?_, rfl, rfl⟩
  cases phase with
  | received =>
    cases hstep
    split
    · exact .refused ‹_›
    · rename_i msg hmsg
      split
      · rename_i htype
        split
        · exact .asked hmsg htype ‹_›
        · rename_i hplain
          exact .help hmsg htype (Bool.eq_false_of_not_eq_true hplain)
      · exact .welcome hmsg ‹_›
  | generating msg phase =>
    obtain ⟨⟨w, phase'⟩, hnext, hstep⟩ := Option.map_eq_some_iff.mp hstep
    cases hstep
    exact .generate hnext
  | answered => cases hstep

theorem signIn_step {phase : SignInPhase}
    (h : (wechatEndpoints crates cfg v comps).next n s (.signIn endpoint phase) input =
      some (a, q)) :
    ∃ phase', SignInPhase.Step cfg comps n endpoint s phase a phase' ∧
      q = .signIn endpoint phase' := by
  obtain ⟨⟨a, phase'⟩, hstep, h⟩ := Option.map_eq_some_iff.mp h
  cases h
  refine ⟨phase', ?_, rfl⟩
  cases phase with
  | received =>
    cases hstep
    split
    · exact .refused rfl
    · split
      · exact .refused rfl
      · exact .refused rfl
      · exact .indexed
  | verify openid phase =>
    obtain ⟨⟨w, phase'⟩, hnext, hstep⟩ := Option.map_eq_some_iff.mp hstep
    cases hstep
    exact .verify hnext
  | find openid stored taken =>
    simp only [signIn] at hstep
    split at hstep
    · cases hstep
      exact .refused rfl
    · rename_i userId hfound
      obtain ⟨world, hmade, hstep⟩ := Option.map_eq_some_iff.mp hstep
      cases hstep
      split at hfound
      · cases hfound
      · exact .joined hfound hmade
  | waiting accepted c =>
    obtain ⟨r, hr, hstep⟩ := Option.map_eq_some_iff.mp hstep
    obtain ⟨call, hcall, hr⟩ := Option.bind_eq_some_iff.mp hr
    cases hstep
    exact .answered hcall hr
  | answered | refused => cases hstep

/-! ### Of the captchas -/

theorem hasSet_ofGenerate {cfg : LoginConfig} {msg : WechatMessage} {code : String} {now : Time}
    {phase : GenerateCaptcha} (h : phase ≠ .setNx) :
    (CallbackPhase.ofGenerate cfg msg code now phase).hasSet = true := by
  cases phase with
  | setNx => exact absurd rfl h
  | failed e => cases e <;> rfl
  | setIndex | resetAttempts | issued => rfl

/-- The call of `generate` in a callback does not go back to its SET NX. -/
theorem generate_left {cfg : LoginConfig} {code : String} {phase phase' : GenerateCaptcha}
    {s a : Wechat} {outcome : RedisOutcome}
    (h : generateCaptcha cfg n openid code s phase outcome = some (a, phase')) :
    phase' ≠ .setNx := by
  have hcall : (captchaService cfg).next n s (.generate openid code phase) outcome =
      some (a, .generate openid code phase') :=
    Option.map_eq_some_iff.mpr ⟨_, h, rfl⟩
  obtain ⟨phase₁, hphase, hne⟩ := generate_of_next hcall
  cases hphase
  exact hne

theorem hasSet_of_next {phase : CallbackPhase} (hset : phase.hasSet = true)
    (h : (wechatEndpoints crates cfg v comps).next n s (.callback post phase) input = some (a, q)) :
    ∃ phase', q = .callback post phase' ∧ phase'.hasSet = true := by
  obtain ⟨w, phase', hstep, -, rfl⟩ := callback_step h
  refine ⟨phase', rfl, ?_⟩
  cases hstep with
  | generate next => exact hasSet_ofGenerate (generate_left next)
  | refused | help | welcome | asked => cases hset

theorem seen_ofVerify {phase : VerifyForOpenid}
    (h : c ∈ (WechatRequest.signIn endpoint (.ofVerify openid phase)).seen) :
    c ∈ phase.seen ∧
      (WechatRequest.signIn endpoint (.ofVerify openid phase)).openid = some openid := by
  cases phase with
  | rejected | failed => simp [SignInPhase.ofVerify, WechatRequest.seen] at h
  | _ => exact ⟨h, rfl⟩

theorem taken_ofVerify {phase : VerifyForOpenid} (code : String)
    (h : (WechatRequest.signIn endpoint (.ofVerify openid phase)).taken = some c) :
    ∃ stored, (CaptchaCall.verify openid code phase).taken = some (stored, c) := by
  cases phase with
  | reset stored taken | accepted stored taken =>
    cases h
    exact ⟨stored, rfl⟩
  | _ => simp [SignInPhase.ofVerify, WechatRequest.taken] at h

theorem fails_ofVerify {phase : VerifyForOpenid}
    (h : (WechatRequest.signIn endpoint (.ofVerify openid phase)).matched = some c) :
    phase.fails = false := by
  cases phase with
  | consume | reset | accepted => rfl
  | _ => simp [SignInPhase.ofVerify, WechatRequest.matched] at h

/-- A login goes on with the captcha whose code it has presented. -/
theorem matched_ofVerify {cfg : LoginConfig} {code : String} {phase phase' : VerifyForOpenid}
    {s a : Wechat} {outcome : RedisOutcome}
    (hnext : verifyForOpenid cfg n openid code s phase outcome = some (a, phase'))
    (h : (WechatRequest.signIn endpoint (.ofVerify openid phase')).matched = some c) :
    (WechatRequest.signIn endpoint (.verify openid phase)).matched = some c ∨
      eqIgnoreAsciiCase c.code code = true := by
  have hgoes := fails_ofVerify h
  cases hphase : phase.fails with
  | true =>
    rw [Wechat.fails_next hphase hnext] at hgoes
    cases hgoes
  | false =>
    cases phase with
    | peek =>
      obtain ⟨-, -, stored, rfl, -, right⟩ := Wechat.peek_accepts hnext hgoes
      cases h
      exact .inr right
    | consume stored =>
      obtain ⟨-, taken, rfl⟩ := Wechat.consume_accepts hnext hgoes
      exact .inl h
    | reset stored taken =>
      cases hnext
      cases outcome <;> first | exact .inl h | cases h
    | accepted => cases hnext
    | _ => cases hphase

/-- What a step of a request does to the captchas, and which one it has consumed after it. -/
inductive WechatRequest.Does (comps : WechatComponents) (n : Nat) (s : Wechat) :
    WechatRequest → Wechat → WechatRequest → Prop
  | fewer {p q : WechatRequest} {a : Wechat} (fewer : s.Fewer a)
      (taken : ∀ c, q.taken = some c → p.taken = some c) : Does comps n s p a q
  | store {post : CallbackPost} {msg : WechatMessage} {phase : CallbackPhase}
      (vacant : s.captcha msg.fromUserName = none) (set : phase.hasSet = true) :
      Does comps n s (.callback post (.generating msg .setNx))
        (s.store comps.login ⟨post.drawn, msg.fromUserName, n⟩) (.callback post phase)
  | consume {endpoint : CaptchaEndpoint} {openid : String} {stored c : Captcha}
      {q : WechatRequest} (there : s.captcha openid = some c)
      (after : ∀ c', q.taken = some c' → c' = c) :
      Does comps n s (.signIn endpoint (.verify openid (.consume stored))) (s.consume n openid) q

theorem does_of_next
    (h : (wechatEndpoints crates cfg v comps).next n s p input = some (a, q)) :
    WechatRequest.Does comps n s.wechat p a.wechat q := by
  cases p with
  | callback post phase =>
    obtain ⟨w, phase', hstep, rfl, rfl⟩ := callback_step h
    cases hstep with
    | generate next =>
      cases CaptchaCall.does_of_generate next with
      | fewer fewer => exact .fewer fewer nofun
      | store vacant => exact .store vacant (hasSet_ofGenerate (generate_left next))
    | refused | help | welcome | asked => exact .fewer .refl nofun
  | signIn endpoint phase =>
    obtain ⟨phase', hstep, rfl⟩ := signIn_step h
    cases hstep with
    | @verify openid phase phase' w outcome next =>
      cases CaptchaCall.does_of_verify next with
      | fewer fewer _ taken =>
        refine .fewer fewer ?_
        intro c hc
        obtain ⟨stored, htaken⟩ := taken_ofVerify endpoint.code hc
        cases phase with
        | reset stored' taken' =>
          have hbefore := taken _ htaken
          cases hbefore
          rfl
        | accepted => cases next
        | _ => cases taken _ htaken
      | @consume _ _ stored c phase' there after =>
        refine .consume there ?_
        intro c' hc
        obtain rfl | ⟨e, rfl⟩ := after
        · cases hc
          rfl
        · cases hc
    | refused | indexed => exact .fewer .refl nofun
    | joined | answered => exact .fewer .refl fun c hc => hc

theorem presented_of_next
    (h : (wechatEndpoints crates cfg v comps).next n s p input = some (a, q)) :
    q.presented = p.presented := by
  cases p with
  | callback post phase =>
    obtain ⟨w, phase', -, -, rfl⟩ := callback_step h
    rfl
  | signIn endpoint phase =>
    obtain ⟨phase', -, rfl⟩ := signIn_step h
    rfl

/-- A login sees the captcha of its openid only. -/
theorem seen_of_next
    (h : (wechatEndpoints crates cfg v comps).next n s p input = some (a, q)) (hc : c ∈ q.seen) :
    (c ∈ p.seen ∧ q.openid = p.openid) ∨
      ∃ openid, q.openid = some openid ∧ s.wechat.captcha openid = some c := by
  cases p with
  | callback post phase =>
    obtain ⟨w, phase', -, -, rfl⟩ := callback_step h
    cases hc
  | signIn endpoint phase =>
    obtain ⟨phase', hstep, rfl⟩ := signIn_step h
    cases hstep with
    | verify next =>
      obtain ⟨hseen, hopenid⟩ := seen_ofVerify hc
      rcases VerifyForOpenid.seen_of_next next hseen with hold | hnew
      · exact .inl ⟨hold, hopenid⟩
      · exact .inr ⟨_, hopenid, hnew⟩
    | refused | indexed => cases hc
    | joined | answered => exact .inl ⟨hc, rfl⟩

theorem matched_of_next
    (h : (wechatEndpoints crates cfg v comps).next n s p input = some (a, q))
    (hc : q.matched = some c) :
    p.matched = some c ∨ eqIgnoreAsciiCase c.code q.presented = true := by
  cases p with
  | callback post phase =>
    obtain ⟨w, phase', -, -, rfl⟩ := callback_step h
    cases hc
  | signIn endpoint phase =>
    obtain ⟨phase', hstep, rfl⟩ := signIn_step h
    cases hstep with
    | verify next => exact matched_ofVerify next hc
    | refused | indexed => cases hc
    | joined | answered => exact .inl hc

/-- A login makes its call once it has found the user, and keeps to it. -/
theorem made_of_next
    (h : (wechatEndpoints crates cfg v comps).next n s p input = some (a, q)) :
    (a.world = s.world ∧ q.made = p.made) ∨
      ∃ endpoint openid stored taken userId,
        p.made = none ∧
        q = .signIn endpoint (.waiting ⟨openid, stored, taken, userId⟩ s.world.calls.length) ∧
        s.world.db.findUserByOpenid s.world.calls.length openid = some userId ∧
        s.world.step cfg (.invoke (endpoint.call cfg userId)) = some a.world := by
  cases p with
  | callback post phase =>
    obtain ⟨w, phase', -, rfl, rfl⟩ := callback_step h
    exact .inl ⟨rfl, rfl⟩
  | signIn endpoint phase =>
    obtain ⟨phase', hstep, rfl⟩ := signIn_step h
    cases hstep with
    | refused uncalled => exact .inl ⟨rfl, uncalled.symm⟩
    | indexed => exact .inl ⟨rfl, rfl⟩
    | @verify openid phase phase' w outcome next =>
      refine .inl ⟨rfl, ?_⟩
      cases phase' <;> rfl
    | joined bound made => exact .inr ⟨_, _, _, _, _, rfl, rfl, bound, made⟩
    | answered => exact .inl ⟨rfl, rfl⟩

theorem answered_of_next {accepted : AcceptedCaptcha} {c : CallId}
    {r : Except ApiError LoginSession}
    (h : (wechatEndpoints crates cfg v comps).next n s p input =
      some (a, .signIn endpoint (.answered accepted c r))) :
    ∃ call clock, p.made = some (endpoint, accepted, c) ∧ s.world.calls[c]? = some call ∧
      endpoint.finish cfg accepted.userId clock call = some r := by
  cases p with
  | callback post phase =>
    obtain ⟨w, phase', -, -, hq⟩ := callback_step h
    cases hq
  | signIn endpoint' phase =>
    obtain ⟨phase', hstep, hq⟩ := signIn_step h
    cases hq
    generalize hphase : SignInPhase.answered accepted c r = phase' at hstep
    cases hstep with
    | answered returned finished =>
      cases hphase
      exact ⟨_, _, rfl, returned, finished⟩
    | @verify openid phase phase' w outcome next => cases phase' <;> cases hphase
    | refused | indexed | joined => cases hphase

theorem surround_cases {e : ServerMove}
    (h : (wechatEndpoints crates cfg v comps).surround s e = some a) :
    (∃ l world, e = .server l ∧ l.signsIn = false ∧ s.world.step cfg l = some world ∧
      a = { s with world }) ∨
    ∃ now, e = .tick now ∧ s.wechat.redis.clock ≤ now ∧
      a = { s with wechat := { s.wechat with redis := s.wechat.redis.tick now } } := by
  cases e with
  | server l =>
    simp only [wechatEndpoints] at h
    split at h
    · cases h
    · rename_i hl
      obtain ⟨world, hworld, rfl⟩ := Option.map_eq_some_iff.mp h
      exact .inl ⟨l, world, rfl, by simpa using hl, hworld, rfl⟩
  | tick now =>
    simp only [wechatEndpoints] at h
    split at h
    · rename_i hle
      exact .inr ⟨now, rfl, hle, (Option.some.inj h).symm⟩
    · cases h

/-- Neither the services nor time bring a captcha. -/
theorem fewer_of_surround {e : ServerMove}
    (h : (wechatEndpoints crates cfg v comps).surround s e = some a) : s.wechat.Fewer a.wechat := by
  obtain ⟨l, world, -, -, -, rfl⟩ | ⟨now, -, hle, rfl⟩ := surround_cases h
  · exact .refl
  · exact ⟨fun _ _ hc => Expiring.get_of_tick hle hc, rfl⟩

/-- A request that has just come in. -/
theorem WechatRequest.isNew_idle (h : p.isNew = true) :
    p.seen = [] ∧ p.matched = none ∧ p.taken = none ∧ p.made = none := by
  cases p with
  | callback post phase => exact ⟨rfl, rfl, rfl, rfl⟩
  | signIn endpoint phase =>
    cases phase with
    | received => exact ⟨rfl, rfl, rfl, rfl⟩
    | _ => cases h

end

end Webshelf
