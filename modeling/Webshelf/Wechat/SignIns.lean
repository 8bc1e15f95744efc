import Webshelf.Server.Seen
import Webshelf.Wechat.Requests

/-!
# Where the sessions of captchas come from

Whatever requests to the callback and to the logins run into one another, and
whatever else the server does: a captcha has been stored by a callback whose
message was signed, came from the captcha's openid and asked for a code. A login
that makes its call of the services has matched one such captcha and consumed
one, both of an openid that is bound to its user, and no other login has consumed
the same one.
-/

namespace Webshelf

open Runs (Watched)

abbrev WechatState := Threads.State LoginState WechatRequest

namespace WechatState

/-- The captcha has been stored by a callback for a signed message of its openid. -/
def Sent (crates : CallbackCrates) (comps : WechatComponents) (s : WechatState) (c : Captcha) :
    Prop :=
  ∃ post phase, s.threads[c.issuedBy]? = some (.callback post phase) ∧ phase.hasSet = true ∧
    post.drawn = c.code ∧ post.Signed crates comps ∧ post.AsksFor crates comps c.openid

/-- Every captcha has been sent, and has been consumed by one login at most. -/
structure Backed (crates : CallbackCrates) (comps : WechatComponents) (s : WechatState) :
    Prop where
  asking : ∀ (n : Nat) post msg phase,
    s.threads[n]? = some (.callback post (.generating msg phase)) →
      post.AsksFor crates comps msg.fromUserName
  stored : ∀ openid c, s.shared.wechat.captcha openid = some c →
    c.openid = openid ∧ s.Sent crates comps c ∧ s.shared.wechat.takenBy c = none
  taken : ∀ c m, s.shared.wechat.takenBy c = some m → s.Sent crates comps c
  seen : ∀ (n : Nat) r c, s.threads[n]? = some r → c ∈ r.seen →
    r.openid = some c.openid ∧ s.Sent crates comps c
  matched : ∀ (n : Nat) r c, s.threads[n]? = some r → r.matched = some c →
    eqIgnoreAsciiCase c.code r.presented = true
  own : ∀ (n : Nat) r c, s.threads[n]? = some r → r.taken = some c →
    s.shared.wechat.takenBy c = some n

variable {crates : CallbackCrates} {cfg : Settings} {v : Validator} {comps : WechatComponents}
  {s s' : WechatState} {l : Threads.Label WechatRequest WechatInput ServerMove} {c : Captcha}

theorem Sent.step (h : s.Sent crates comps c)
    (hstep : Threads.step (wechatEndpoints crates cfg v comps) s l = some s') :
    s'.Sent crates comps c := by
  obtain ⟨post, phase, hget, hset, hasks⟩ := h
  obtain ⟨p, -, -, rfl⟩ | ⟨n, input, p, a, q, -, hp, hn, rfl⟩ | ⟨e, a, -, -, rfl⟩ :=
    Threads.step_cases hstep
  · obtain ⟨hlt, -⟩ := List.getElem?_eq_some_iff.mp hget
    exact ⟨post, phase, (List.getElem?_append_left hlt).trans hget, hset, hasks⟩
  · by_cases hcn : c.issuedBy = n
    · subst hcn
      cases hp.symm.trans hget
      obtain ⟨phase', rfl, hset'⟩ := hasSet_of_next hset hn
      exact ⟨post, phase', Threads.get_set_self hp, hset', hasks⟩
    · exact ⟨post, phase, (Threads.get_set_other hcn).trans hget, hset, hasks⟩
  · exact ⟨post, phase, hget, hset, hasks⟩

/-- A message that is being answered with a code has asked for it. -/
theorem Backed.asking_step (h : s.Backed crates comps)
    (hstep : Threads.step (wechatEndpoints crates cfg v comps) s l = some s') {n : Nat}
    {post : CallbackPost} {msg : WechatMessage} {phase : GenerateCaptcha}
    (hget : s'.threads[n]? = some (.callback post (.generating msg phase))) :
    post.AsksFor crates comps msg.fromUserName := by
  obtain ⟨p, -, hnew, rfl⟩ | ⟨k, input, p, a, q, -, hp, hn, rfl⟩ | ⟨e, a, -, -, rfl⟩ :=
    Threads.step_cases hstep
  · rcases Threads.get_begin hget with hget | ⟨-, rfl⟩
    · exact h.asking n post msg phase hget
    · cases hnew
  · rcases Threads.get_set hp hget with ⟨-, rfl⟩ | ⟨-, hget⟩
    · cases p with
      | callback post' phase' =>
        obtain ⟨w, phase₁, hdoes, -, hq⟩ := callback_step hn
        cases hq
        generalize hphase : CallbackPhase.generating msg phase = phase₁ at hdoes
        cases hdoes with
        | refused | help | welcome => cases hphase
        | asked read type asks =>
          cases hphase
          exact ⟨msg, read, type, asks, rfl⟩
        | @generate msg' phase₂ phase₃ w outcome next =>
          have hmsg : msg = msg' := by
            cases phase₃ with
            | failed e => cases e <;> cases hphase
            | issued => cases hphase
            | setNx | setIndex | resetAttempts =>
              cases hphase
              rfl
          subst hmsg
          exact h.asking k post msg phase₂ hp
      | signIn endpoint phase' =>
        obtain ⟨phase₁, -, hq⟩ := signIn_step hn
        cases hq
    · exact h.asking n post msg phase hget
  · exact h.asking n post msg phase hget

theorem Backed.stored_step (h : s.Backed crates comps)
    (hstep : Threads.step (wechatEndpoints crates cfg v comps) s l = some s') {openid : String}
    (hc : s'.shared.wechat.captcha openid = some c) :
    c.openid = openid ∧ s'.Sent crates comps c ∧ s'.shared.wechat.takenBy c = none := by
  have hkeep : ∀ {c}, s.Sent crates comps c → s'.Sent crates comps c := fun hc => hc.step hstep
  have hfewer : s.shared.wechat.Fewer s'.shared.wechat → c.openid = openid ∧
      s'.Sent crates comps c ∧ s'.shared.wechat.takenBy c = none := by
    intro hfewer
    obtain ⟨hopenid, hsent, hfree⟩ := h.stored openid c (hfewer.captcha openid c hc)
    exact ⟨hopenid, hkeep hsent, by rw [hfewer.takenBy, hfree]⟩
  obtain ⟨p, -, -, rfl⟩ | ⟨n, input, p, a, q, -, hp, hn, rfl⟩ | ⟨e, a, -, he, rfl⟩ :=
    Threads.step_cases hstep
  · exact hfewer .refl
  · have hdoes := does_of_next hn
    obtain ⟨world, w⟩ := a
    dsimp only at hc hdoes hfewer ⊢
    cases hdoes with
    | fewer fewer => exact hfewer fewer
    | @store post msg phase vacant set =>
      rcases Wechat.captcha_store hc with ⟨rfl, rfl⟩ | hold
      · refine ⟨rfl, ⟨post, phase, Threads.get_set_self hp, set, rfl,
          (h.asking n _ _ _ hp).signed, h.asking n _ _ _ hp⟩, ?_⟩
        -- the callback has not been past its SET NX before
        cases ht : s.shared.wechat.takenBy ⟨post.drawn, msg.fromUserName, n⟩ with
        | none => exact ht
        | some m =>
          obtain ⟨post', phase', hget, hset, -⟩ := h.taken _ m ht
          cases hp.symm.trans hget
          cases hset
      · obtain ⟨hopenid, hsent, hfree⟩ := h.stored openid c hold
        exact ⟨hopenid, hkeep hsent, hfree⟩
    | @consume endpoint openid' stored c' _ there after =>
      obtain ⟨hne, hold⟩ := Wechat.captcha_consume there hc
      obtain ⟨hopenid, hsent, hfree⟩ := h.stored openid c hold
      refine ⟨hopenid, hkeep hsent, ?_⟩
      cases ht : (s.shared.wechat.consume n openid').takenBy c with
      | none => rfl
      | some m =>
        rcases Wechat.takenBy_consume there ht with ⟨rfl, -⟩ | ht
        · have hopenid' := (h.stored openid' c there).1
          exact absurd (hopenid.symm.trans hopenid') hne
        · rw [hfree] at ht
          cases ht
  · exact hfewer (fewer_of_surround he)

theorem Backed.taken_step (h : s.Backed crates comps)
    (hstep : Threads.step (wechatEndpoints crates cfg v comps) s l = some s') {m : Nat}
    (hc : s'.shared.wechat.takenBy c = some m) : s'.Sent crates comps c := by
  suffices hsent : s.Sent crates comps c from hsent.step hstep
  obtain ⟨p, -, -, rfl⟩ | ⟨n, input, p, a, q, -, hp, hn, rfl⟩ | ⟨e, a, -, he, rfl⟩ :=
    Threads.step_cases hstep
  · exact h.taken c m hc
  · have hdoes := does_of_next hn
    obtain ⟨world, w⟩ := a
    dsimp only at hc hdoes
    cases hdoes with
    | fewer fewer => exact h.taken c m (fewer.takenBy ▸ hc)
    | store vacant set => exact h.taken c m hc
    | consume there after =>
      rcases Wechat.takenBy_consume there hc with ⟨rfl, -⟩ | hc
      · exact (h.stored _ c there).2.1
      · exact h.taken c m hc
  · exact h.taken c m ((fewer_of_surround he).takenBy ▸ hc)

/-- What a login has consumed stays its own. -/
theorem Backed.own_step (h : s.Backed crates comps)
    (hstep : Threads.step (wechatEndpoints crates cfg v comps) s l = some s') {k : Nat}
    {r : WechatRequest} (hget : s'.threads[k]? = some r) (hc : r.taken = some c) :
    s'.shared.wechat.takenBy c = some k := by
  obtain ⟨p, -, hnew, rfl⟩ | ⟨n, input, p, a, q, -, hp, hn, rfl⟩ | ⟨e, a, -, he, rfl⟩ :=
    Threads.step_cases hstep
  · rcases Threads.get_begin hget with hget | ⟨-, rfl⟩
    · exact h.own k r c hget hc
    · rw [(WechatRequest.isNew_idle hnew).2.2.1] at hc
      cases hc
  · have hdoes := does_of_next hn
    obtain ⟨world, w⟩ := a
    dsimp only at hdoes ⊢
    rcases Threads.get_set hp hget with ⟨rfl, rfl⟩ | ⟨hne, hget⟩
    · cases hdoes with
      | fewer fewer taken =>
        rw [fewer.takenBy]
        exact h.own k p c hp (taken c hc)
      | store => cases hc
      | consume there after =>
        rw [after c hc, Wechat.consume_some there]
        exact Function.update_self ..
    · have hold := h.own k r c hget hc
      cases hdoes with
      | fewer fewer =>
        rw [fewer.takenBy]
        exact hold
      | store => exact hold
      | @consume _ openid _ c' _ there after =>
        have hother : c ≠ c' := by
          rintro rfl
          rw [(h.stored openid c there).2.2] at hold
          cases hold
        rw [Wechat.consume_some there]
        exact (Function.update_of_ne hother ..).trans hold
  · rw [(fewer_of_surround he).takenBy]
    exact h.own k r c hget hc

theorem Backed.step (h : s.Backed crates comps)
    (hstep : Threads.step (wechatEndpoints crates cfg v comps) s l = some s') :
    s'.Backed crates comps := by
  refine ⟨fun n post msg phase => h.asking_step hstep, fun openid c => h.stored_step hstep,
    fun c m => h.taken_step hstep, ?_, ?_, fun n r c => h.own_step hstep⟩
  · intro k r c hget hc
    have hkeep : ∀ {c}, s.Sent crates comps c → s'.Sent crates comps c := fun hc => hc.step hstep
    obtain ⟨p, -, hnew, rfl⟩ | ⟨n, input, p, a, q, -, hp, hn, rfl⟩ | ⟨e, a, -, -, rfl⟩ :=
      Threads.step_cases hstep
    · rcases Threads.get_begin hget with hget | ⟨-, rfl⟩
      · exact (h.seen k r c hget hc).imp_right hkeep
      · rw [(WechatRequest.isNew_idle hnew).1] at hc
        cases hc
    · rcases Threads.get_set hp hget with ⟨rfl, rfl⟩ | ⟨-, hget⟩
      · rcases seen_of_next hn hc with ⟨hold, hopenid⟩ | ⟨openid, hopenid, there⟩
        · rw [hopenid]
          exact (h.seen k p c hp hold).imp_right hkeep
        · obtain ⟨rfl, hsent, -⟩ := h.stored openid c there
          exact ⟨hopenid, hkeep hsent⟩
      · exact (h.seen k r c hget hc).imp_right hkeep
    · exact (h.seen k r c hget hc).imp_right hkeep
  · intro k r c hget hc
    obtain ⟨p, -, hnew, rfl⟩ | ⟨n, input, p, a, q, -, hp, hn, rfl⟩ | ⟨e, a, -, -, rfl⟩ :=
      Threads.step_cases hstep
    · rcases Threads.get_begin hget with hget | ⟨-, rfl⟩
      · exact h.matched k r c hget hc
      · rw [(WechatRequest.isNew_idle hnew).2.1] at hc
        cases hc
    · rcases Threads.get_set hp hget with ⟨rfl, rfl⟩ | ⟨-, hget⟩
      · rcases matched_of_next hn hc with hold | right
        · rw [presented_of_next hn]
          exact h.matched k p c hp hold
        · exact right
      · exact h.matched k r c hget hc
    · exact h.matched k r c hget hc

end WechatState

/-! ## The calls of the logins -/

/-- The calls that only the logins make. -/
def Call.isSignIn : Call → Bool
  | login _ | wxLogin _ => true
  | _ => false

/-- The call that an endpoint has made for the user, wherever it stands. -/
def CaptchaEndpoint.Makes (userId : UserId) : CaptchaEndpoint → Call → Prop
  | wxLogin _, .wxLogin q => q = .find userId ∨ ∃ r, q = .done r ∧
    ∀ token, r = .ok token → token.sub = userId
  | login _, .login _ => True
  | _, _ => False

/-- The user's row is bound to the openid. -/
def World.Bound (w : World) (userId : UserId) (openid : String) : Prop :=
  ∃ m, (w.db.users userId).committed = some m ∧ m.wxOpenid = some openid

section
variable {cfg : Settings} {env : Env} {before : Call} {stmt : Stmt} {userId : UserId}
  {k : Except DbErr stmt.Reply → Call} {reply : Except DbErr stmt.Reply} {w : World}
  {endpoint : CaptchaEndpoint} {openid : String}

theorem Call.isSignIn_next (issues : before.next cfg env = some ⟨stmt, k⟩) :
    (k reply).isSignIn = before.isSignIn := by
  cases before <;>
  · obtain ⟨k', -, rfl⟩ := Next.map_some issues
    rfl

namespace CaptchaEndpoint

theorem makes_call : endpoint.Makes userId (endpoint.call cfg userId) := by
  cases endpoint with
  | wxLogin => exact .inl rfl
  | login => exact trivial

theorem makes_next (h : endpoint.Makes userId before)
    (issues : before.next cfg env = some ⟨stmt, k⟩) : endpoint.Makes userId (k reply) := by
  cases endpoint with
  | wxLogin code =>
    cases before with
    | wxLogin q =>
      rcases h with rfl | ⟨r, rfl, -⟩
      · cases issues
        rcases reply with e | _ | m
        · exact .inr ⟨_, rfl, nofun⟩
        · exact .inr ⟨_, rfl, nofun⟩
        · refine .inr ⟨_, rfl, ?_⟩
          intro token htoken
          cases htoken
          rfl
      · cases issues
    | _ => cases h
  | login body =>
    cases before with
    | login q =>
      obtain ⟨k', -, rfl⟩ := Next.map_some issues
      exact trivial
    | _ => cases h

/-- A session is answered only for the user of the captcha, with the JWT the call returned. -/
theorem session_of_finish {clock : Time} {session : LoginSession} (h : endpoint.Makes userId before)
    (hf : endpoint.finish cfg userId clock before = some (.ok session)) :
    session.token.sub = userId ∧ before.jwt = some session.token := by
  unfold finish at hf
  split at hf
  · cases hf
  · rename_i code token
    rcases h with hfind | ⟨r, hdone, hsub⟩
    · cases hfind
    · cases hdone
      split at hf
      · cases hf
      · cases hf
        exact ⟨hsub token rfl, rfl⟩
  · rename_i body r
    have hf := Option.some.inj hf
    cases r with
    | error e => cases hf
    | ok token =>
      simp only [finishLogin, Option.any_some] at hf
      split at hf
      · cases hf
      · rename_i hsame
        split at hf
        · cases hf
        · cases hf
          refine ⟨?_, rfl⟩
          by_contra hne
          exact hsame (decide_eq_true (Ne.symm hne))
  · cases hf

end CaptchaEndpoint

/-- The lookup reads a committed row. -/
theorem World.Sound.bound_of_find (hw : w.Sound)
    (h : w.db.findUserByOpenid w.calls.length openid = some userId) : w.Bound userId openid := by
  obtain ⟨m, hfind, rfl⟩ := Option.map_eq_some_iff.mp h
  obtain ⟨id, -, hm⟩ := List.exists_of_findSome?_eq_some hfind
  obtain ⟨hview, hopenid⟩ := Option.filter_eq_some_iff.mp hm
  have hcommitted : (w.db.users id).committed = some m := by
    unfold Versioned.view at hview
    split at hview
    · rename_i o m' hpending
      obtain ⟨-, call, -, hcall, -⟩ := hw.working id o m' hpending
      have hlt := (List.getElem?_eq_some_iff.mp hcall).1
      rw [if_neg (Nat.ne_of_lt hlt)] at hview
      exact hview
    · exact hview
  have hid := hw.keyed id m hcommitted
  refine ⟨m, ?_, by simpa using hopenid⟩
  rw [hid]
  exact hcommitted

end

namespace WechatState

/-- The services of the run. -/
def worlds (f : Watched WechatState) : Watched World :=
  ⟨f.now.shared.world, f.past.map (·.shared.world)⟩

/-- What holds between the logins and the calls they have made. -/
structure Linked (f : Watched WechatState) : Prop where
  world : f.now.shared.world.Sound
  witnessed : World.Witnessed (worlds f)
  calls : ∀ (c : CallId) call, f.now.shared.world.calls[c]? = some call → call.isSignIn = true →
    ∃ (n : Nat) (r : WechatRequest) (endpoint : CaptchaEndpoint) (accepted : AcceptedCaptcha),
      f.now.threads[n]? = some r ∧ r.made = some (endpoint, accepted, c)
  made : ∀ (n : Nat) r endpoint accepted c, f.now.threads[n]? = some r →
    r.made = some (endpoint, accepted, c) →
      (∃ call, f.now.shared.world.calls[c]? = some call ∧ endpoint.Makes accepted.userId call) ∧
        World.Saw (worlds f) fun a => a.Bound accepted.userId accepted.openid
  answered : ∀ (n : Nat) endpoint accepted c session,
    f.now.threads[n]? = some (.signIn endpoint (.answered accepted c (.ok session))) →
      session.token.sub = accepted.userId ∧
        World.Saw (worlds f) fun a => a.HasRow session.token.identity

variable {crates : CallbackCrates} {cfg : Settings} {v : Validator} {comps : WechatComponents}
  {f f' : Watched WechatState} {world : World} {lw : Label}
  {l : Threads.Label WechatRequest WechatInput ServerMove}

/-- The services take a step that is not the call of a login. -/
theorem Linked.server {wechat : Wechat} (h : Linked f)
    (hl : lw.signsIn = false) (ht : World.Transition cfg f.now.shared.world lw world) :
    Linked ⟨⟨⟨world, wechat⟩, f.now.threads⟩, f.states⟩ := by
  refine ⟨h.world.step ht, h.witnessed.step h.world ht, ?_, ?_, ?_⟩
  · intro c call hc hsign
    cases ht with
    | @invoke new start =>
      rcases World.join_calls hc with hc | rfl
      · exact h.calls c call hc hsign
      · cases call with
        | login | wxLogin => cases hl
        | _ => cases hsign
    | @exec c' input before stmt k db' reply running issues ran =>
      by_cases heq : c = c'
      · subst heq
        rw [World.after_self running] at hc
        cases hc
        rw [Call.isSignIn_next issues] at hsign
        exact h.calls c before running hsign
      · rw [World.after_other heq] at hc
        exact h.calls c call hc hsign
    | expire => exact h.calls c call hc hsign
  · intro n r endpoint accepted c hget hmade
    obtain ⟨⟨call, hc, hmakes⟩, hsaw⟩ := h.made n r endpoint accepted c hget hmade
    refine ⟨?_, hsaw.later⟩
    cases ht with
    | invoke => exact ⟨call, World.join_old hc, hmakes⟩
    | @exec c' input before stmt k db' reply running issues ran =>
      by_cases heq : c = c'
      · subst heq
        cases running.symm.trans hc
        exact ⟨_, World.after_self running, CaptchaEndpoint.makes_next hmakes issues⟩
      · exact ⟨call, (World.after_other heq).trans hc, hmakes⟩
    | expire => exact ⟨call, hc, hmakes⟩
  · intro n endpoint accepted c session hget
    exact (h.answered n endpoint accepted c session hget).imp_right World.Saw.later

/-- A request takes a step, and the services do not. -/
theorem Linked.request {n : Nat} {p q : WechatRequest} {a : LoginState} {input : WechatInput}
    (h : Linked f) (hp : f.now.threads[n]? = some p)
    (hn : (wechatEndpoints crates cfg v comps).next n f.now.shared p input = some (a, q))
    (hworld : a.world = f.now.shared.world) (hmade : q.made = p.made) :
    Linked ⟨⟨a, f.now.threads.set n q⟩, f.states⟩ := by
  obtain ⟨world, wechat⟩ := a
  dsimp only at hworld
  subst hworld
  refine ⟨h.world, h.witnessed.stay, ?_, ?_, ?_⟩
  · intro c call hc hsign
    obtain ⟨k, r, endpoint, accepted, hget, hr⟩ := h.calls c call hc hsign
    by_cases hk : k = n
    · subst hk
      cases hp.symm.trans hget
      exact ⟨k, q, endpoint, accepted, Threads.get_set_self hp, hmade.trans hr⟩
    · exact ⟨k, r, endpoint, accepted, (Threads.get_set_other hk).trans hget, hr⟩
  · intro k r endpoint accepted c hget hr
    rcases Threads.get_set hp hget with ⟨rfl, rfl⟩ | ⟨-, hget⟩
    · exact (h.made k p endpoint accepted c hp (hmade ▸ hr)).imp_right World.Saw.later
    · exact (h.made k r endpoint accepted c hget hr).imp_right World.Saw.later
  · intro k endpoint accepted c session hget
    rcases Threads.get_set hp hget with ⟨rfl, rfl⟩ | ⟨-, hget⟩
    · obtain ⟨call, clock, hmade, hcall, hfinish⟩ := answered_of_next hn
      obtain ⟨⟨call', hcall', hmakes⟩, -⟩ := h.made k p endpoint accepted c hp hmade
      cases hcall.symm.trans hcall'
      obtain ⟨hsub, hjwt⟩ := CaptchaEndpoint.session_of_finish hmakes hfinish
      exact ⟨hsub, (h.witnessed.returned c call session.token hcall hjwt).later⟩
    · exact (h.answered k endpoint accepted c session hget).imp_right World.Saw.later

/-- A login makes its call. -/
theorem Linked.call {n : Nat} {p : WechatRequest} {a : LoginState} {endpoint : CaptchaEndpoint}
    {openid : String} {stored taken : Captcha} {userId : UserId} (h : Linked f)
    (hp : f.now.threads[n]? = some p) (hnone : p.made = none)
    (hfound : f.now.shared.world.db.findUserByOpenid f.now.shared.world.calls.length openid =
      some userId)
    (hmade : f.now.shared.world.step cfg (.invoke (endpoint.call cfg userId)) = some a.world) :
    Linked ⟨⟨a, f.now.threads.set n (.signIn endpoint (.waiting ⟨openid, stored, taken, userId⟩
      f.now.shared.world.calls.length))⟩, f.states⟩ := by
  obtain ⟨world, wechat⟩ := a
  dsimp only at hmade
  have ht := World.step_transition hmade
  refine ⟨h.world.step ht, h.witnessed.step h.world ht, ?_, ?_, ?_⟩
  · intro c call hc hsign
    cases ht with
    | invoke start =>
      by_cases hlt : c < f.now.shared.world.calls.length
      · have hold : f.now.shared.world.calls[c]? = some call :=
          (List.getElem?_append_left hlt).symm.trans hc
        obtain ⟨k, r, endpoint', accepted, hget, hr⟩ := h.calls c call hold hsign
        have hk : k ≠ n := by
          rintro rfl
          cases hp.symm.trans hget
          rw [hnone] at hr
          cases hr
        exact ⟨k, r, endpoint', accepted, (Threads.get_set_other hk).trans hget, hr⟩
      · have hlast : c = f.now.shared.world.calls.length := by
          have hlen := (List.getElem?_eq_some_iff.mp hc).1
          simp only [World.join, List.length_append, List.length_singleton] at hlen
          exact Nat.le_antisymm (Nat.le_of_lt_succ hlen) (Nat.not_lt.mp hlt)
        subst hlast
        exact ⟨n, _, endpoint, _, Threads.get_set_self hp, rfl⟩
  · intro k r endpoint' accepted c hget hr
    rcases Threads.get_set hp hget with ⟨rfl, rfl⟩ | ⟨-, hget⟩
    · cases hr
      refine ⟨⟨endpoint.call cfg userId, ?_, CaptchaEndpoint.makes_call⟩, ?_⟩
      · cases ht
        exact List.getElem?_concat_length
      · have hsaw : World.Saw (worlds f) fun a => a.Bound userId openid :=
          World.saw_now (h.world.bound_of_find hfound)
        exact hsaw.later
    · obtain ⟨⟨call, hc, hmakes⟩, hsaw⟩ := h.made k r endpoint' accepted c hget hr
      cases ht
      exact ⟨⟨call, World.join_old hc, hmakes⟩, hsaw.later⟩
  · intro k endpoint' accepted c session hget
    rcases Threads.get_set hp hget with ⟨-, hq⟩ | ⟨-, hget⟩
    · cases hq
    · exact (h.answered k endpoint' accepted c session hget).imp_right World.Saw.later

theorem Linked.step (h : Linked f)
    (hstep : Watched.next (Threads.step (wechatEndpoints crates cfg v comps)) f l = some f') :
    Linked f' := by
  obtain ⟨s', hs', rfl⟩ := Watched.next_some hstep
  obtain ⟨p, -, hnew, rfl⟩ | ⟨n, input, p, a, q, -, hp, hn, rfl⟩ | ⟨e, a, -, he, rfl⟩ :=
    Threads.step_cases hs'
  · refine ⟨h.world, h.witnessed.stay, ?_, ?_, ?_⟩
    · intro c call hc hsign
      obtain ⟨k, r, endpoint, accepted, hget, hr⟩ := h.calls c call hc hsign
      have hlt := (List.getElem?_eq_some_iff.mp hget).1
      exact ⟨k, r, endpoint, accepted, (List.getElem?_append_left hlt).trans hget, hr⟩
    · intro k r endpoint accepted c hget hr
      rcases Threads.get_begin hget with hget | ⟨-, rfl⟩
      · exact (h.made k r endpoint accepted c hget hr).imp_right World.Saw.later
      · rw [(WechatRequest.isNew_idle hnew).2.2.2] at hr
        cases hr
    · intro k endpoint accepted c session hget
      rcases Threads.get_begin hget with hget | ⟨-, rfl⟩
      · exact (h.answered k endpoint accepted c session hget).imp_right World.Saw.later
      · cases hnew
  · obtain ⟨hworld, hmade⟩ | ⟨endpoint, openid, stored, taken, userId, hnone, rfl, hfound, hmade⟩ :=
      made_of_next hn
    · exact h.request hp hn hworld hmade
    · exact h.call hp hnone hfound hmade
  · obtain ⟨lw, world, -, hl, hworld, rfl⟩ | ⟨now, -, -, rfl⟩ := surround_cases he
    · exact h.server hl (World.step_transition hworld)
    · exact ⟨h.world, h.witnessed.stay, h.calls,
        fun n r endpoint accepted c hget hr =>
          (h.made n r endpoint accepted c hget hr).imp_right World.Saw.later,
        fun n endpoint accepted c session hget =>
          (h.answered n endpoint accepted c session hget).imp_right World.Saw.later⟩

/-- One callback has stored one captcha. -/
theorem Sent.eq_of_issuedBy {s : WechatState} {c c' : Captcha} (h : s.Sent crates comps c)
    (h' : s.Sent crates comps c') (hsame : c.issuedBy = c'.issuedBy) : c = c' := by
  obtain ⟨post, phase, hget, -, hdrawn, -, msg, hmsg, -, -, hopenid⟩ := h
  obtain ⟨post', phase', hget', -, hdrawn', -, msg', hmsg', -, -, hopenid'⟩ := h'
  rw [hsame] at hget
  cases hget.symm.trans hget'
  cases hmsg.symm.trans hmsg'
  obtain ⟨code, openid, issuedBy⟩ := c
  obtain ⟨code', openid', issuedBy'⟩ := c'
  dsimp only at hsame hdrawn hdrawn' hopenid hopenid'
  rw [hsame, ← hdrawn, ← hopenid, hdrawn', hopenid']

theorem backed_start {w : World} {account : Wechat}
    (hnone : ∀ openid, account.captcha openid = none)
    (huntaken : ∀ c, account.takenBy c = none) :
    Backed crates comps ⟨⟨w, account⟩, []⟩ := by
  have hnew (n : Nat) (r : WechatRequest) : ([] : List WechatRequest)[n]? ≠ some r := by simp
  refine ⟨fun n _ _ _ hget => absurd hget (hnew n _), ?_, ?_,
    fun n r _ hget => absurd hget (hnew n r), fun n r _ hget => absurd hget (hnew n r),
    fun n r _ hget => absurd hget (hnew n r)⟩
  · intro openid c hc
    cases (hnone openid).symm.trans hc
  · intro c m hc
    cases (huntaken c).symm.trans hc

theorem backed_linked_reached {w : World} {account : Wechat} (h0 : w.Initial)
    (hcaches : w.CachesRows) (hnone : ∀ openid, account.captcha openid = none)
    (huntaken : ∀ c, account.takenBy c = none)
    (h : Runs.Reaches (Watched.next (Threads.step (wechatEndpoints crates cfg v comps))) Runs.Free
      ⟨⟨⟨w, account⟩, []⟩, []⟩ f) : f.now.Backed crates comps ∧ Linked f := by
  have hnew (n : Nat) (r : WechatRequest) : ([] : List WechatRequest)[n]? ≠ some r := by simp
  refine h.invariant (I := fun f => f.now.Backed crates comps ∧ Linked f) ⟨?_, ?_⟩ ?_
  · exact backed_start hnone huntaken
  · refine ⟨h0.sound, h0.witnessed hcaches, ?_, fun n r _ _ _ hget => absurd hget (hnew n r),
      fun n _ _ _ _ hget => absurd hget (hnew n _)⟩
    intro c call hc
    rw [h0.calls] at hc
    cases hc
  · intro f l f' hf _ hstep
    refine ⟨?_, hf.2.step hstep⟩
    obtain ⟨s', hs', rfl⟩ := Watched.next_some hstep
    exact hf.1.step hs'

/-- **Where a session comes from.** In every run of the callback, the logins and the rest of the
server, with WeChat configured: every call that a login has made belongs to a request that has
presented the code of one captcha and consumed one. Both have been stored for a signed message
of one openid with a keyword, and the user's row has been bound to that openid; what another
login has consumed goes back to another message. A session is answered for that user only, with
a role and a token version that the row has had. -/
theorem sessions_from_messages (crates : CallbackCrates) (cfg : Settings) (v : Validator)
    (comps : WechatComponents) (w : World) (h0 : w.Initial) (hcaches : w.CachesRows)
    (account : Wechat) (hnone : ∀ openid, account.captcha openid = none)
    (huntaken : ∀ c, account.takenBy c = none) (f : Watched WechatState)
    (h : Runs.Reaches (Watched.next (Threads.step (wechatEndpoints crates cfg v comps))) Runs.Free
      ⟨⟨⟨w, account⟩, []⟩, []⟩ f) :
    (∀ (c : CallId) call, f.now.shared.world.calls[c]? = some call → call.isSignIn = true →
      ∃ (n : Nat) (r : WechatRequest) (endpoint : CaptchaEndpoint) (accepted : AcceptedCaptcha),
        f.now.threads[n]? = some r ∧ r.made = some (endpoint, accepted, c)) ∧
    (∀ (n : Nat) r endpoint accepted c, f.now.threads[n]? = some r →
      r.made = some (endpoint, accepted, c) →
        eqIgnoreAsciiCase accepted.stored.code endpoint.code = true ∧
        accepted.stored.openid = accepted.openid ∧ accepted.taken.openid = accepted.openid ∧
        f.now.Sent crates comps accepted.stored ∧ f.now.Sent crates comps accepted.taken ∧
        (∃ a ∈ f.states, a.shared.world.Bound accepted.userId accepted.openid) ∧
        ∀ (n' : Nat) r' endpoint' accepted' c', f.now.threads[n']? = some r' →
          r'.made = some (endpoint', accepted', c') → n' ≠ n →
            accepted'.taken.issuedBy ≠ accepted.taken.issuedBy) ∧
    ∀ (n : Nat) endpoint accepted c session,
      f.now.threads[n]? = some (.signIn endpoint (.answered accepted c (.ok session))) →
        session.token.sub = accepted.userId ∧
          ∃ a ∈ f.states, a.shared.world.HasRow session.token.identity := by
  obtain ⟨hbacked, hlinked⟩ := backed_linked_reached h0 hcaches hnone huntaken h
  have hsaw : ∀ {P : World → Prop}, World.Saw (worlds f) P →
      ∃ a ∈ f.states, P a.shared.world := by
    intro P hP
    obtain ⟨a, ha, hP⟩ := hP
    obtain ⟨b, hb, rfl⟩ := List.mem_map.mp (show a ∈ f.states.map (·.shared.world) from ha)
    exact ⟨b, hb, hP⟩
  have hheld : ∀ (n : Nat) r endpoint accepted c, f.now.threads[n]? = some r →
      r.made = some (endpoint, accepted, c) → r.presented = endpoint.code ∧
        r.openid = some accepted.openid ∧ r.matched = some accepted.stored ∧
        r.taken = some accepted.taken ∧ r.seen = [accepted.stored, accepted.taken] := by
    intro n r endpoint accepted c hget hr
    cases r with
    | callback => cases hr
    | signIn endpoint' phase =>
      cases phase with
      | waiting | answered =>
        cases hr
        exact ⟨rfl, rfl, rfl, rfl, rfl⟩
      | _ => cases hr
  refine ⟨hlinked.calls, ?_, ?_⟩
  · intro n r endpoint accepted c hget hr
    obtain ⟨hpresented, hopenid, hmatched, htaken, hseen⟩ := hheld n r endpoint accepted c hget hr
    have hstored := hbacked.seen n r accepted.stored hget (by simp [hseen])
    have hconsumed := hbacked.seen n r accepted.taken hget (by simp [hseen])
    rw [hopenid] at hstored hconsumed
    refine ⟨?_, (Option.some.inj hstored.1).symm, (Option.some.inj hconsumed.1).symm, hstored.2,
      hconsumed.2, hsaw (hlinked.made n r endpoint accepted c hget hr).2, ?_⟩
    · rw [← hpresented]
      exact hbacked.matched n r accepted.stored hget hmatched
    · intro n' r' endpoint' accepted' c' hget' hr' hne hsame
      obtain ⟨-, -, -, htaken', hseen'⟩ := hheld n' r' endpoint' accepted' c' hget' hr'
      have hsent' := (hbacked.seen n' r' accepted'.taken hget' (by simp [hseen'])).2
      have heq := hsent'.eq_of_issuedBy hconsumed.2 hsame
      have hown := hbacked.own n r accepted.taken hget htaken
      have hown' := hbacked.own n' r' accepted'.taken hget' htaken'
      rw [heq, hown] at hown'
      exact hne (Option.some.inj hown').symm
  · intro n endpoint accepted c session hget
    obtain ⟨hsub, hrow⟩ := hlinked.answered n endpoint accepted c session hget
    exact ⟨hsub, hsaw hrow⟩

/-! ## Ada asks for a code and signs in -/

def adaDigest : List UInt8 :=
  [191, 55, 231, 79, 198, 28, 229, 151, 76, 229, 140, 104, 229, 81, 48, 183, 155, 37, 120, 185]

def adaXml : String :=
  "<xml><ToUserName>gh_test</ToUserName><FromUserName>oAda</FromUserName>" ++
    "<CreateTime>1700000000</CreateTime><MsgType>text</MsgType><Content>Login</Content></xml>"

/-- SHA-1 and the deserializer at what the run below gives them. -/
def adaCrates : CallbackCrates where
  sha1 bytes := if bytes = AesCrypto.utf8 "1700000000noncetoken".toList then adaDigest else []
  message xml :=
    if xml = adaXml then .ok ⟨"gh_test", "oAda", "text", some "Login"⟩ else .error "missing field"
  encrypt _ := .ok none
  safeMode := none
  alphabet := .common

def adaComps : WechatComponents where
  config := ⟨"token", none, .plain⟩

def adaValidator : Validator := ⟨fun _ => true, fun _ => ""⟩

def adaPost : CallbackPost where
  query := .ok [("signature", "bf37e74fc61ce5974ce58c68e55130b79b2578b9"),
    ("timestamp", "1700000000"), ("nonce", "nonce")]
  body := .ok adaXml
  drawn := "QWERT"

def adaBound : World :=
  .ofRows [{ UserModel.registered 1 "ada@example.com" "Passw0rd!" "user" with
    wxOpenid := some "oAda" }] [] 1

/-- The message, the three commands of `generate`, and a login with the code. -/
def adaSignsIn : List (Threads.Label WechatRequest WechatInput ServerMove) :=
  [.begin (.callback adaPost .received), .step 0 {}, .step 0 {}, .step 0 {}, .step 0 {},
    .begin (.signIn (.wxLogin "QWERT") .received), .step 1 {}, .step 1 {}, .step 1 {}, .step 1 {},
    .step 1 {}, .surround (.server (.exec 0 {})), .step 1 {}]

def adaRun : Option (Watched WechatState) :=
  Runs.run (Watched.next (Threads.step (wechatEndpoints adaCrates .plain adaValidator adaComps)))
    Runs.Free ⟨⟨⟨adaBound, ⟨⟨0, fun _ => none⟩, fun _ => none⟩⟩, []⟩, []⟩ adaSignsIn

theorem adaRun_runs : adaRun.isSome = true := by decide +kernel

def adaAccepted : AcceptedCaptcha where
  openid := "oAda"
  stored := ⟨"QWERT", "oAda", 0⟩
  taken := ⟨"QWERT", "oAda", 0⟩
  userId := 1

set_option maxRecDepth 20000 in
theorem adaRun_answered : (adaRun.get adaRun_runs).now.threads[1]? =
    some (.signIn (.wxLogin "QWERT") (.answered adaAccepted 0
      (.ok ⟨generateToken 0 1 "user" 3600 false 1, 3600⟩))) := by
  rfl

theorem sessions_from_messages_ada :
    (adaRun.get adaRun_runs).now.Sent adaCrates adaComps ⟨"QWERT", "oAda", 0⟩ ∧
      (∃ a ∈ (adaRun.get adaRun_runs).states, a.shared.world.Bound 1 "oAda") ∧
      ∃ a ∈ (adaRun.get adaRun_runs).states, a.shared.world.HasRow (1, "user", 1) := by
  have hcaches : adaBound.CachesRows := by
    intro facet u x hx
    cases facet <;> cases hx
  have hproper : ∀ m ∈ [{ UserModel.registered 1 "ada@example.com" "Passw0rd!" "user" with
      wxOpenid := some "oAda" }], UserModel.Proper 1 m := by
    intro m hm
    cases List.mem_singleton.mp hm
    exact ⟨Int64.le_refl 0, fun kind => by cases kind <;> exact Int.le_refl 0,
      fun kind h hh => by cases kind <;> cases hh⟩
  obtain ⟨-, hmade, hanswered⟩ := sessions_from_messages adaCrates .plain adaValidator adaComps
    adaBound (World.initial_ofRows hproper) hcaches ⟨⟨0, fun _ => none⟩, fun _ => none⟩
    (fun _ => rfl) (fun _ => rfl) (adaRun.get adaRun_runs) (Runs.reaches_run_get adaRun_runs)
  obtain ⟨-, -, -, -, htaken, hbound, -⟩ := hmade 1 _ _ adaAccepted 0 adaRun_answered rfl
  exact ⟨htaken, hbound, (hanswered 1 _ _ _ _ adaRun_answered).2⟩

end WechatState

end Webshelf
