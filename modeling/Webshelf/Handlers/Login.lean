import Webshelf.Server.Alone
import Webshelf.Sessions.Hashes
import Webshelf.Wechat.Index

/-!
# What a failed login leaves behind

`login_inner` verifies the captcha, then logs in with the password, and only
then compares the two users and reads the clock once more. By that time a
remember-me login has committed: it has deleted the refresh tokens of the user
and stored a new one.
-/

namespace Webshelf

/-- `impl From<WechatError> for ApiError`. -/
def ApiError.ofWechat : WechatError → ApiError
  | .captchaNotFound | .captchaMismatch | .tooManyAttempts => invalidCaptcha
  | .cooldownActive => .badRequest "Please wait before requesting a new code"
  | .userNotBound => .badRequest "WeChat account is not bound to any user"
  | .internal => .internal "An unexpected error occurred"

/-- `LoginRequestBody`. -/
structure LoginRequestBody where
  email : String
  password : String
  remember : Bool := false
  captchaCode : Option String := none

/-- `payload.validate()`. -/
def LoginRequestBody.validate (v : Validator) (body : LoginRequestBody) : Except ApiError Unit :=
  match v.validate (v.emailError body.email ++
    fieldError "password" "password is required" (decide (1 ≤ body.password.length))) with
  | .error e => .error (.validation e)
  | .ok () => .ok ()

/-- What a login returns with: the JWT, and the `webshelf_exp` of its cookie. -/
structure LoginSession where
  token : JwtClaims
  jwtExpiresAtUnix : Int

/-- The database and the Redis keys of the official account. -/
structure LoginState where
  world : World
  wechat : Wechat

/-- What a login meets on its way. -/
structure LoginInputs where
  /-- How the GET of the index ends, and then the commands of `verify_for_openid`. -/
  redis : Nat → RedisOutcome := fun _ => .done
  /-- `find_user_by_openid` fails. -/
  lookupFails : Bool := false
  /-- The inputs of the statements of `AuthService::login`. -/
  statements : List Input := []
  /-- The clock at the end, from the Unix epoch. -/
  clock : Time := 0

namespace Wechat

/-- A call on its own, its commands ending one after the other as `outcome` says. -/
def drive {π : Type} (next : Wechat → π → RedisOutcome → Option (Wechat × π)) :
    Nat → (Nat → RedisOutcome) → Wechat → π → Wechat × π
  | 0, _, s, p => (s, p)
  | fuel + 1, outcome, s, p => match next s p (outcome 0) with
    | none => (s, p)
    | some (a, q) => drive next fuel (fun i => outcome (i + 1)) a q

end Wechat

/-- `DbUserBindingStore::find_user_by_openid`, before call `c` is made. -/
def Db.findUserByOpenid (db : Db) (c : CallId) (openid : String) : Option UserId :=
  (db.findUser c fun m => m.wxOpenid == some openid).map UserModel.id

/-- `verify_and_login` in the middle of a login. -/
def LoginState.verifyAndLogin (cfg : LoginConfig) (x : LoginInputs) (openid code : String)
    (s : LoginState) : Wechat × Except WechatError VerifiedLogin :=
  let c := s.world.calls.length
  match Wechat.drive (verifyForOpenid cfg c openid code) 7 (fun i => x.redis (i + 1)) s.wechat
    .peek with
  | (a, .accepted _ _) => (a,
      if x.lookupFails then .error .internal
      else match s.world.db.findUserByOpenid c openid with
        | none => .error .userNotBound
        | some userId => .ok ⟨openid, userId⟩)
  | (a, .rejected _ e) | (a, .failed e) => (a, .error e)
  | (a, _) => (a, .error .internal)

/-- The captcha verification of `login_inner`: the user the captcha is bound to,
and nobody where WeChat is off. -/
def LoginState.captchaUserId (wechat : Option LoginConfig) (x : LoginInputs)
    (body : LoginRequestBody) (s : LoginState) : Wechat × Except ApiError (Option UserId) :=
  match wechat with
  | none => (s.wechat, .ok none)
  | some cfg =>
    let captchaCode := body.captchaCode.getD ""
    if captchaCode.isEmpty then (s.wechat, .error invalidCaptcha)
    else match (x.redis 0).answer (s.wechat.redis.get (.code captchaCode)) (.ok none)
        WechatError.internal with
      | .error e => (s.wechat, .error (.ofWechat e))
      | .ok none => (s.wechat, .error invalidCaptcha)
      | .ok (some openid) => match s.verifyAndLogin cfg x openid captchaCode with
        | (a, .error _) => (a, .error invalidCaptcha)
        | (a, .ok verified) => (a, .ok (some verified.userId))

/-- `unix_timestamp_from_now`; a clock before the epoch is an error. -/
def unixTimestampFromNow (clock : Time) (secondsFromNow : Int) : Except ApiError Int :=
  if clock < 0 then .error (.internal "An unexpected error occurred")
  else .ok (clock / 1000000 + secondsFromNow)

/-- What `login_inner` does with the result of the password login. -/
def finishLogin (cfg : Settings) (captcha : Option UserId) (body : LoginRequestBody)
    (clock : Time) : Except AuthError JwtClaims → Except ApiError LoginSession
  | .error e => .error (.ofAuth e)
  | .ok token =>
    if captcha.any fun u => decide (u ≠ token.sub) then .error invalidCaptcha
    else
      let jwtMaxAge :=
        if body.remember then cfg.jwtRememberExpirySeconds else cfg.jwtExpirySeconds
      match unixTimestampFromNow clock jwtMaxAge with
      | .error e => .error e
      | .ok expiresAt => .ok ⟨token, expiresAt⟩

/-- The `LoginRequest` that `login_inner` makes of its body. -/
def LoginRequestBody.request (cfg : Settings) (body : LoginRequestBody) : LoginRequest :=
  ⟨cfg.toLowercase body.email, body.password, body.remember⟩

/-- `login_inner` with nothing else going on, and the statements of its password
login. `none` where one of them waits for a lock, or the inputs run out. -/
def loginInner (cfg : Settings) (v : Validator) (wechat : Option LoginConfig) (x : LoginInputs)
    (body : LoginRequestBody) (s : LoginState) :
    Option (LoginState × List (Call × Input) × Except ApiError LoginSession) :=
  match body.validate v with
  | .error e => some (s, [], .error e)
  | .ok () => match s.captchaUserId wechat x body with
    | (a, .error e) => some ({ s with wechat := a }, [], .error e)
    | (a, .ok captcha) =>
      (s.world.callAlone cfg (.login (.find (body.request cfg))) x.statements).bind
        fun (w, issued) => match w.calls[s.world.calls.length]? with
          | some (.login (.done r)) => some (⟨w, a⟩, issued, finishLogin cfg captcha body x.clock r)
          | _ => none

/-! ## The captcha -/

theorem RedisOutcome.answer_some {α ε : Type} {a : Option α} {b : α} {e : ε}
    {outcome : RedisOutcome} :
    outcome.answer a (.ok none) e = .ok (some b) ↔ outcome = .done ∧ a = some b := by
  cases outcome <;> simp [RedisOutcome.answer]

/-- The captcha of a login is right and the commands about it go through: it is
bound to the user, or to nobody where WeChat is off. -/
inductive LoginState.CaptchaVerified (x : LoginInputs) (body : LoginRequestBody)
    (s : LoginState) : Option LoginConfig → Option UserId → Prop
  | off : CaptchaVerified x body s none none
  | bound {cfg : LoginConfig} {code openid : String} {stored : Captcha} {userId : UserId}
      (given : body.captchaCode.getD "" = code) (nonempty : code.isEmpty = false)
      (index : s.wechat.redis.get (.code code) = some openid)
      (captcha : s.wechat.captcha openid = some stored)
      (right : eqIgnoreAsciiCase stored.code code = true)
      (commands : ∀ i < 3, x.redis i = .done)
      (reset : x.redis 3 = .done ∨ x.redis 3 = .unavailable) (lookup : x.lookupFails = false)
      (user : s.world.db.findUserByOpenid s.world.calls.length openid = some userId) :
      CaptchaVerified x body s (some cfg) (some userId)

/-- The call has met a wrong code, or an error. -/
def VerifyForOpenid.fails : VerifyForOpenid → Bool
  | .peek | .consume _ | .reset _ _ | .accepted _ _ => false
  | _ => true

namespace Wechat

variable {cfg : LoginConfig} {n fuel : Nat} {s a : Wechat} {openid code : String}
  {p q : VerifyForOpenid} {outcome : Nat → RedisOutcome} {o : RedisOutcome}

theorem drive_some {π : Type} {next : Wechat → π → RedisOutcome → Option (Wechat × π)} {p q : π}
    (h : next s p (outcome 0) = some (a, q)) :
    drive next (fuel + 1) outcome s p = drive next fuel (fun i => outcome (i + 1)) a q := by
  rw [drive, h]

theorem drive_none {π : Type} {next : Wechat → π → RedisOutcome → Option (Wechat × π)} {p : π}
    (h : ∀ o, next s p o = none) : drive next fuel outcome s p = (s, p) := by
  cases fuel with
  | zero => rfl
  | succ fuel => rw [drive, h]

theorem fails_next (hp : p.fails = true)
    (h : verifyForOpenid cfg n openid code s p o = some (a, q)) : q.fails = true := by
  cases p <;> cases hp <;> cases h
  all_goals
    (repeat' split) <;> rfl

/-- A call that has met a wrong code or an error does not accept. -/
theorem drive_fails (hp : p.fails = true) :
    (drive (verifyForOpenid cfg n openid code) fuel outcome s p).2.fails = true := by
  induction fuel generalizing outcome s p with
  | zero => exact hp
  | succ fuel ih =>
    rw [drive]
    split
    · exact hp
    · rename_i h
      exact ih (fails_next hp h)

/-- A call that accepts in the end goes on without an error. -/
theorem accepted_next {stored taken : Captcha}
    (h : (drive (verifyForOpenid cfg n openid code) (fuel + 1) outcome s p).2 =
      .accepted stored taken) (hp : p ≠ .accepted stored taken) :
    ∃ a q, verifyForOpenid cfg n openid code s p (outcome 0) = some (a, q) ∧ q.fails = false ∧
      (drive (verifyForOpenid cfg n openid code) fuel (fun i => outcome (i + 1)) a q).2 =
        .accepted stored taken := by
  rw [drive] at h
  split at h
  · exact absurd h hp
  · rename_i a q hnext
    refine ⟨a, q, hnext, ?_, h⟩
    by_contra hq
    have hfails : (drive (verifyForOpenid cfg n openid code) fuel (fun i => outcome (i + 1))
        a q).2.fails = true :=
      drive_fails (by simpa using hq)
    rw [h] at hfails
    cases hfails

theorem peek_accepts (h : verifyForOpenid cfg n openid code s .peek o = some (a, q))
    (hq : q.fails = false) : a = s ∧ o = .done ∧ ∃ stored, q = .consume stored ∧
      s.captcha openid = some stored ∧ eqIgnoreAsciiCase stored.code code = true := by
  simp only [verifyForOpenid, Option.some.injEq, Prod.mk.injEq] at h
  obtain ⟨rfl, rfl⟩ := h
  split at hq
  · cases hq
  · cases hq
  · rename_i stored hpeek
    obtain ⟨ho, hread⟩ := RedisOutcome.answer_some.mp hpeek
    split at hq
    · rename_i right
      exact ⟨rfl, ho, stored, if_pos right, hread, right⟩
    · cases hq

theorem consume_accepts {stored : Captcha}
    (h : verifyForOpenid cfg n openid code s (.consume stored) o = some (a, q))
    (hq : q.fails = false) : o = .done ∧ ∃ taken, q = .reset stored taken := by
  simp only [verifyForOpenid, Option.some.injEq, Prod.mk.injEq] at h
  obtain ⟨rfl, rfl⟩ := h
  split at hq
  · cases hq
  · cases hq
  · rename_i taken hconsume
    exact ⟨(RedisOutcome.answer_some.mp hconsume).1, taken, rfl⟩

theorem reset_accepts {stored taken : Captcha}
    (h : verifyForOpenid cfg n openid code s (.reset stored taken) o = some (a, q))
    (hq : q.fails = false) : o = .done ∨ o = .unavailable := by
  cases o with
  | done => exact .inl rfl
  | unavailable => exact .inr rfl
  | failed | lost =>
    cases h
    cases hq

/-- A call accepts a code if it reads a captcha with it and takes one away. -/
theorem drive_accepted :
    (∃ stored taken, (drive (verifyForOpenid cfg n openid code) 7 outcome s .peek).2 =
      .accepted stored taken) ↔
    (∃ stored, s.captcha openid = some stored ∧ eqIgnoreAsciiCase stored.code code = true) ∧
      outcome 0 = .done ∧ outcome 1 = .done ∧ (outcome 2 = .done ∨ outcome 2 = .unavailable) := by
  constructor
  · rintro ⟨_, _, h⟩
    obtain ⟨a, q, hpeek, hq, h⟩ := accepted_next h nofun
    obtain ⟨rfl, h0, stored, rfl, hread, right⟩ := peek_accepts hpeek hq
    obtain ⟨a₁, q₁, hconsume, hq₁, h⟩ := accepted_next h nofun
    obtain ⟨h1, taken, rfl⟩ := consume_accepts hconsume hq₁
    obtain ⟨a₂, q₂, hreset, hq₂, -⟩ := accepted_next h nofun
    exact ⟨⟨stored, hread, right⟩, h0, h1, reset_accepts hreset hq₂⟩
  · rintro ⟨⟨stored, hread, right⟩, h0, h1, h2⟩
    have hpeek : verifyForOpenid cfg n openid code s .peek (outcome 0) =
        some (s, .consume stored) := by
      simp [verifyForOpenid, RedisOutcome.answer, h0, hread, right]
    have hconsume : verifyForOpenid cfg n openid code s (.consume stored) (outcome 1) =
        some (s.consume n openid, .reset stored stored) := by
      simp [verifyForOpenid, RedisOutcome.answer, RedisOutcome.runs, h1, hread]
    refine ⟨stored, stored, ?_⟩
    rw [drive_some hpeek, drive_some hconsume, drive_some rfl, drive_none fun _ => ?_]
    · rcases h2 with h2 | h2 <;> simp [h2, RedisOutcome.answer]
    · rcases h2 with h2 | h2 <;> simp [h2, RedisOutcome.answer, verifyForOpenid]

end Wechat

namespace LoginState

variable {cfg : LoginConfig} {wechat : Option LoginConfig} {x : LoginInputs}
  {body : LoginRequestBody} {s : LoginState} {openid code : String} {userId : UserId}
  {captcha : Option UserId}

theorem verifyAndLogin_ok :
    (∃ verified, (s.verifyAndLogin cfg x openid code).2 = .ok verified ∧
      verified.userId = userId) ↔
    (∃ stored taken, (Wechat.drive (verifyForOpenid cfg s.world.calls.length openid code) 7
      (fun i => x.redis (i + 1)) s.wechat .peek).2 = .accepted stored taken) ∧
    x.lookupFails = false ∧
    s.world.db.findUserByOpenid s.world.calls.length openid = some userId := by
  simp only [verifyAndLogin]
  constructor
  · rintro ⟨verified, h, rfl⟩
    split at h
    · rename_i stored taken hdrive
      refine ⟨⟨stored, taken, by rw [hdrive]⟩, ?_⟩
      simp only at h
      split at h
      · cases h
      · rename_i hlookup
        split at h
        · cases h
        · rename_i u hbound
          cases h
          exact ⟨by simpa using hlookup, hbound⟩
    all_goals cases h
  · rintro ⟨⟨stored, taken, hdrive⟩, hlookup, hbound⟩
    generalize Wechat.drive (verifyForOpenid cfg s.world.calls.length openid code) 7
      (fun i => x.redis (i + 1)) s.wechat .peek = r at hdrive
    obtain ⟨a, q⟩ := r
    cases hdrive
    exact ⟨⟨openid, userId⟩, by simp [hlookup, hbound], rfl⟩

theorem captchaUserId_ok : (s.captchaUserId wechat x body).2 = .ok captcha ↔
    s.CaptchaVerified x body wechat captcha := by
  constructor
  · intro h
    cases wechat with
    | none =>
      cases h
      exact .off
    | some cfg =>
      simp only [captchaUserId] at h
      split at h
      · cases h
      · rename_i hne
        split at h
        · cases h
        · cases h
        · rename_i openid hindex
          obtain ⟨h0, hindex⟩ := RedisOutcome.answer_some.mp hindex
          split at h
          · cases h
          · rename_i a verified hverified
            cases h
            obtain ⟨haccepted, hlookup, hbound⟩ := verifyAndLogin_ok.mp
              ⟨verified, congrArg Prod.snd hverified, rfl⟩
            obtain ⟨⟨stored, hread, right⟩, h1, h2, h3⟩ := Wechat.drive_accepted.mp haccepted
            refine .bound rfl (by simpa using hne) hindex hread right (fun i hi => ?_) h3
              hlookup hbound
            match i, hi with
            | 0, _ => exact h0
            | 1, _ => exact h1
            | 2, _ => exact h2
  · rintro (_ | ⟨given, nonempty, index, read, right, commands, reset, lookup, user⟩)
    · rfl
    · subst given
      rename_i cfg openid stored userId
      obtain ⟨verified, hverified, rfl⟩ := verifyAndLogin_ok.mpr
        ⟨Wechat.drive_accepted.mpr ⟨⟨stored, read, right⟩, commands 1 (by decide),
          commands 2 (by decide), reset⟩, lookup, user⟩
      have hindex : (x.redis 0).answer (s.wechat.redis.get (.code (body.captchaCode.getD "")))
          (.ok none) WechatError.internal = .ok (some openid) :=
        RedisOutcome.answer_some.mpr ⟨commands 0 (by decide), index⟩
      simp only [captchaUserId, nonempty, Bool.false_eq_true, if_false, hindex]
      generalize s.verifyAndLogin cfg x openid (body.captchaCode.getD "") = r at hverified
      obtain ⟨a, _⟩ := r
      cases hverified
      rfl

end LoginState

/-! ## The password login -/

/-- The user whose address and password a login presents, if the address is verified. -/
def Db.authenticated (cfg : Settings) (db : Db) (c : CallId) (request : LoginRequest) :
    Option UserModel :=
  (db.findUser c fun m => m.email == cfg.toLowercase request.email).filter fun m =>
    Argon2.verify request.password m.passwordHash && m.emailVerified

/-- A remember-me login of `user` that has not committed yet. -/
structure Granted (cfg : Settings) (c : CallId) (request : LoginRequest) (user : UserModel)
    (token : JwtClaims) (db₀ db : Db) : Prop where
  found : db₀.authenticated cfg c request = some user
  remember : request.remember = true
  sub : token.sub = user.id
  row : (db.users user.id).committed ≠ none
  tokens : db₀.SameTokens db

/-- A login that started from `db₀` and none of whose statements has failed so far. -/
def LoggingIn (cfg : Settings) (c : CallId) (request : LoginRequest) (db₀ db : Db) : Call → Prop
  | .login (.find q) => q = request ∧ db = db₀
  | .login (.revoke user token _ _) | .login (.store user token _ _) =>
    Granted cfg c request user token db₀ db
  | .login (.revoking user token _ _ waiting) =>
    Granted cfg c request user token db₀ db ∧ db.Waits c waiting
  | .login (.commit user token stored) => Granted cfg c request user token db₀ db ∧
    ∃ t, db.tokens.get stored = some (t, .inserted c)
  | .login (.done (.ok token)) => ∃ user, db₀.authenticated cfg c request = some user ∧
    token.sub = user.id ∧ (db₀.SameTokens db ↔ request.remember = false)
  | .login (.done (.error _)) => db₀.authenticated cfg c request = none ∧ db₀.SameTokens db
  | _ => False

section
variable {cfg : Settings} {c : CallId} {request : LoginRequest} {db₀ db db' : Db} {w : World}
  {q : Login} {s : Stmt} {env : Env} {k : Except DbErr s.Reply → Call}
  {reply : Except DbErr s.Reply} {user : UserModel} {token : JwtClaims}

theorem LoggingIn.sameTokens (h : LoggingIn cfg c request db₀ db (.login q))
    (running : (Call.login q).finished = false) : db₀.SameTokens db := by
  cases q with
  | find =>
    rw [h.2]
    exact fun _ => rfl
  | revoke | store => exact h.tokens
  | revoking | commit => exact h.1.tokens
  | done => cases running

/-- A login returns an error after a statement that failed. -/
theorem login_failed {e : DbErr} (issues : (Call.login q).next cfg env = some ⟨s, k⟩) :
    ∃ e', k (.error e) = .login (.done (.error e')) := by
  cases q <;> cases issues
  all_goals exact ⟨_, rfl⟩

theorem not_deleteUser (issues : (Call.login q).next cfg env = some ⟨s, k⟩) (id : UserId)
    (p : UserModel → Bool) : s ≠ .deleteUser id p := by
  cases q <;> cases issues
  all_goals nofun

theorem Granted.exec (hw : w.Sound) (running : w.calls[c]? = some (.login q))
    (h : Granted cfg c request user token db₀ w.db)
    (issues : (Call.login q).next cfg env = some ⟨s, k⟩)
    (ran : w.db.exec c false s = some (db', reply)) (hc : s ≠ .commit) :
    Granted cfg c request user token db₀ db' where
  found := h.found
  remember := h.remember
  sub := h.sub
  row := by
    have hr := hw.row_step running issues ran user.id
    have hrow := h.row
    generalize (w.db.users user.id).committed = o at hr hrow
    generalize (db'.users user.id).committed = o' at hr ⊢
    cases hr with
    | same => exact hrow
    | write | commit | insert => exact Option.some_ne_none _
    | delete _ delete => cases delete
  tokens := h.tokens.exec ran (.inl hc) (not_deleteUser issues)

/-- The COMMIT of a token that is not in the table yet. -/
theorem Db.SameTokens.not_commit {i : TokenId} {t : RefreshToken} (h : db₀.SameTokens db)
    (hg : db.tokens.get i = some (t, .inserted c)) : ¬ db₀.SameTokens (db.commit c) := by
  intro hsame
  have hold : db.tokens.committed i = none := by simp [Heap.committed, hg, Heap.stored]
  have hnew : (db.commit c).tokens.committed i = some t := Heap.committed_commit_inserted hg
  rw [hsame i, ← h i, hold] at hnew
  cases hnew

theorem LoggingIn.step (hw : w.Sound) (hX : w.Hashed)
    (running : w.calls[c]? = some (.login q)) (h : LoggingIn cfg c request db₀ w.db (.login q))
    (issues : (Call.login q).next cfg env = some ⟨s, k⟩)
    (ran : w.db.exec c false s = some (db', reply)) :
    LoggingIn cfg c request db₀ db' (k reply) := by
  cases q with
  | find q =>
    obtain ⟨rfl, rfl⟩ := h
    have hselected := fun m => hw.selected (m := m) running issues ran
    cases issues
    have hsame : w.db.SameTokens w.db := fun _ => rfl
    simp only [Db.exec, Db.eval, Bool.false_eq_true, if_false, Option.map_some, Option.some.injEq,
      Prod.mk.injEq] at ran
    obtain ⟨rfl, rfl⟩ := ran
    cases hfound : w.db.findUser c fun m => m.email == cfg.toLowercase q.email with
    | none => exact ⟨by simp [Db.authenticated, hfound], hsame⟩
    | some user =>
      simp only
      split
      · rename_i hwrong
        exact ⟨by simp [Db.authenticated, hfound, hwrong], hsame⟩
      · rename_i hright
        split
        · rename_i hunverified
          exact ⟨by simp [Db.authenticated, hfound, hunverified], hsame⟩
        · rename_i hverified
          have huser : w.db.authenticated cfg c q = some user := by
            simp only [Bool.not_eq_false] at hright hverified
            simp [Db.authenticated, hfound, hright, hverified]
          split
          · rename_i hremember
            have hrow := (hselected user (by simp [Stmt.picked, hfound])).1
            exact ⟨huser, hremember, rfl, by simp [hrow], hsame⟩
          · rename_i hremember
            exact ⟨user, huser, rfl, by simp [hsame, hremember]⟩
  | revoke user token hash expiresAt =>
    have hgranted := h.exec hw running issues ran (by cases issues; simp)
    cases issues
    rcases Db.exec_cases ran with ⟨e, rfl, _⟩ | ⟨waiting, rfl, _, _⟩
    · simp [Db.exec, Db.eval] at ran
    · rcases Db.exec_deleteTokens ran with rfl | hwaits
      · exact hgranted
      · obtain ⟨i, rest, rfl⟩ := hwaits.eq_cons
        exact ⟨hgranted, hwaits⟩
  | revoking user token hash expiresAt waiting =>
    cases issues
    cases h.2.resume_fails ran
  | store user token hash expiresAt =>
    have hgranted := h.exec hw running issues ran (by cases issues; simp)
    cases issues
    obtain ⟨m, hm⟩ := Option.ne_none_iff_exists'.mp h.row
    have hseen : w.db.seen c .txn user.id = some m :=
      (hw.view_eq running fun _ _ => id).trans hm
    -- the hash is drawn for this login
    have hnew := hX.findToken_drawn running rfl
    simp only [Db.exec, Db.eval, Db.insertToken, hseen, hnew, Bool.false_eq_true, if_false,
      Option.isNone_some, Option.map_some, Option.some.injEq, Prod.mk.injEq] at ran
    obtain ⟨rfl, rfl⟩ := ran
    exact ⟨hgranted, _, Heap.insert_get_next⟩
  | commit user token stored =>
    obtain ⟨hgranted, t, hg⟩ := h
    cases issues
    simp only [Db.exec, Db.eval, Bool.false_eq_true, if_false, Option.map_some, Option.some.injEq,
      Prod.mk.injEq] at ran
    obtain ⟨rfl, rfl⟩ := ran
    have hchanged := hgranted.tokens.not_commit hg
    exact ⟨user, hgranted.found, hgranted.sub, by simp [hchanged, hgranted.remember]⟩
  | done => cases issues

/-- A login that has not met a failing statement, in any state of its run. -/
def Logging (cfg : Settings) (c : CallId) (request : LoginRequest) (db₀ : Db) (w : World)
    (call : Call) : Prop :=
  w.Sound ∧ w.Hashed ∧ ∃ q, call = .login q ∧ LoggingIn cfg c request db₀ w.db call

/-- A login that has met one. -/
def LoginStopped (db₀ : Db) (w : World) (call : Call) : Prop :=
  (∃ e, call = .login (.done (.error e))) ∧ db₀.SameTokens w.db

theorem Logging.step {before : Call} {input : Input} (h : Logging cfg c request db₀ w before)
    (running : w.calls[c]? = some before)
    (issues : before.next cfg (input.env w.ticks) = some ⟨s, k⟩)
    (ran : w.db.exec c input.fails s = some (db', reply)) :
    Logging cfg c request db₀ (w.after c before (s.applied reply) (k reply) db') (k reply) ∧
        ¬ input.fails = true ∨
      LoginStopped db₀ (w.after c before (s.applied reply) (k reply) db') (k reply) ∧
        (k reply).finished = true ∧ input.fails = true := by
  obtain ⟨hw, hX, q, rfl, h⟩ := h
  have ht := World.Transition.exec running issues ran
  cases hfails : input.fails with
  | false =>
    obtain ⟨k', -, rfl⟩ := Next.map_some issues
    rw [hfails] at ran
    exact .inl ⟨⟨hw.step ht, hX.step ht, _, rfl, h.step hw hX running issues ran⟩, nofun⟩
  | true =>
    have hsame := h.sameTokens (Call.running_of_issues issues)
    obtain ⟨e, rfl⟩ : ∃ e, reply = .error e := by
      rw [hfails] at ran
      cases ran
      exact ⟨_, rfl⟩
    obtain ⟨e', he'⟩ := login_failed (e := e) issues
    exact .inr ⟨⟨⟨e', he'⟩, hsame.exec ran (.inr ⟨e, rfl⟩) (not_deleteUser issues)⟩,
      by rw [he']; rfl, rfl⟩

/-- A login on its own comes to the end its request has if none of its statements
fails, and else returns an error with the tokens as they were. -/
theorem login_alone {w' : World} {inputs : List Input} {issued : List (Call × Input)}
    (hw : w.Sound) (hX : w.Hashed)
    (run : w.callAlone cfg (.login (.find request)) inputs = some (w', issued)) :
    ∃ r, w'.calls[w.calls.length]? = some (.login (.done r)) ∧
      ((∀ i ∈ issued, ¬ i.2.fails = true) ∧
          LoggingIn cfg w.calls.length request w.db w'.db (.login (.done r)) ∨
        (∃ i ∈ issued, i.2.fails = true) ∧ (∃ e, r = .error e) ∧ w.db.SameTokens w'.db) := by
  have hinvoke : World.Transition cfg w (.invoke (.login (.find request)))
      (w.join (.login (.find request))) :=
    .invoke rfl
  have running : (w.join (.login (.find request))).calls[w.calls.length]? =
      some (.login (.find request)) := by
    simp [World.join]
  have hstart : Logging cfg w.calls.length request w.db (w.join (.login (.find request)))
      (.login (.find request)) :=
    ⟨hw.step hinvoke, hX.step hinvoke, _, rfl, rfl, rfl⟩
  obtain ⟨call, hcall, hf, ⟨⟨-, -, q, rfl, h⟩, hall⟩ | ⟨⟨⟨e, rfl⟩, hsame⟩, hany⟩⟩ :=
    World.alone_cases (fun _ _ _ _ _ _ _ h running issues ran => h.step running issues ran)
      running hstart run
  · cases q with
    | done r => exact ⟨r, hcall, .inl ⟨hall, h⟩⟩
    | _ => cases hf
  · exact ⟨_, hcall, .inr ⟨hany, ⟨e, rfl⟩, hsame⟩⟩

end

/-! ## The whole login -/

/-- A remember-me login that goes through, and whose captcha is bound to another
user than its password is of, or whose clock has gone back behind the epoch. -/
structure FailsCommitted (cfg : Settings) (v : Validator) (wechat : Option LoginConfig)
    (x : LoginInputs) (body : LoginRequestBody) (s : LoginState) (issued : List (Call × Input)) :
    Prop where
  valid : body.validate v = .ok ()
  remember : body.remember = true
  through : ∀ i ∈ issued, ¬ i.2.fails = true
  late : ∃ captcha user, s.CaptchaVerified x body wechat captcha ∧
    s.world.db.authenticated cfg s.world.calls.length (body.request cfg) = some user ∧
    ((∃ u, captcha = some u ∧ u ≠ user.id) ∨ x.clock < 0)

section
variable {cfg : Settings} {v : Validator} {wechat : Option LoginConfig} {x : LoginInputs}
  {body : LoginRequestBody} {s s' : LoginState} {issued : List (Call × Input)}
  {r : Except ApiError LoginSession} {captcha : Option UserId} {token : JwtClaims} {clock : Time}

theorem finishLogin_error : (∃ e, finishLogin cfg captcha body clock (.ok token) = .error e) ↔
    (∃ u, captcha = some u ∧ u ≠ token.sub) ∨ clock < 0 := by
  cases captcha with
  | none =>
    by_cases hclock : clock < 0 <;> simp [finishLogin, unixTimestampFromNow, hclock]
  | some u =>
    by_cases hu : u = token.sub <;> by_cases hclock : clock < 0 <;>
      simp [finishLogin, unixTimestampFromNow, hclock, hu]

/-- A failed login leaves the refresh tokens as they were, unless it fails after
its password login has committed. -/
theorem failed_login_keeps_tokens {w₀ : World} (h0 : w₀.Initial) (ht : w₀.HashedTokens)
    (hr : Runs.Reaches (World.step cfg) Runs.Free w₀ s.world)
    (run : loginInner cfg v wechat x body s = some (s', issued, r)) :
    ((∃ e, r = .error e) → s.world.db.SameTokens s'.world.db) ↔
      ¬ FailsCommitted cfg v wechat x body s issued := by
  obtain ⟨hw, hX⟩ : s.world.Sound ∧ s.world.Hashed :=
    hr.invariant (I := fun w : World => w.Sound ∧ w.Hashed) ⟨h0.sound, h0.hashed ht⟩
      fun _ _ _ ⟨hw, hX⟩ _ hstep =>
        have ht := World.step_transition hstep
        ⟨hw.step ht, hX.step ht⟩
  have hrefl : s.world.db.SameTokens s.world.db := fun _ => rfl
  unfold loginInner at run
  split at run
  · rename_i e hinvalid
    cases run
    refine ⟨fun _ hlate => ?_, fun _ _ => hrefl⟩
    rw [hlate.valid] at hinvalid
    cases hinvalid
  · rename_i hvalid
    split at run
    · rename_i a e hcaptcha
      cases run
      refine ⟨fun _ hlate => ?_, fun _ _ => hrefl⟩
      obtain ⟨captcha, _, hverified, _⟩ := hlate.late
      rw [← LoginState.captchaUserId_ok, hcaptcha] at hverified
      cases hverified
    · rename_i a captcha hcaptcha
      have hverified := LoginState.captchaUserId_ok.mp (congrArg Prod.snd hcaptcha)
      obtain ⟨⟨w, issued'⟩, halone, run⟩ := Option.bind_eq_some_iff.mp run
      obtain ⟨r₁, hcall, hend⟩ := login_alone hw hX halone
      simp only [hcall] at run
      cases run
      rcases hend with ⟨hall, h⟩ | ⟨⟨i, hi, hfails⟩, ⟨e, rfl⟩, hsame⟩
      · cases r₁ with
        | error e =>
          refine ⟨fun _ hlate => ?_, fun _ _ => h.2⟩
          obtain ⟨_, user, _, huser, _⟩ := hlate.late
          rw [h.1] at huser
          cases huser
        | ok token =>
          obtain ⟨user, huser, hsub, hsame⟩ := h
          change (_ → s.world.db.SameTokens w.db) ↔ _
          rw [finishLogin_error, hsub, hsame]
          constructor
          · rintro hkept ⟨-, remember, -, captcha', user', hverified', huser', hlate⟩
            rw [← LoginState.captchaUserId_ok, hcaptcha] at hverified'
            cases hverified'
            rw [huser] at huser'
            cases huser'
            exact absurd (remember.symm.trans (hkept hlate)) nofun
          · intro hnot hlate
            by_contra hremember
            have remember : body.remember = true := Bool.of_not_eq_false hremember
            exact hnot ⟨hvalid, remember, hall, captcha, user, hverified, huser, hlate⟩
      · exact ⟨fun _ hlate => hlate.through i hi hfails, fun _ _ => hsame⟩

end

namespace LoginState

/-- Two accounts, Ada's with an openid whose captcha is out, and Bob's with a session. -/
def captchaOut : LoginState where
  world := .ofRows [{ UserModel.registered 1 "ada@example.com" "Passw0rd!" "user" with
      wxOpenid := some "ada" }, .registered 2 "bob@example.com" "Secret-1" "user"]
    [⟨2, 0, seconds 3600, 0⟩] 1
  wechat := WechatAccount.noKeys.wechat.issue {} ⟨"QWERT", "ada", 0⟩

theorem initial_captchaOut : captchaOut.world.Initial := by
  refine World.initial_ofRows ?_
  intro m hm
  rcases List.mem_cons.mp hm with rfl | hm
  · exact ⟨Int64.le_refl 0, fun kind => by cases kind <;> exact Int.le_refl 0,
      fun kind h hh => by cases kind <;> cases hh⟩
  · rw [List.mem_singleton.mp hm]
    exact UserModel.proper_registered

theorem hashedTokens_captchaOut : captchaOut.world.HashedTokens :=
  World.hashedTokens_ofRows Nat.zero_lt_one

def Validator.lax : Validator := ⟨fun _ => true, fun _ => ""⟩

/-- A remember-me login of Bob with the captcha of Ada. -/
def loginBob (password : String) :
    Option (LoginState × List (Call × Input) × Except ApiError LoginSession) :=
  loginInner .plain Validator.lax (some {}) { statements := List.replicate 4 {} }
    ⟨"bob@example.com", password, true, some "QWERT"⟩ captchaOut

/-- With a wrong password nothing has happened. -/
theorem failed_login_keeps_tokens_bob : ∃ s' issued e,
    loginBob "wrong" = some (s', issued, .error e) ∧
      captchaOut.world.db.SameTokens s'.world.db := by
  obtain ⟨⟨s', issued, r⟩, hrun⟩ :=
    Option.isSome_iff_exists.mp (show (loginBob "wrong").isSome = true by decide)
  have hfailed : (loginBob "wrong").all (fun o => !o.2.2.isOk) = true := by decide
  rw [hrun] at hfailed
  cases r with
  | ok => cases hfailed
  | error e =>
    refine ⟨s', issued, e, hrun, (failed_login_keeps_tokens initial_captchaOut
      hashedTokens_captchaOut .start hrun).mpr (fun h => ?_) ⟨e, rfl⟩⟩
    obtain ⟨_, user, _, huser, _⟩ := h.late
    have hnobody : captchaOut.world.db.authenticated .plain captchaOut.world.calls.length
        ⟨"bob@example.com", "wrong", true⟩ = none := by
      decide
    cases huser.symm.trans hnobody

/-- With his own password Bob gets an error, and a session in place of the one he had. -/
theorem failed_login_replaces_tokens :
    ¬ ∀ cfg v wechat x body s s' issued e w₀, World.Initial w₀ → World.HashedTokens w₀ →
      Runs.Reaches (World.step cfg) Runs.Free w₀ s.world →
      loginInner cfg v wechat x body s = some (s', issued, .error e) →
      s.world.db.SameTokens s'.world.db := by
  intro h
  obtain ⟨⟨s', issued, r⟩, hrun⟩ :=
    Option.isSome_iff_exists.mp (show (loginBob "Secret-1").isSome = true by decide)
  have hfailed : (loginBob "Secret-1").all (fun o => !o.2.2.isOk) = true := by decide
  have hgone : (loginBob "Secret-1").all (fun o => (o.1.world.db.tokens.committed 0).isNone) =
      true := by decide
  rw [hrun] at hfailed hgone
  cases r with
  | ok => cases hfailed
  | error e =>
    have hsame := h _ _ _ _ _ _ s' issued e _ initial_captchaOut hashedTokens_captchaOut
      .start hrun 0
    simp only [Option.all_some, hsame] at hgone
    exact absurd hgone (by decide)

end LoginState

end Webshelf
