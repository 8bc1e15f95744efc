import Webshelf.Codes.Columns
import Webshelf.Server.Seen
import Webshelf.Sessions.Tokens

/-!
# What a JWT was given for

Five functions return a JWT, and each of them has been shown something before:
the password of the row, an openid that a sign-in has led to, a refresh token, a
reset code or the current password. `Backed` says for each place of these calls
what has been shown by then; a refresh token goes back to a remember-me login
with the password of its user, a reset code to a request for the address that
the row had.
-/

namespace Webshelf

open Runs (Watched)

/-- The checks of `AuthService::login`. -/
structure LoginRequest.Accepted (cfg : Settings) (request : LoginRequest) (m : UserModel) :
    Prop where
  email : m.email = cfg.toLowercase request.email
  password : Argon2.verify request.password m.passwordHash = true
  verified : m.emailVerified = true

/-- What a JWT made from the row says of it. -/
def UserModel.identity (m : UserModel) : UserId × String × Int :=
  (m.id, m.role, m.tokenVersion)

/-- A world, and the calls as they were made. -/
structure Begun where
  world : World
  starts : List Call := []

namespace Begun

def step (cfg : Settings) (b : Begun) (l : Label) : Option Begun :=
  (b.world.step cfg l).map fun world =>
    { world, starts := match l with
      | .invoke call => b.starts ++ [call]
      | _ => b.starts }

end Begun

namespace World

/-- The user had a row with `P` at some moment of the run. -/
def SawRow (f : Watched World) (u : UserId) (P : UserModel → Prop) : Prop :=
  Saw f fun a => ∃ m, (a.db.users u).committed = some m ∧ P m

section
variable (cfg : Settings) (w₀ : World) (f : Watched World) (starts : List Call)

/-- The user has been remembered from the start, or has logged in with the password to be. -/
def Remembered (u : UserId) : Prop :=
  (∃ i t st, w₀.db.tokens.get i = some (t, st) ∧ t.userId = u) ∨
    ∃ (c : CallId) (request : LoginRequest), starts[c]? = some (.login (.find request)) ∧
      request.remember = true ∧ SawRow f u (request.Accepted cfg)

/-- The reset code was in the row from the start, or a request for the address that the row
had has drawn it, for that address. -/
def Requested (u : UserId) (h : Argon2) : Prop :=
  (∃ m, (w₀.db.users u).committed = some m ∧ m.passwordReset.hash = some h) ∨
    ∃ (c : CallId) (email : String), starts[c]? = some (.requestReset (.find email)) ∧
      SawRow f u (fun m => m.email = cfg.toLowercase email) ∧ Saw f fun a =>
        ∃ call, a.calls[c]? = some call ∧ call.issues = some (.passwordReset, u, h) ∧
          call.mails = some (.passwordReset, cfg.toLowercase email, h.plain)

/-- What a call made so has shown for a JWT with this user, role and token version. -/
inductive Credential (x : UserId × String × Int) : Call → Prop
  | password {request : LoginRequest} (shown : SawRow f x.1 fun m =>
      request.Accepted cfg m ∧ m.role = x.2.1 ∧ m.tokenVersion = x.2.2) :
      Credential x (.login (.find request))
  | openid (shown : SawRow f x.1 fun m => m.role = x.2.1 ∧ m.tokenVersion = x.2.2) :
      Credential x (.wxLogin (.find x.1))
  | refreshToken {hash : TokenHash} (remembered : Remembered cfg w₀ f starts x.1)
      (shown : Saw f fun a => a.HasRow x ∧ ∃ i t, a.db.tokens.committed i = some t ∧
        t.userId = x.1 ∧ t.tokenHash = hash) :
      Credential x (.rotate (.lock hash))
  | resetCode {email code newPassword : String} {h : Argon2}
      (right : Argon2.verify code h = true) (requested : Requested cfg w₀ f starts x.1 h)
      (shown : SawRow f x.1 fun m => m.email = cfg.toLowercase email ∧
        m.passwordReset.hash = some h ∧ m.tokenVersion < x.2.2) :
      Credential x (.resetPassword (.find email code newPassword))
  | currentPassword {current newPassword : String} {remember : Bool}
      (shown : SawRow f x.1 fun m => Argon2.verify current m.passwordHash = true ∧
        m.tokenVersion < x.2.2) :
      Credential x (.changePassword (.find x.1 current newPassword remember))

/-! ## At each place -/

/-- The row a reset goes on with, and the code in it. -/
structure Offered (user : UserModel) (email : String) (h : Argon2) : Prop where
  requested : Requested cfg w₀ f starts user.id h
  shown : SawRow f user.id fun m => m.email = cfg.toLowercase email ∧
    m.passwordReset.hash = some h ∧ m.tokenVersion = user.tokenVersion
  version : f.now.Since user.id fun m => user.tokenVersion ≤ m.tokenVersion

/-- The row whose password a change has been shown. -/
def Knows (start : Call) (u : UserId) (v : Int) : Prop :=
  ∃ current newPassword remember,
    start = .changePassword (.find u current newPassword remember) ∧ SawRow f u fun m =>
      Argon2.verify current m.passwordHash = true ∧ m.tokenVersion = v

/-- What has been shown to a call that is at this place. -/
def Backed (start : Call) : Call → Prop
  | .login (.find request) => start = .login (.find request)
  | .login (.revoke user token _ _) | .login (.revoking user token _ _ _)
  | .login (.store user token _ _) | .login (.commit user token _) =>
    (∃ request, start = .login (.find request) ∧ request.remember = true) ∧
      token.sub = user.id ∧ Credential cfg w₀ f starts token.identity start
  | .wxLogin (.find userId) => start = .wxLogin (.find userId)
  | .rotate (.lock hash) | .rotate (.find hash _ _ _ _) => start = .rotate (.lock hash)
  | .rotate (.delete _ _ _ _ user) | .rotate (.deleting _ _ _ user _)
  | .rotate (.store _ _ _ user) | .rotate (.commit _ _ user) =>
    Credential cfg w₀ f starts user.identity start
  | .requestReset (.find email) => start = .requestReset (.find email)
  | .requestReset (.store user address code h _) => ∃ email,
    start = .requestReset (.find email) ∧ address = cfg.toLowercase email ∧ h.plain = code ∧
      SawRow f user.id fun m => m.email = cfg.toLowercase email
  | .resetPassword (.find email code newPassword) =>
    start = .resetPassword (.find email code newPassword)
  | .resetPassword (.claim user h code newPassword) => ∃ email,
    start = .resetPassword (.find email code newPassword) ∧ Offered cfg w₀ f starts user email h
  | .resetPassword (.update user h _) | .resetPassword (.refetch user h) =>
    ∃ email code newPassword, start = .resetPassword (.find email code newPassword) ∧
      Argon2.verify code h = true ∧ Offered cfg w₀ f starts user email h
  | .resetPassword (.revoke _ _ updated) | .resetPassword (.revoking _ _ updated _)
  | .resetPassword (.commit _ _ updated) => Credential cfg w₀ f starts updated.identity start
  | .changePassword (.find id current newPassword remember) =>
    start = .changePassword (.find id current newPassword remember)
  | .changePassword (.bump id _ _ _) | .changePassword (.update id _ _ _ _)
  | .changePassword (.revoke id _) | .changePassword (.revoking id _ _)
  | .changePassword (.commit id _) => ∃ v, Knows f start id v ∧
    f.now.Since id fun m => v ≤ m.tokenVersion
  | .changePassword (.refetch id _) => ∃ v, Knows f start id v ∧
    f.now.Since id fun m => v < m.tokenVersion
  | .changePassword (.invalidate updated _ _ _) =>
    Credential cfg w₀ f starts updated.identity start
  | call => ∀ token, call.jwt = some token → Credential cfg w₀ f starts token.identity start

/-- What the runs of the server keep. -/
structure Founded : Prop where
  calls : ∀ (c : CallId) (call : Call), f.now.calls[c]? = some call →
    ∃ start, starts[c]? = some start ∧ Backed cfg w₀ f starts start call
  length : starts.length = f.now.calls.length
  tokens : ∀ i t st, f.now.db.tokens.get i = some (t, st) →
    Remembered cfg w₀ f starts t.userId
  codes : ∀ u m h, (f.now.db.users u).committed = some m → m.passwordReset.hash = some h →
    Requested cfg w₀ f starts u h

end

/-! ## What is known stays known -/

/-- A run that has gone on. -/
structure Grows (f f' : Watched World) (starts starts' : List Call) : Prop where
  saw : ∀ {P : World → Prop}, Saw f P → Saw f' P
  start : ∀ {c : Nat} {call : Call}, starts[c]? = some call → starts'[c]? = some call
  version : ∀ {u : UserId} {v : Int}, (f.now.Since u fun m => v ≤ m.tokenVersion) →
    f'.now.Since u fun m => v ≤ m.tokenVersion

variable {cfg : Settings} {w₀ : World} {f f' : Watched World} {starts starts' : List Call}
  {start call : Call} {u : UserId} {h : Argon2} {v : Int} {x : UserId × String × Int}
  {c : CallId} {before : Call} {s : Stmt} {input : Input} {k : Except DbErr s.Reply → Call}
  {reply : Except DbErr s.Reply} {db' : Db} {l : Label} {w' : World}

section
variable (hg : Grows f f' starts starts')
include hg

theorem Remembered.grow (hr : Remembered cfg w₀ f starts u) :
    Remembered cfg w₀ f' starts' u := by
  rcases hr with hold | ⟨c, request, hc, hremember, hsaw⟩
  · exact Or.inl hold
  · exact Or.inr ⟨c, request, hg.start hc, hremember, hg.saw hsaw⟩

theorem Requested.grow (hr : Requested cfg w₀ f starts u h) :
    Requested cfg w₀ f' starts' u h := by
  rcases hr with hold | ⟨c, email, hc, hrow, hcall⟩
  · exact Or.inl hold
  · exact Or.inr ⟨c, email, hg.start hc, hg.saw hrow, hg.saw hcall⟩

theorem Credential.grow (hc : Credential cfg w₀ f starts x start) :
    Credential cfg w₀ f' starts' x start := by
  cases hc with
  | password shown => exact .password (hg.saw shown)
  | openid shown => exact .openid (hg.saw shown)
  | refreshToken remembered shown => exact .refreshToken (remembered.grow hg) (hg.saw shown)
  | resetCode right requested shown =>
    exact .resetCode right (requested.grow hg) (hg.saw shown)
  | currentPassword shown => exact .currentPassword (hg.saw shown)

theorem Offered.grow {user : UserModel} {email : String}
    (ho : Offered cfg w₀ f starts user email h) : Offered cfg w₀ f' starts' user email h :=
  ⟨ho.requested.grow hg, hg.saw ho.shown, hg.version ho.version⟩

theorem Knows.grow (hk : Knows f start u v) : Knows f' start u v := by
  obtain ⟨current, newPassword, remember, hstart, hsaw⟩ := hk
  exact ⟨current, newPassword, remember, hstart, hg.saw hsaw⟩

theorem Backed.grow (hB : Backed cfg w₀ f starts start call) :
    Backed cfg w₀ f' starts' start call := by
  have hrest (call : Call)
      (h : ∀ token, call.jwt = some token → Credential cfg w₀ f starts token.identity start)
      (token : JwtClaims) (hj : call.jwt = some token) :
      Credential cfg w₀ f' starts' token.identity start :=
    (h token hj).grow hg
  cases call with
  | login q =>
    cases q with
    | find => exact hB
    | revoke | revoking | store | commit =>
      obtain ⟨hstart, hsub, hcred⟩ := hB
      exact ⟨hstart, hsub, hcred.grow hg⟩
    | done => exact hrest _ hB
  | wxLogin q =>
    cases q with
    | find => exact hB
    | done => exact hrest _ hB
  | rotate q =>
    cases q with
    | lock | find => exact hB
    | delete | deleting | store | commit => exact Credential.grow hg hB
    | abort | done => exact hrest _ hB
  | requestReset q =>
    cases q with
    | find => exact hB
    | store =>
      obtain ⟨email, hstart, haddress, hplain, hrow⟩ := hB
      exact ⟨email, hstart, haddress, hplain, hg.saw hrow⟩
    | done => exact hrest _ hB
  | resetPassword q =>
    cases q with
    | find => exact hB
    | claim =>
      obtain ⟨email, hstart, ho⟩ := hB
      exact ⟨email, hstart, ho.grow hg⟩
    | update | refetch =>
      obtain ⟨email, code, newPassword, hstart, hright, ho⟩ := hB
      exact ⟨email, code, newPassword, hstart, hright, ho.grow hg⟩
    | revoke | revoking | commit => exact Credential.grow hg hB
    | abort | done => exact hrest _ hB
  | changePassword q =>
    cases q with
    | find => exact hB
    | bump | update | revoke | revoking | commit | refetch =>
      obtain ⟨v, hknows, hsince⟩ := hB
      exact ⟨v, hknows.grow hg, hg.version hsince⟩
    | invalidate => exact Credential.grow hg hB
    | abort | done => exact hrest _ hB
  | resendCode | sendVerification | autoVerify | verifyEmail | revokeAll | logout
  | checkTokenVersion | createUser | updateUser | deleteUser | modifyBalance | getUser
  | setOpenid => exact hrest _ hB

end

/-! ## A step of the call itself -/

section
variable (hw : f.now.Sound) (hg : Grows f f' starts starts')
  (running : f.now.calls[c]? = some before)
  (issues : before.next cfg (input.env f.now.ticks) = some ⟨s, k⟩)
  (ran : f.now.db.exec c input.fails s = some (db', reply))
include hw hg running issues ran

theorem Backed.login_step {q : Login} (hq : before = .login q)
    (hB : Backed cfg w₀ f starts start before) :
    Backed cfg w₀ f' starts' start (k reply) := by
  subst hq
  cases q with
  | find request =>
    obtain rfl : start = .login (.find request) := hB
    have hpicked (m : UserModel) (hm : s.picked reply = some m) :=
      (hw.selected running issues ran hm).1
    cases issues
    rcases reply with e | _ | m
    · intro token hj
      cases hj
    · intro token hj
      cases hj
    · have hrow := hpicked m rfl
      have hemail := Db.exec_selectUser ran
      dsimp only
      split
      · intro token hj
        cases hj
      · rename_i hpassword
        split
        · intro token hj
          cases hj
        · rename_i hverified
          have haccepted : request.Accepted cfg m :=
            ⟨by simpa using hemail, by simpa using hpassword, by simpa using hverified⟩
          have hcred : Credential cfg w₀ f starts m.identity (.login (.find request)) :=
            .password (saw_now ⟨m, hrow, haccepted, rfl, rfl⟩)
          split
          · rename_i hremember
            exact ⟨⟨request, rfl, hremember⟩, rfl, hcred.grow hg⟩
          · intro token hj
            cases hj
            exact hcred.grow hg
  | revoke | revoking | store =>
    obtain ⟨hstart, hsub, hcred⟩ := hB
    cases issues
    dsimp only [deleted]
    split <;> first
      | exact ⟨hstart, hsub, hcred.grow hg⟩
      | (intro token hj; cases hj)
  | commit =>
    obtain ⟨_, _, hcred⟩ := hB
    cases issues
    dsimp only
    split <;> intro token hj <;> cases hj
    exact hcred.grow hg
  | done => cases issues

theorem Backed.wxLogin_step {q : WxLogin} (hq : before = .wxLogin q)
    (hB : Backed cfg w₀ f starts start before) :
    Backed cfg w₀ f' starts' start (k reply) := by
  subst hq
  cases q with
  | find userId =>
    obtain rfl : start = .wxLogin (.find userId) := hB
    have hkeyed := hw.keyed_reply running issues ran
    cases issues
    rcases reply with e | _ | m
    · intro token hj
      cases hj
    · intro token hj
      cases hj
    · have hrow := (hw.got running ran (fun _ _ _ h => h) rfl).2
      rw [show m.id = userId from hkeyed] at hrow
      intro token hj
      cases hj
      exact .openid (hg.saw (saw_now ⟨m, hrow, rfl, rfl⟩))
  | done => cases issues

theorem Backed.requestReset_step {q : IssueCode} (hq : before = .requestReset q)
    (hB : Backed cfg w₀ f starts start before) :
    Backed cfg w₀ f' starts' start (k reply) := by
  subst hq
  cases q with
  | find email =>
    obtain rfl : start = .requestReset (.find email) := hB
    have hpicked (m : UserModel) (hm : s.picked reply = some m) :=
      (hw.selected running issues ran hm).1
    cases issues
    rcases reply with e | _ | m
    · intro token hj
      cases hj
    · intro token hj
      cases hj
    · have hrow := hpicked m rfl
      have hemail := Db.exec_selectUser ran
      dsimp only
      split
      · intro token hj
        cases hj
      · exact ⟨email, rfl, rfl, rfl, hg.saw (saw_now ⟨m, hrow, by simpa using hemail⟩)⟩
  | store =>
    cases issues
    dsimp only
    (repeat' split) <;> intro token hj <;> cases hj
  | done => cases issues

theorem Backed.rotate_step {q : Rotate} (hH : f.now.Held) (hF : Founded cfg w₀ f starts)
    (hq : before = .rotate q) (hB : Backed cfg w₀ f starts start before) :
    Backed cfg w₀ f' starts' start (k reply) := by
  subst hq
  cases q with
  | lock hash =>
    cases issues
    dsimp only
    split
    · intro token hj
      cases hj
    · intro token hj
      cases hj
    · exact hB
  | find hash newHash expiresAt old record =>
    obtain rfl : start = .rotate (.lock hash) := hB
    obtain ⟨hhash, hget⟩ := hH.exchanging c _ running
    have hkeyed := hw.keyed_reply running issues ran
    cases issues
    rcases reply with e | _ | m
    · intro token hj
      cases hj
    · intro token hj
      cases hj
    · have hrow := (hw.got running ran (fun _ _ _ h => h) rfl).2
      have hid : m.id = record.userId := hkeyed
      have hthere : f.now.db.tokens.committed old = some record :=
        Heap.stored_eq_some.mpr ⟨_, hget, nofun⟩
      have hremembered : Remembered cfg w₀ f starts m.id := by
        rw [hid]
        exact hF.tokens old record _ hget
      refine Credential.grow hg (.refreshToken hremembered (saw_now ⟨?_, ?_⟩))
      · exact ⟨m, hrow, rfl, rfl⟩
      · exact ⟨old, record, hthere, hid.symm, hhash⟩
  | delete | deleting | store =>
    cases issues
    dsimp only [deleted]
    split <;> first
      | exact Credential.grow hg hB
      | (intro token hj; cases hj)
  | commit =>
    cases issues
    dsimp only
    split <;> intro token hj <;> cases hj
    exact Credential.grow hg hB
  | abort =>
    cases issues
    intro token hj
    cases hj
  | done => cases issues

theorem Backed.resetPassword_step {q : ResetPassword} (hF : Founded cfg w₀ f starts)
    (hq : before = .resetPassword q) (hB : Backed cfg w₀ f starts start before) :
    Backed cfg w₀ f' starts' start (k reply) := by
  subst hq
  cases q with
  | find email code newPassword =>
    obtain rfl : start = .resetPassword (.find email code newPassword) := hB
    have hpicked (m : UserModel) (hm : s.picked reply = some m) :=
      (hw.selected running issues ran hm).1
    cases issues
    rcases reply with e | _ | m
    · intro token hj
      cases hj
    · intro token hj
      cases hj
    · have hrow := hpicked m rfl
      have hemail := Db.exec_selectUser ran
      dsimp only
      split
      · intro token hj
        cases hj
      · rename_i h hu
        have hhash : m.passwordReset.hash = some h := hash_of_usable hu
        have hoffered : Offered cfg w₀ f starts m email h := {
          requested := hF.codes m.id m h hrow hhash
          shown := saw_now ⟨m, hrow, by simpa using hemail, hhash, rfl⟩
          version := hw.since hrow (Int.le_refl _) }
        exact ⟨email, rfl, hoffered.grow hg⟩
  | claim user h code newPassword =>
    obtain ⟨email, rfl, hoffered⟩ := hB
    cases issues
    dsimp only
    (repeat' split) <;> first
      | exact ⟨email, code, newPassword, rfl, ‹_›, hoffered.grow hg⟩
      | (intro token hj; cases hj)
  | update =>
    obtain ⟨email, code, newPassword, rfl, hright, hoffered⟩ := hB
    cases issues
    dsimp only
    split <;> first
      | exact ⟨email, code, newPassword, rfl, hright, hoffered.grow hg⟩
      | (intro token hj; cases hj)
  | refetch user h =>
    obtain ⟨email, code, newPassword, rfl, hright, hoffered⟩ := hB
    obtain ⟨v, hp⟩ := hw.locked c _ user.id running rfl
    obtain ⟨m, hm, hwork⟩ := hw.own running v hp
    have hkeyed := hw.keyed_reply running issues ran
    cases issues
    rcases reply with e | _ | updated
    · intro token hj
      cases hj
    · intro token hj
      cases hj
    · obtain ⟨rfl, hview⟩ := Db.exec_selectUserById ran
      rw [Versioned.view_own hp] at hview
      cases hview
      have hid : v.id = user.id := hkeyed
      have hbump : v.tokenVersion = m.tokenVersion + 1 := congrArg UserModel.tokenVersion hwork.2.2
      have hle := hoffered.version.2 m hm
      refine Credential.grow hg (.resetCode hright ?_ ?_)
      · change Requested cfg w₀ f starts v.id h
        rw [hid]
        exact hoffered.requested
      · obtain ⟨a, ha, m₀, hm₀, hemail, hhash, hversion⟩ := hoffered.shown
        refine ⟨a, ha, m₀, ?_, hemail, hhash, ?_⟩
        · change (a.db.users v.id).committed = some m₀
          rw [hid]
          exact hm₀
        · change m₀.tokenVersion < v.tokenVersion
          omega
  | revoke | revoking =>
    cases issues
    dsimp only [deleted]
    split <;> first
      | exact Credential.grow hg hB
      | (intro token hj; cases hj)
  | commit =>
    cases issues
    dsimp only
    split <;> intro token hj <;> cases hj
    exact Credential.grow hg hB
  | abort =>
    cases issues
    dsimp only
    split <;> intro token hj <;> cases hj
  | done => cases issues

theorem Backed.changePassword_step {q : ChangePassword} (hq : before = .changePassword q)
    (hf' : f'.now.db = db') (hB : Backed cfg w₀ f starts start before) :
    Backed cfg w₀ f' starts' start (k reply) := by
  subst hq
  cases q with
  | find id current newPassword remember =>
    obtain rfl : start = .changePassword (.find id current newPassword remember) := hB
    have hkeyed := hw.keyed_reply running issues ran
    cases issues
    rcases reply with e | _ | m
    · intro token hj
      cases hj
    · intro token hj
      cases hj
    · have hrow := (hw.got running ran (fun _ _ _ h => h) rfl).2
      rw [show m.id = id from hkeyed] at hrow
      dsimp only
      (repeat' split) <;> try (intro token hj; cases hj)
      rename_i hpassword _ _
      have hknows : Knows f (.changePassword (.find id current newPassword remember)) id
          m.tokenVersion :=
        ⟨current, newPassword, remember, rfl,
          saw_now ⟨m, hrow, by simpa using hpassword, rfl⟩⟩
      exact ⟨m.tokenVersion, hknows.grow hg, hg.version (hw.since hrow (Int.le_refl _))⟩
  | bump | update | revoke | revoking =>
    obtain ⟨v, hknows, hsince⟩ := hB
    cases issues
    dsimp only [deleted]
    split <;> first
      | exact ⟨v, hknows.grow hg, hg.version hsince⟩
      | (intro token hj; cases hj)
  | commit id remember =>
    obtain ⟨v, hknows, hsince⟩ := hB
    cases issues
    rcases reply with e | ⟨⟨⟩⟩
    · intro token hj
      cases hj
    · -- the COMMIT makes the bumped version the current one
      obtain ⟨m, m', hm, hwork, hm'⟩ := hw.committed running rfl ran
      have hbump : m'.tokenVersion = m.tokenVersion + 1 :=
        congrArg UserModel.tokenVersion hwork.2
      have hle := hsince.2 m hm
      refine ⟨v, hknows.grow hg, (hg.version hsince).1, ?_⟩
      intro m'' hm''
      rw [hf', hm'] at hm''
      cases hm''
      omega
  | refetch id remember =>
    obtain ⟨v, ⟨current, newPassword, remember', rfl, a, ha, m₀, hm₀, hright, hv⟩, hsince⟩ := hB
    have hkeyed := hw.keyed_reply running issues ran
    cases issues
    rcases reply with e | _ | m
    · intro token hj
      cases hj
    · intro token hj
      cases hj
    · have hrow := (hw.got running ran (fun _ _ _ h => h) rfl).2
      obtain rfl : m.id = id := hkeyed
      have hlt := hsince.2 m hrow
      refine Credential.grow hg (.currentPassword (x := m.identity) ⟨a, ha, m₀, hm₀, hright, ?_⟩)
      change m₀.tokenVersion < m.tokenVersion
      omega
  | invalidate updated remember key rest =>
    cases rest with
    | nil =>
      cases issues
      intro token hj
      cases hj
      exact Credential.grow hg hB
    | cons =>
      cases issues
      exact Credential.grow hg hB
  | abort =>
    cases issues
    intro token hj
    cases hj
  | done => cases issues

/-- What a step makes of the call that takes it. -/
theorem Backed.step (hH : f.now.Held) (hF : Founded cfg w₀ f starts) (hf' : f'.now.db = db')
    (hB : Backed cfg w₀ f starts start before) :
    Backed cfg w₀ f' starts' start (k reply) := by
  cases hcall : before with
  | login => exact Backed.login_step hw hg running issues ran hcall hB
  | wxLogin => exact Backed.wxLogin_step hw hg running issues ran hcall hB
  | requestReset => exact Backed.requestReset_step hw hg running issues ran hcall hB
  | rotate => exact Backed.rotate_step hw hg running issues ran hH hF hcall hB
  | resetPassword => exact Backed.resetPassword_step hw hg running issues ran hF hcall hB
  | changePassword => exact Backed.changePassword_step hw hg running issues ran hcall hf' hB
  | resendCode | sendVerification | autoVerify | verifyEmail | revokeAll | logout
  | checkTokenVersion | createUser | updateUser | deleteUser | modifyBalance | getUser
  | setOpenid =>
    subst hcall
    obtain ⟨k', _, rfl⟩ := Next.map_some issues
    intro token hj
    cases hj

end

/-! ## Runs -/

section
variable (hw : f.now.Sound) (running : f.now.calls[c]? = some before)
  (issues : before.next cfg (input.env f.now.ticks) = some ⟨s, k⟩)
  (ran : f.now.db.exec c input.fails s = some (db', reply))
include hw running issues ran

theorem grows_exec (starts : List Call) :
    Grows f ⟨f.now.after c before (s.applied reply) (k reply) db', f.states⟩ starts starts where
  saw h := h.later
  start h := h
  version h := h.after_version hw running issues ran

omit hw in
/-- A refresh token goes back to a login of its user. -/
theorem Founded.tokens_exec (hH : f.now.Held) (hF : Founded cfg w₀ f starts)
    (hg : Grows f f' starts starts') {i : TokenId} {t : RefreshToken} {st : Hold CallId}
    (ht : db'.tokens.get i = some (t, st)) : Remembered cfg w₀ f' starts' t.userId := by
  refine Remembered.grow hg ?_
  rcases (Db.exec_tokens ran).row ht with ⟨st', ht⟩ | ⟨rfl, -⟩
  · exact hF.tokens i t st' ht
  · obtain ⟨start, hstart, hB⟩ := hF.calls c before running
    cases Call.next_insertToken issues with
    | login user token hash expiresAt =>
      obtain ⟨⟨request, rfl, hremember⟩, hsub, hcred⟩ := hB
      have hid : token.identity.1 = user.id := hsub
      cases hcred with
      | password shown =>
        rw [hid] at shown
        obtain ⟨a, ha, m, hm, haccepted, -⟩ := shown
        exact Or.inr ⟨c, request, hstart, hremember, a, ha, m, hm, haccepted⟩
    | rotate hash expiresAt old user =>
      obtain ⟨record, hid, hget⟩ := hH.exchanging c _ running
      have hold := hF.tokens old record _ hget
      rw [hid] at hold
      exact hold

/-- A reset code in a row has been requested for it. -/
theorem Founded.codes_exec (hF : Founded cfg w₀ f starts) (hg : Grows f f' starts starts')
    {m : UserModel} (hm : (db'.users u).committed = some m)
    (hh : m.passwordReset.hash = some h) : Requested cfg w₀ f' starts' u h := by
  refine Requested.grow hg ?_
  have hcode := (hw.row_step running issues ran u).code .passwordReset
  rw [hm] at hcode
  rcases hcode.hash rfl hh with ⟨cols, hcols, hold⟩ | ⟨-, hi⟩
  · obtain ⟨m₀, hm₀, rfl⟩ := Option.map_eq_some_iff.mp hcols
    exact hF.codes u m₀ h hm₀ hold
  · obtain ⟨start, hstart, hB⟩ := hF.calls c before running
    cases before with
    | requestReset q =>
      cases q with
      | store user address code codeHash now =>
        obtain ⟨email, rfl, rfl, rfl, hrow⟩ := hB
        cases hi
        exact Or.inr ⟨c, email, hstart, hrow, saw_now ⟨_, running, rfl, rfl⟩⟩
      | find | done => cases hi
    | resendCode q | sendVerification q => cases q <;> cases hi
    | _ => cases hi

theorem Founded.exec (hH : f.now.Held) (hF : Founded cfg w₀ f starts) : Founded cfg w₀
    ⟨f.now.after c before (s.applied reply) (k reply) db', f.states⟩ starts := by
  have hg := grows_exec hw running issues ran starts
  refine ⟨?_, ?_, ?_, ?_⟩
  · intro o call hc
    by_cases ho : o = c
    · subst ho
      rw [after_self running] at hc
      cases hc
      obtain ⟨start, hstart, hB⟩ := hF.calls o before running
      exact ⟨start, hstart, hB.step hw hg running issues ran hH hF rfl⟩
    · rw [after_other ho] at hc
      obtain ⟨start, hstart, hB⟩ := hF.calls o call hc
      exact ⟨start, hstart, hB.grow hg⟩
  · exact hF.length.trans List.length_set.symm
  · intro i t st ht
    exact hF.tokens_exec running issues ran hH hg ht
  · intro u m h hm hh
    exact hF.codes_exec hw running issues ran hg hm hh

end

theorem Call.backed_start (h : call.initial = true) : Backed cfg w₀ f starts call call := by
  cases call <;> rename_i q <;> cases q <;> first
    | rfl
    | (intro token hj; cases hj)
    | cases h

theorem Founded.join (hF : Founded cfg w₀ f starts) (start : call.initial = true) :
    Founded cfg w₀ ⟨f.now.join call, f.states⟩ (starts ++ [call]) := by
  have hg : Grows f ⟨f.now.join call, f.states⟩ starts (starts ++ [call]) := {
    saw := fun h => h.later
    start := fun h => by
      rw [List.getElem?_append_left (List.getElem?_eq_some_iff.mp h).1]
      exact h
    version := id }
  refine ⟨?_, ?_, ?_, ?_⟩
  · intro o other hc
    by_cases ho : o < f.now.calls.length
    · rw [World.join, List.getElem?_append_left ho] at hc
      obtain ⟨start, hstart, hB⟩ := hF.calls o other hc
      exact ⟨start, hg.start hstart, hB.grow hg⟩
    · obtain rfl : o = f.now.calls.length := by
        have hlt := (List.getElem?_eq_some_iff.mp hc).1
        simp only [World.join, List.length_append, List.length_singleton] at hlt
        exact Nat.le_antisymm (Nat.lt_succ_iff.mp hlt) (Nat.le_of_not_lt ho)
      rw [World.join, List.getElem?_concat_length] at hc
      cases hc
      refine ⟨call, ?_, Call.backed_start start⟩
      rw [← hF.length, List.getElem?_concat_length]
  · rw [World.join, List.length_append, List.length_append, hF.length]
  · intro i t st ht
    exact (hF.tokens i t st ht).grow hg
  · intro u m h hm hh
    exact (hF.codes u m h hm hh).grow hg

theorem Founded.expire {key : CacheKey} (hF : Founded cfg w₀ f starts) : Founded cfg w₀
    ⟨{ f.now with db := f.now.db.expire key, ticks := f.now.ticks + 1 }, f.states⟩ starts := by
  have hg : Grows f ⟨{ f.now with db := f.now.db.expire key, ticks := f.now.ticks + 1 }, f.states⟩
      starts starts := {
    saw := fun h => h.later
    start := id
    version := id }
  refine ⟨?_, hF.length, ?_, ?_⟩
  · intro o call hc
    obtain ⟨start, hstart, hB⟩ := hF.calls o call hc
    exact ⟨start, hstart, hB.grow hg⟩
  · intro i t st ht
    exact (hF.tokens i t st ht).grow hg
  · intro u m h hm hh
    exact (hF.codes u m h hm hh).grow hg

theorem Initial.founded (h0 : w₀.Initial) : Founded cfg w₀ ⟨w₀, []⟩ [] where
  calls c call hc := by
    rw [h0.calls] at hc
    cases hc
  length := by rw [h0.calls]
  tokens i t st ht := Or.inl ⟨i, t, st, ht, rfl⟩
  codes u m h hm hh := Or.inl ⟨m, hm, hh⟩

end World

namespace Begun

variable {cfg : Settings} {w₀ : World} {f : Watched Begun} {c : CallId} {call : Call}
  {token : JwtClaims}

theorem founded_reached (h0 : w₀.Initial)
    (h : Runs.Reaches (Watched.next (step cfg)) Runs.Free ⟨⟨w₀, []⟩, []⟩ f) :
    f.now.world.Sound ∧ f.now.world.Held ∧
      World.Founded cfg w₀ (f.map Begun.world) f.now.starts := by
  refine h.invariant (I := fun f => f.now.world.Sound ∧ f.now.world.Held ∧
    World.Founded cfg w₀ (f.map Begun.world) f.now.starts)
    ⟨h0.sound, h0.held, h0.founded⟩ ?_
  intro f l f' hI _ hstep
  obtain ⟨hw, hH, hF⟩ := hI
  obtain ⟨b, hb, rfl⟩ := Watched.next_some hstep
  obtain ⟨w, hworld, rfl⟩ := Option.map_eq_some_iff.mp hb
  have ht := World.step_transition hworld
  refine ⟨hw.step ht, hH.step hw ht, ?_⟩
  cases ht with
  | exec running issues ran =>
    exact World.Founded.exec (f := f.map Begun.world) hw running issues ran hH hF
  | invoke start => exact World.Founded.join (f := f.map Begun.world) hF start
  | expire => exact World.Founded.expire (f := f.map Begun.world) hF

/-- Every JWT has been given for a credential of its user. -/
theorem jwts_from_credentials (h0 : w₀.Initial)
    (h : Runs.Reaches (Watched.next (step cfg)) Runs.Free ⟨⟨w₀, []⟩, []⟩ f)
    (hc : f.now.world.calls[c]? = some call) (hj : call.jwt = some token) :
    ∃ start, f.now.starts[c]? = some start ∧
      World.Credential cfg w₀ (f.map Begun.world) f.now.starts token.identity start := by
  obtain ⟨-, -, hF⟩ := founded_reached h0 h
  obtain ⟨start, hstart, hB⟩ := hF.calls c call hc
  refine ⟨start, hstart, ?_⟩
  cases call with
  | login q | wxLogin q | resetPassword q | changePassword q | rotate q =>
    cases q with
    | done => exact hB token hj
    | _ => cases hj
  | _ => cases hj

/-- A remember-me login, and the exchange of its refresh token. -/
def exchangedOnce : List Label :=
  [.invoke (.login (.find ⟨"ada@example.com", "Passw0rd!", true⟩)), .exec 0 {}, .exec 0 {},
    .exec 0 {}, .exec 0 {}, .invoke (.rotate (.lock 2)), .exec 1 {}, .exec 1 {}, .exec 1 {},
    .exec 1 {}, .exec 1 {}]

def exchangedRun : Option (Watched Begun) :=
  Runs.run (Watched.next (step .plain)) Runs.Free ⟨⟨.account, []⟩, []⟩ exchangedOnce

theorem exchanged_runs : exchangedRun.isSome = true := by decide

theorem exchanged_jwt : (exchangedRun.get exchanged_runs).now.world.calls[1]? =
    some (.rotate (.done (.ok (some (generateToken 0 1 "user" 2592000 true 1))))) := by
  decide

/-- The JWT of the exchange is Ada's for her login. -/
theorem jwts_from_credentials_exchanged :
    World.Credential .plain .account ((exchangedRun.get exchanged_runs).map Begun.world)
      (exchangedRun.get exchanged_runs).now.starts (1, "user", 1) (.rotate (.lock 2)) := by
  obtain ⟨start, hstart, hcred⟩ :=
    jwts_from_credentials (f := exchangedRun.get exchanged_runs) World.initial_account
      (Runs.reaches_run_get exchanged_runs) exchanged_jwt rfl
  have hlock : (exchangedRun.get exchanged_runs).now.starts[1]? = some (.rotate (.lock 2)) := by
    decide
  obtain rfl : start = .rotate (.lock 2) := Option.some.inj (hstart.symm.trans hlock)
  exact hcred

end Begun

end Webshelf
