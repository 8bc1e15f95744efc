import Webshelf.Lib.Runs
import Webshelf.Services.Auth
import Webshelf.Services.Codes
import Webshelf.Services.User

/-!
# The server

Any number of service calls over one store, one statement at a time in any
order. `World.trace` is history: nothing reads it, it records what the
statements did, each with the number of the step. Salts and refresh tokens are
drawn as the number of the step, so that no two draws are equal.
-/

namespace Webshelf

inductive Call where
  | requestReset (p : IssueCode)
  | resendCode (p : IssueCode)
  | sendVerification (p : SendVerification)
  | autoVerify (p : AutoVerify)
  | verifyEmail (p : VerifyEmail)
  | resetPassword (p : ResetPassword)
  | login (p : Login)
  | wxLogin (p : WxLogin)
  | rotate (p : Rotate)
  | revokeAll (p : RevokeAll)
  | logout (p : Logout)
  | checkTokenVersion (p : CheckTokenVersion)
  | createUser (p : CreateUser)
  | updateUser (p : UpdateUser)
  | changePassword (p : ChangePassword)
  | deleteUser (p : DeleteUser)
  | modifyBalance (p : ModifyBalance)
  | getUser (p : GetUser)
  | setOpenid (p : SetOpenid)
  deriving DecidableEq

namespace Call

def next (cfg : Settings) (env : Env) : Call → Next Call
  | requestReset p => (Webshelf.requestReset cfg env p).map requestReset
  | resendCode p => (Webshelf.resendCode cfg env p).map resendCode
  | sendVerification p => (sendVerificationEmail cfg env p).map sendVerification
  | autoVerify p => (Webshelf.autoVerify cfg env p).map autoVerify
  | verifyEmail p => (Webshelf.verifyEmail cfg env p).map verifyEmail
  | resetPassword p => (Webshelf.resetPassword cfg env p).map resetPassword
  | login p => (Webshelf.login cfg env p).map login
  | wxLogin p => (Webshelf.wxLogin cfg env p).map wxLogin
  | rotate p => (rotateRefreshToken cfg env p).map rotate
  | revokeAll p => (revokeAllSessions p).map revokeAll
  | logout p => (Webshelf.logout p).map logout
  | checkTokenVersion p => (verifyTokenVersion p).map checkTokenVersion
  | createUser p => (Webshelf.createUser cfg env p).map createUser
  | updateUser p => (Webshelf.updateUser cfg env p).map updateUser
  | changePassword p => (Webshelf.changePassword cfg env p).map changePassword
  | deleteUser p => (Webshelf.deleteUser p).map deleteUser
  | modifyBalance p => (Webshelf.modifyBalance env p).map modifyBalance
  | getUser p => (Webshelf.getUser p).map getUser
  | setOpenid p => (Webshelf.setOpenid p).map setOpenid

/-- A call as it is made, before its first statement. -/
def initial : Call → Bool
  | requestReset (.find _) | resendCode (.find _) | sendVerification (.find _)
  | autoVerify (.find _) | verifyEmail (.find _ _) | resetPassword (.find _ _ _)
  | login (.find _) | wxLogin (.find _) | rotate (.lock _) | revokeAll (.revoke _)
  | logout (.delete _) | checkTokenVersion (.get _ _) | createUser (.insert _ _)
  | updateUser (.find _ _ _) | changePassword (.find _ _ _ _) | deleteUser (.find _ _ _)
  | modifyBalance (.lock _ _ _) | getUser (.get _ _) | setOpenid (.update _ _) => true
  | _ => false

/-- The JWT a call has returned with. -/
def jwt : Call → Option JwtClaims
  | resetPassword (.done (.ok token)) | login (.done (.ok token)) | wxLogin (.done (.ok token))
  | rotate (.done (.ok (some token))) | changePassword (.done (.ok token)) => some token
  | _ => none

/-- The code the call is about to store, and the address it goes to. -/
def mails : Call → Option (CodeKind × String × String)
  | requestReset (.store _ email code _ _) => some (.passwordReset, email, code)
  | resendCode (.store _ email code _ _) | sendVerification (.store _ email code _ _) =>
    some (.verification, email, code)
  | _ => none

/-- The user whose sessions the call revokes, from its DELETE on. -/
def revokes : Call → Option UserId
  | revokeAll (.revoke userId) => some userId
  | changePassword (.revoke id _) => some id
  | resetPassword (.revoke user _ _) => some user.id
  | _ => none

/-- The user whose revocation the call is about to commit. -/
def commitsRevocation : Call → Option UserId
  | revokeAll (.commit userId) => some userId
  | changePassword (.commit id _) => some id
  | resetPassword (.commit user _ _) => some user.id
  | _ => none

end Call

/-! ## History -/

inductive Event where
  /-- Call `c` changed the committed row of a user. -/
  | changed (c : CallId) (userId : UserId)
  /-- A guess took a slot and was compared with `codeHash`. -/
  | codeCompared (c : CallId) (kind : CodeKind) (userId : UserId) (codeHash : Argon2)
  /-- The guarded UPDATE of `reset_password` found its row, with `stored` in the hash column. -/
  | passwordReplaced (c : CallId) (userId : UserId) (compared : Argon2) (stored : Option Argon2)
  | resetCommitted (c : CallId) (userId : UserId) (compared : Argon2)
  | balanceCommitted (c : CallId) (userId : UserId) (op : BalanceOp)
  /-- `update_user` committed a role other than the one it had read. -/
  | roleCommitted (c : CallId) (userId : UserId)
  /-- The mail with a code that has just been stored went out. -/
  | codeMailed (c : CallId) (kind : CodeKind) (address code : String)
  /-- A code presented for the account of `address` was consumed. -/
  | codeAccepted (c : CallId) (kind : CodeKind) (address code : String)
  /-- The SELECT of a remember-me login whose password and row passed the checks. -/
  | loginRead (c : CallId) (userId : UserId)
  | tokenStored (c : CallId) (userId : UserId) (token : TokenId)
  /-- A rotation returned `(user_id, role, token_version)` for the token `old`. -/
  | tokenRotated (c : CallId) (old new : TokenId) (userId : UserId) (role : String)
      (tokenVersion : Int)
  /-- The DELETE of a revocation took its snapshot of the user's refresh tokens. -/
  | revocationStarted (c : CallId) (userId : UserId) (rows : List TokenId)
  | revoked (c : CallId) (userId : UserId) (tokenVersion : Option Int)
  | jwtIssued (c : CallId) (token : JwtClaims)
  | versionChecked (c : CallId) (userId : UserId) (tokenVersion : Int) (ok : Bool)
      (current : Option Int)
  deriving DecidableEq

/-- The statement went through; an UPDATE also found its row. -/
def Stmt.applied : (s : Stmt) → Except DbErr s.Reply → Bool
  | .updateUser _ _ _ _, .ok none => false
  | _, .ok _ => true
  | _, .error _ => false

def Db.tokenVersion (db : Db) (id : UserId) : Option Int :=
  (db.users id).committed.map UserModel.tokenVersion

def Db.changedUsers (db db' : Db) : List UserId :=
  db'.ids.filter fun id => decide ((db'.users id).committed ≠ (db.users id).committed)

/-- What a statement that went through did for its call. -/
def Call.events (c : CallId) (db db' : Db) : (before after : Call) → List Event
  | .requestReset (.store _ email code _ _), .requestReset (.done (.ok ())) =>
    [.codeMailed c .passwordReset email code]
  | .resendCode (.store _ email code _ _), .resendCode (.done (.ok ())) =>
    [.codeMailed c .verification email code]
  | .sendVerification (.store _ email code _ _), .sendVerification (.done (.ok ())) =>
    [.codeMailed c .verification email code]
  | .verifyEmail (.update user h _), _ => [.codeAccepted c .verification user.email h.plain]
  | .verifyEmail (.claim user h _), _ => [.codeCompared c .verification user.id h]
  | .resetPassword (.claim user h _ _), _ => [.codeCompared c .passwordReset user.id h]
  | .resetPassword (.update user h _), _ => [.passwordReplaced c user.id h
      ((db.seen c .txn user.id).bind fun m => m.passwordReset.hash)]
  | .resetPassword (.commit user h _), _ =>
    [.resetCommitted c user.id h, .codeAccepted c .passwordReset user.email h.plain,
      .revoked c user.id (db'.tokenVersion user.id)]
  | .updateUser (.commit id), _ => [.roleCommitted c id]
  | .changePassword (.commit id _), _ => [.revoked c id (db'.tokenVersion id)]
  | .revokeAll (.commit userId), _ => [.revoked c userId (db'.tokenVersion userId)]
  | .modifyBalance (.commit targetId op _), _ => [.balanceCommitted c targetId op]
  | .login (.find _), .login (.revoke user _ _ _) => [.loginRead c user.id]
  | .login (.store _ _ _ _), .login (.commit user _ stored) => [.tokenStored c user.id stored]
  | .rotate (.commit old new user), _ =>
    [.tokenRotated c old new user.id user.role user.tokenVersion]
  | before, _ => match before.revokes with
    | some userId =>
      [.revocationStarted c userId (db.tokens.snapshot c fun t => t.userId == userId)]
    | none => []

/-- What a call returned with. -/
def Call.returned (c : CallId) (db' : Db) : (before after : Call) → List Event
  | .checkTokenVersion (.get userId v), .checkTokenVersion (.done ok)
  | .checkTokenVersion (.find userId v), .checkTokenVersion (.done ok)
  | .checkTokenVersion (.set userId v _), .checkTokenVersion (.done ok) =>
    [.versionChecked c userId v ok (db'.tokenVersion userId)]
  | _, after => after.jwt.toList.map (.jwtIssued c)

/-- What a statement of call `c` adds to the history. -/
def observe (c : CallId) (db db' : Db) (before : Call) (applied : Bool) (after : Call) :
    List Event :=
  (db.changedUsers db').map (.changed c) ++
    (if applied then before.events c db db' after else []) ++
    before.returned c db' after

theorem mem_observe {c : CallId} {db db' : Db} {before after : Call} {applied : Bool}
    {e : Event} : e ∈ observe c db db' before applied after ↔
      (∃ u ∈ db.changedUsers db', e = .changed c u) ∨
      (applied = true ∧ e ∈ before.events c db db' after) ∨ e ∈ before.returned c db' after := by
  unfold observe
  simp only [List.mem_append, List.mem_map, List.mem_ite_nil_right,
    eq_comm (a := Event.changed c _)]
  exact or_assoc

/-- The events of a kind that only a statement leaves. -/
theorem filterMap_observe {β : Type} {f : Event → Option β} {c : CallId} {db db' : Db}
    {before after : Call} {applied : Bool} (hc : ∀ u, f (.changed c u) = none)
    (hr : ∀ e ∈ before.returned c db' after, f e = none) :
    (observe c db db' before applied after).filterMap f =
      if applied then (before.events c db db' after).filterMap f else [] := by
  have h1 : ((db.changedUsers db').map (Event.changed c)).filterMap f = [] := by
    rw [List.filterMap_eq_nil_iff]
    intro e he
    obtain ⟨u, _, rfl⟩ := List.mem_map.mp he
    exact hc u
  have h2 : (before.returned c db' after).filterMap f = [] := List.filterMap_eq_nil_iff.mpr hr
  unfold observe
  rw [List.filterMap_append, List.filterMap_append, h1, h2]
  split <;> simp

theorem mem_returned {c : CallId} {db' : Db} {before after : Call} {e : Event}
    (h : e ∈ before.returned c db' after) :
    (∃ token, e = .jwtIssued c token ∧ after.jwt = some token) ∨
      ∃ u v ok, e = .versionChecked c u v ok (db'.tokenVersion u) := by
  unfold Call.returned at h
  split at h
  · exact Or.inr ⟨_, _, _, List.mem_singleton.mp h⟩
  · exact Or.inr ⟨_, _, _, List.mem_singleton.mp h⟩
  · exact Or.inr ⟨_, _, _, List.mem_singleton.mp h⟩
  · obtain ⟨token, ht, rfl⟩ := List.mem_map.mp h
    exact Or.inl ⟨token, rfl, by simpa using ht⟩

theorem Db.applied_of_exec {db db' : Db} {c : CallId} {fails : Bool} {s : Stmt}
    {reply : Except DbErr s.Reply} (h : db.exec c fails s = some (db', reply))
    (ha : s.applied reply = true) : fails = false := by
  cases fails with
  | false => rfl
  | true =>
    cases h
    cases s <;> cases ha

/-- The events of `Call.events`, one by one. -/
inductive Call.Logged (c : CallId) (db db' : Db) : (before after : Call) → Event → Prop
  | verificationCompared {user : UserModel} {h : Argon2} {code : String} {after : Call} :
      Logged c db db' (.verifyEmail (.claim user h code)) after
        (.codeCompared c .verification user.id h)
  | resetCompared {user : UserModel} {h : Argon2} {code newPassword : String} {after : Call} :
      Logged c db db' (.resetPassword (.claim user h code newPassword)) after
        (.codeCompared c .passwordReset user.id h)
  | passwordReplaced {user : UserModel} {h newHash : Argon2} {after : Call} :
      Logged c db db' (.resetPassword (.update user h newHash)) after
        (.passwordReplaced c user.id h
          ((db.seen c .txn user.id).bind fun m => m.passwordReset.hash))
  | resetCommitted {user updated : UserModel} {h : Argon2} {after : Call} :
      Logged c db db' (.resetPassword (.commit user h updated)) after
        (.resetCommitted c user.id h)
  | revoked {before after : Call} {u : UserId} (h : before.commitsRevocation = some u) :
      Logged c db db' before after (.revoked c u (db'.tokenVersion u))
  | codeMailed {kind : CodeKind} {email code : String} {before after : Call}
      (h : before.mails = some (kind, email, code)) :
      Logged c db db' before after (.codeMailed c kind email code)
  | verificationAccepted {user : UserModel} {h : Argon2} {now : Time} {after : Call} :
      Logged c db db' (.verifyEmail (.update user h now)) after
        (.codeAccepted c .verification user.email h.plain)
  | resetAccepted {user updated : UserModel} {h : Argon2} {after : Call} :
      Logged c db db' (.resetPassword (.commit user h updated)) after
        (.codeAccepted c .passwordReset user.email h.plain)
  | roleCommitted {id : UserId} {after : Call} :
      Logged c db db' (.updateUser (.commit id)) after (.roleCommitted c id)
  | balanceCommitted {id : UserId} {op : BalanceOp} {result : UserModel} {after : Call} :
      Logged c db db' (.modifyBalance (.commit id op result)) after (.balanceCommitted c id op)
  | loginRead {request : LoginRequest} {user : UserModel} {token : JwtClaims} {hash : TokenHash}
      {expiresAt : Time} :
      Logged c db db' (.login (.find request)) (.login (.revoke user token hash expiresAt))
        (.loginRead c user.id)
  | tokenStored {user user' : UserModel} {token token' : JwtClaims} {hash : TokenHash}
      {expiresAt : Time} {stored : TokenId} :
      Logged c db db' (.login (.store user token hash expiresAt))
        (.login (.commit user' token' stored)) (.tokenStored c user'.id stored)
  | tokenRotated {old new : TokenId} {user : UserModel} {after : Call} :
      Logged c db db' (.rotate (.commit old new user)) after
        (.tokenRotated c old new user.id user.role user.tokenVersion)
  | revocationStarted {before after : Call} {u : UserId} (h : before.revokes = some u) :
      Logged c db db' before after
        (.revocationStarted c u (db.tokens.snapshot c fun t => t.userId == u))

theorem Call.mem_events {c : CallId} {db db' : Db} {before after : Call} {e : Event}
    (h : e ∈ before.events c db db' after) : before.Logged c db db' after e := by
  unfold Call.events at h
  split at h
  · cases List.mem_singleton.mp h
    exact .codeMailed rfl
  · cases List.mem_singleton.mp h
    exact .codeMailed rfl
  · cases List.mem_singleton.mp h
    exact .codeMailed rfl
  · cases List.mem_singleton.mp h
    exact .verificationAccepted
  · cases List.mem_singleton.mp h
    exact .verificationCompared
  · cases List.mem_singleton.mp h
    exact .resetCompared
  · cases List.mem_singleton.mp h
    exact .passwordReplaced
  · simp only [List.mem_cons, List.not_mem_nil, or_false] at h
    rcases h with rfl | rfl | rfl
    · exact .resetCommitted
    · exact .resetAccepted
    · exact .revoked rfl
  · cases List.mem_singleton.mp h
    exact .roleCommitted
  · cases List.mem_singleton.mp h
    exact .revoked rfl
  · cases List.mem_singleton.mp h
    exact .revoked rfl
  · cases List.mem_singleton.mp h
    exact .balanceCommitted
  · cases List.mem_singleton.mp h
    exact .loginRead
  · cases List.mem_singleton.mp h
    exact .tokenStored
  · cases List.mem_singleton.mp h
    exact .tokenRotated
  · split at h
    · rename_i hr
      cases List.mem_singleton.mp h
      exact .revocationStarted hr
    · cases h

theorem Call.events_filterMap_nil {β : Type} {f : Event → Option β} {c : CallId} {db db' : Db}
    {before after : Call} (h : ∀ e, before.Logged c db db' after e → f e = none) :
    (before.events c db db' after).filterMap f = [] :=
  List.filterMap_eq_nil_iff.mpr fun e he => h e (mem_events he)

/-- What a step adds to the history, apart from the rows it changed and what its call returned. -/
theorem logged_of_observe {c : CallId} {db db' : Db} {before after : Call} {applied : Bool}
    {e : Event} (h : e ∈ observe c db db' before applied after)
    (hc : ∀ u, e ≠ .changed c u) (hj : ∀ token, e ≠ .jwtIssued c token)
    (hv : ∀ u v ok current, e ≠ .versionChecked c u v ok current) :
    applied = true ∧ before.Logged c db db' after e := by
  rcases mem_observe.mp h with ⟨u, _, rfl⟩ | ⟨ok, he⟩ | he
  · exact absurd rfl (hc u)
  · exact ⟨ok, Call.mem_events he⟩
  · rcases mem_returned he with ⟨token, rfl, _⟩ | ⟨u, v, ok, rfl⟩
    · exact absurd rfl (hj token)
    · exact absurd rfl (hv u v ok _)

theorem changed_of_observe {c c' : CallId} {db db' : Db} {before after : Call} {applied : Bool}
    {u : UserId} (h : .changed c' u ∈ observe c db db' before applied after) :
    c' = c ∧ (db'.users u).committed ≠ (db.users u).committed := by
  rcases mem_observe.mp h with ⟨u', hu, he⟩ | ⟨_, he⟩ | he
  · cases he
    exact ⟨rfl, by simpa using (List.mem_filter.mp hu).2⟩
  · cases Call.mem_events he
  · rcases mem_returned he with ⟨_, he, _⟩ | ⟨_, _, _, he⟩ <;> cases he

theorem jwt_of_observe {c c' : CallId} {db db' : Db} {before after : Call} {applied : Bool}
    {token : JwtClaims} (h : .jwtIssued c' token ∈ observe c db db' before applied after) :
    after.jwt = some token := by
  rcases mem_observe.mp h with ⟨_, _, he⟩ | ⟨_, he⟩ | he
  · cases he
  · cases Call.mem_events he
  · rcases mem_returned he with ⟨_, he, hj⟩ | ⟨_, _, _, he⟩
    · cases he
      exact hj
    · cases he

theorem checked_of_observe {c c' : CallId} {db db' : Db} {before after : Call} {applied ok : Bool}
    {u : UserId} {v : Int} {current : Option Int}
    (h : .versionChecked c' u v ok current ∈ observe c db db' before applied after) :
    after = .checkTokenVersion (.done ok) ∧ current = db'.tokenVersion u ∧
      (before = .checkTokenVersion (.get u v) ∨ before = .checkTokenVersion (.find u v) ∨
        ∃ read, before = .checkTokenVersion (.set u v read)) := by
  rcases mem_observe.mp h with ⟨_, _, he⟩ | ⟨_, he⟩ | he
  · cases he
  · cases Call.mem_events he
  · unfold Call.returned at he
    split at he
    · cases List.mem_singleton.mp he
      exact ⟨rfl, rfl, .inl rfl⟩
    · cases List.mem_singleton.mp he
      exact ⟨rfl, rfl, .inr (.inl rfl)⟩
    · cases List.mem_singleton.mp he
      exact ⟨rfl, rfl, .inr (.inr ⟨_, rfl⟩)⟩
    · obtain ⟨_, _, he⟩ := List.mem_map.mp he
      cases he

/-! ## Steps -/

structure World where
  db : Db
  calls : List Call := []
  ticks : Nat := 0
  trace : List (Nat × Event) := []

/-- What one step reads from outside. -/
structure Input where
  now : Time := 0
  code : String := ""
  newId : UserId := 0
  emailConfigured : Bool := true
  sendOk : Bool := true
  /-- The statement fails: a lost connection, a deadlock, Redis down. -/
  fails : Bool := false

def Input.env (input : Input) (salt : Nat) : Env :=
  ⟨input.now, salt, input.code, input.newId, input.emailConfigured, input.sendOk⟩

inductive Label where
  | invoke (call : Call)
  | exec (c : CallId) (input : Input)
  | expire (key : CacheKey)

namespace World

def join (w : World) (call : Call) : World :=
  { w with calls := w.calls ++ [call], ticks := w.ticks + 1 }

def after (w : World) (c : CallId) (before : Call) (applied : Bool) (call : Call) (db' : Db) :
    World where
  db := db'
  calls := w.calls.set c call
  ticks := w.ticks + 1
  trace := w.trace ++ (observe c w.db db' before applied call).map (w.ticks, ·)

/-- What a step adds to the events of a kind that only applied statements leave. -/
theorem filterMap_after {β : Type} {f : Event → Option β} {events : List β} {w : World}
    {c : CallId} {before call : Call} {applied : Bool} {db' : Db}
    (hchanged : ∀ u, f (.changed c u) = none) (hissued : ∀ token, f (.jwtIssued c token) = none)
    (hchecked : ∀ u v ok current, f (.versionChecked c u v ok current) = none)
    (hevents : (before.events c w.db db' call).filterMap f = events) :
    (w.after c before applied call db').trace.filterMap (fun (_, e) => f e) =
      w.trace.filterMap (fun (_, e) => f e) ++ if applied then events else [] := by
  have hreturned : ∀ e ∈ before.returned c db' call, f e = none := by
    intro e he
    rcases mem_returned he with ⟨token, rfl, -⟩ | ⟨u, v, ok, rfl⟩
    · exact hissued token
    · exact hchecked u v ok _
  have hobs := @filterMap_observe β f c w.db db' before call applied hchanged hreturned
  rw [hevents] at hobs
  simp only [after, List.filterMap_append, List.filterMap_map]
  exact congrArg _ hobs

def step (cfg : Settings) (w : World) : Label → Option World
  | .invoke call => if call.initial then some (w.join call) else none
  | .exec c input =>
    match w.calls[c]? with
    | none => none
    | some before =>
      match before.next cfg (input.env w.ticks) with
      | none => none
      | some ⟨stmt, k⟩ =>
        match w.db.exec c input.fails stmt with
        | none => none
        | some (db', reply) => some (w.after c before (stmt.applied reply) (k reply) db')
  | .expire key => some { w with db := w.db.expire key, ticks := w.ticks + 1 }

theorem mem_after {w : World} {c : CallId} {before call : Call} {applied : Bool} {db' : Db}
    {t : Nat} {e : Event} : (t, e) ∈ (w.after c before applied call db').trace ↔
      (t, e) ∈ w.trace ∨ t = w.ticks ∧ e ∈ observe c w.db db' before applied call := by
  simp only [after, List.mem_append, List.mem_map, Prod.mk.injEq]
  constructor
  · rintro (h | ⟨e', he, rfl, rfl⟩)
    · exact Or.inl h
    · exact Or.inr ⟨rfl, he⟩
  · rintro (h | ⟨rfl, he⟩)
    · exact Or.inl h
    · exact Or.inr ⟨e, he, rfl, rfl⟩

/-- Everything a step can do. -/
inductive Transition (cfg : Settings) (w : World) : Label → World → Prop
  | invoke {call : Call} (start : call.initial = true) :
      Transition cfg w (.invoke call) (w.join call)
  | exec {c : CallId} {input : Input} {before : Call} {stmt : Stmt}
      {k : Except DbErr stmt.Reply → Call} {db' : Db} {reply : Except DbErr stmt.Reply}
      (running : w.calls[c]? = some before)
      (issues : before.next cfg (input.env w.ticks) = some ⟨stmt, k⟩)
      (ran : w.db.exec c input.fails stmt = some (db', reply)) :
      Transition cfg w (.exec c input)
        (w.after c before (stmt.applied reply) (k reply) db')
  | expire {key : CacheKey} :
      Transition cfg w (.expire key) { w with db := w.db.expire key, ticks := w.ticks + 1 }

variable {cfg : Settings} {w w' : World} {l : Label}

theorem step_transition (h : w.step cfg l = some w') : Transition cfg w l w' := by
  cases l with
  | invoke call =>
    simp only [step] at h
    split at h
    · rename_i hi
      cases h
      exact .invoke hi
    · cases h
  | exec c input =>
    simp only [step] at h
    split at h
    · cases h
    · rename_i before hb
      split at h
      · cases h
      · rename_i stmt k hn
        split at h
        · cases h
        · rename_i db' reply hr
          cases h
          exact .exec hb hn hr
  | expire key =>
    cases h
    exact .expire

end World

end Webshelf
