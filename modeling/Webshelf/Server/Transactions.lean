import Webshelf.Server
import Webshelf.Store.Rows

/-!
# Open transactions on the users rows

What a call's transaction has made of the row it works on is determined by the
place the call has reached: `Call.Working.step` is the rule for one statement.
`Call.Writes` lists the UPDATE statements by the place that issues them, and
`Call.Commits` what each COMMIT makes of the row.
-/

namespace Webshelf

namespace Call

/-- The call has the row of user `u` in hand: `m` is the committed row and `v`
its own version of it. -/
def Working (u : UserId) (m v : UserModel) : Call → Prop
  | resetPassword (.refetch user _) | resetPassword (.revoke user _ _)
  | resetPassword (.revoking user _ _ _) | resetPassword (.commit user _ _) =>
    user.id = u ∧ m.passwordReset.hash.isSome = true ∧ v = { m with
      tokenVersion := m.tokenVersion + 1
      passwordHash := v.passwordHash
      updatedAt := v.updatedAt
      passwordReset := ⟨none, none, none, 0⟩ }
  | updateUser (.updateBumped id _ _ _) | changePassword (.update id _ _ _ _)
  | revokeAll (.commit id) =>
    id = u ∧ v = { m with tokenVersion := m.tokenVersion + 1 }
  | updateUser (.commit id) => id = u ∧ v = { m with
      tokenVersion := m.tokenVersion + 1
      email := v.email
      name := v.name
      role := v.role
      updatedAt := v.updatedAt }
  | changePassword (.revoke id _) | changePassword (.revoking id _ _)
  | changePassword (.commit id _) => id = u ∧ v = { m with
      tokenVersion := m.tokenVersion + 1
      passwordHash := v.passwordHash
      updatedAt := v.updatedAt }
  | modifyBalance (.update id target op newBalance _) =>
    id = u ∧ target = m ∧ op.newBalance m.balance = .ok newBalance ∧ v = m
  | modifyBalance (.commit id op _) => id = u ∧ op.newBalance m.balance = .ok v.balance ∧
    v = { m with balance := v.balance, updatedAt := v.updatedAt }
  | resetPassword (.abort _) | updateUser (.abort _) | changePassword (.abort _)
  | modifyBalance (.abort _) => v.id = m.id
  | _ => False

/-- The row a call's transaction has certainly written. -/
def locks : Call → Option UserId
  | resetPassword (.refetch user _) | resetPassword (.revoke user _ _)
  | resetPassword (.revoking user _ _ _) | resetPassword (.commit user _ _) => some user.id
  | updateUser (.commit id) | changePassword (.revoke id _) | changePassword (.revoking id _ _)
  | changePassword (.commit id _) | modifyBalance (.update id _ _ _ _)
  | modifyBalance (.commit id _ _) => some id
  | _ => none

/-- The row the call's transaction has bumped the version of, if it was still there. -/
def bumps : Call → Option UserId
  | updateUser (.updateBumped id _ _ _) | changePassword (.update id _ _ _ _) => some id
  | _ => none

/-- The row the call has found by its id and is going to write. -/
def reads : Call → Option UserId
  | updateUser (.bump id _ _ _) | updateUser (.updateBumped id _ _ _)
  | changePassword (.bump id _ _ _) | changePassword (.update id _ _ _ _) => some id
  | _ => none

/-- A row read by id stands under that id. -/
def Keyed : Call → Prop
  | updateUser (.bump id user _ _) | updateUser (.updateBumped id user _ _)
  | updateUser (.update id user _ _) | changePassword (.bump id user _ _)
  | changePassword (.update id user _ _ _) | modifyBalance (.update id user _ _ _) =>
    user.id = id
  | resetPassword (.revoke user _ updated) | resetPassword (.revoking user _ updated _)
  | resetPassword (.commit user _ updated) => updated.id = user.id
  | _ => True

/-- The UPDATE statements on the users table, by the place that issues them. -/
inductive Writes (cfg : Settings) (now : Time) : Call → Stmt → Prop
  | requestReset {user : UserModel} {email code : String} {h : Argon2} {sent : Time} :
      Writes cfg now (.requestReset (.store user email code h sent))
        (storeCode .passwordReset user.id h sent)
  | resendCode {user : UserModel} {email code : String} {h : Argon2} {sent : Time} :
      Writes cfg now (.resendCode (.store user email code h sent))
        (storeCode .verification user.id h sent)
  | sendVerification {user : UserModel} {email code : String} {h : Argon2} {sent : Time} :
      Writes cfg now (.sendVerification (.store user email code h sent))
        (sendVerificationModel user h sent |>.update .auto)
  | autoVerify {user : UserModel} {sent : Time} :
      Writes cfg now (.autoVerify (.update user sent)) (autoVerifyModel user sent |>.update .auto)
  | claimVerification {user : UserModel} {h : Argon2} {code : String} :
      Writes cfg now (.verifyEmail (.claim user h code))
        (incrementFailedAttempts .verification user.id)
  | verifyEmail {user : UserModel} {h : Argon2} {sent : Time} :
      Writes cfg now (.verifyEmail (.update user h sent))
        (verifyEmailModel user sent |>.update .auto)
  | claimReset {user : UserModel} {h : Argon2} {code newPassword : String} :
      Writes cfg now (.resetPassword (.claim user h code newPassword))
        (incrementFailedAttempts .passwordReset user.id)
  | resetPassword {user : UserModel} {h newHash : Argon2} :
      Writes cfg now (.resetPassword (.update user h newHash))
        (consumeResetCode user.id newHash now)
  | bumpRole {id : UserId} {user : UserModel} {input : UpdateUserInput} {sent : Time} :
      Writes cfg now (.updateUser (.bump id user input sent)) (bumpTokenVersion id)
  | updateRole {id : UserId} {user : UserModel} {input : UpdateUserInput} {sent : Time} :
      Writes cfg now (.updateUser (.updateBumped id user input sent))
        ((updateModel cfg user input sent).update .txn)
  | updateUser {id : UserId} {user : UserModel} {input : UpdateUserInput} {sent : Time} :
      Writes cfg now (.updateUser (.update id user input sent))
        ((updateModel cfg user input sent).update .auto)
  | bumpPassword {id : UserId} {user : UserModel} {newHash : Argon2} {remember : Bool} :
      Writes cfg now (.changePassword (.bump id user newHash remember)) (bumpTokenVersion id)
  | changePassword {id : UserId} {user : UserModel} {newHash : Argon2} {sent : Time}
      {remember : Bool} :
      Writes cfg now (.changePassword (.update id user newHash sent remember))
        ((changePasswordModel user newHash sent).update .txn)
  | bumpAll {id : UserId} : Writes cfg now (.revokeAll (.bump id)) (bumpTokenVersion id)
  | modifyBalance {id : UserId} {target : UserModel} {op : BalanceOp} {newBalance : Int64}
      {sent : Time} :
      Writes cfg now (.modifyBalance (.update id target op newBalance sent))
        ((balanceModel target newBalance sent).update .txn)
  | setOpenid {userId : UserId} {openid : Option String} :
      Writes cfg now (.setOpenid (.update userId openid)) (storeOpenid userId openid)

/-- The COMMITs on the users table: the call, the user, and what becomes of the row `m`. -/
inductive Commits (m : UserModel) : Call → UserId → UserModel → Prop
  | resetPassword {user updated : UserModel} {h passwordHash : Argon2} {updatedAt : Time}
      (asked : m.passwordReset.hash.isSome = true) :
      Commits m (.resetPassword (.commit user h updated)) user.id { m with
        tokenVersion := m.tokenVersion + 1
        passwordHash := passwordHash
        updatedAt := updatedAt
        passwordReset := ⟨none, none, none, 0⟩ }
  | updateUser {id : UserId} {email name role : String} {updatedAt : Time} :
      Commits m (.updateUser (.commit id)) id { m with
        tokenVersion := m.tokenVersion + 1
        email := email
        name := name
        role := role
        updatedAt := updatedAt }
  | changePassword {id : UserId} {remember : Bool} {passwordHash : Argon2} {updatedAt : Time} :
      Commits m (.changePassword (.commit id remember)) id { m with
        tokenVersion := m.tokenVersion + 1
        passwordHash := passwordHash
        updatedAt := updatedAt }
  | revokeAll {id : UserId} :
      Commits m (.revokeAll (.commit id)) id { m with tokenVersion := m.tokenVersion + 1 }
  | modifyBalance {id : UserId} {op : BalanceOp} {result : UserModel} {balance : Int64}
      {updatedAt : Time} (adjusts : op.newBalance m.balance = .ok balance) :
      Commits m (.modifyBalance (.commit id op result)) id { m with
        balance := balance
        updatedAt := updatedAt }

section
variable {cfg : Settings} {env : Env} {before : Call} {s : Stmt} {u : UserId}

theorem insert_issues {input : CreateUserInput} {actorRole : String}
    {k : Except DbErr s.Reply → Call}
    (h : next cfg env (.createUser (.insert input actorRole)) = some ⟨s, k⟩) :
    s = .skip ∨ ∃ role, roleForNewUser actorRole input.role = .ok role ∧
      s = .insertUser (newUser cfg env input role) := by
  simp only [next, Webshelf.createUser] at h
  split at h
  · cases h
    exact Or.inl rfl
  · split at h
    · cases h
      exact Or.inl rfl
    · rename_i role hr
      cases h
      exact Or.inr ⟨role, hr, rfl⟩

theorem next_writes {conn : Conn} {p : UserModel → Bool} {set : UserModel → UserModel}
    {k : Except DbErr (Option UserModel) → Call}
    (h : before.next cfg env = some ⟨.updateUser conn u p set, k⟩) :
    Writes cfg env.now before (.updateUser conn u p set) := by
  cases before with
  | requestReset q => cases q <;> cases h; exact .requestReset
  | resendCode q => cases q <;> cases h; exact .resendCode
  | sendVerification q => cases q <;> cases h; exact .sendVerification
  | autoVerify q => cases q <;> cases h; exact .autoVerify
  | verifyEmail q => cases q <;> cases h; exacts [.claimVerification, .verifyEmail]
  | resetPassword q => cases q <;> cases h; exacts [.claimReset, .resetPassword]
  | updateUser q => cases q <;> cases h; exacts [.bumpRole, .updateRole, .updateUser]
  | changePassword q => cases q <;> cases h; exacts [.bumpPassword, .changePassword]
  | revokeAll q => cases q <;> cases h; exact .bumpAll
  | modifyBalance q => cases q <;> cases h; exact .modifyBalance
  | setOpenid q => cases q <;> cases h; exact .setOpenid
  | createUser q =>
    cases q with
    | insert => rcases insert_issues h with h | ⟨_, _, h⟩ <;> cases h
    | invalidate | done => cases h
  | login q | wxLogin q | rotate q | logout q | getUser q | checkTokenVersion q | deleteUser q =>
    cases q <;> cases h

theorem next_lock {k : Except DbErr (Option UserModel) → Call}
    (h : before.next cfg env = some ⟨.selectUserForUpdate u, k⟩) :
    ∃ op role, before = .modifyBalance (.lock u op role) := by
  cases before with
  | modifyBalance q => cases q <;> cases h; exact ⟨_, _, rfl⟩
  | createUser q =>
    cases q with
    | insert => rcases insert_issues h with h | ⟨_, _, h⟩ <;> cases h
    | invalidate | done => cases h
  | requestReset q | resendCode q | sendVerification q | autoVerify q | verifyEmail q
  | resetPassword q | updateUser q | changePassword q | revokeAll q | login q | wxLogin q
  | rotate q | logout q | getUser q | setOpenid q | checkTokenVersion q | deleteUser q =>
    cases q <;> cases h

theorem next_insertUser {m : UserModel} {k : Except DbErr UserModel → Call}
    (h : before.next cfg env = some ⟨.insertUser m, k⟩) :
    ∃ input actorRole role, before = .createUser (.insert input actorRole) ∧
      roleForNewUser actorRole input.role = .ok role ∧ m = newUser cfg env input role := by
  cases before with
  | createUser q =>
    cases q with
    | insert input actorRole =>
      rcases insert_issues h with h | ⟨role, hr, h⟩
      · cases h
      · cases h
        exact ⟨input, actorRole, role, rfl, hr, rfl⟩
    | invalidate | done => cases h
  | requestReset q | resendCode q | sendVerification q | autoVerify q | verifyEmail q
  | resetPassword q | updateUser q | changePassword q | revokeAll q | login q | wxLogin q
  | rotate q | logout q | getUser q | setOpenid q | checkTokenVersion q | deleteUser q
  | modifyBalance q =>
    cases q <;> cases h

theorem next_deleteUser {p : UserModel → Bool} {k : Except DbErr Nat → Call}
    (h : before.next cfg env = some ⟨.deleteUser u p, k⟩) :
    ∃ role, before = .deleteUser (.delete u role) := by
  cases before with
  | deleteUser q => cases q <;> cases h; exact ⟨_, rfl⟩
  | createUser q =>
    cases q with
    | insert => rcases insert_issues h with h | ⟨_, _, h⟩ <;> cases h
    | invalidate | done => cases h
  | requestReset q | resendCode q | sendVerification q | autoVerify q | verifyEmail q
  | resetPassword q | updateUser q | changePassword q | revokeAll q | login q | wxLogin q
  | rotate q | logout q | getUser q | setOpenid q | checkTokenVersion q | modifyBalance q =>
    cases q <;> cases h

/-- What a transaction holds of a row follows the place its call has reached. -/
theorem Working.step {c : CallId} {k : Except DbErr s.Reply → Call}
    {reply : Except DbErr s.Reply} {r r' : Versioned CallId UserModel}
    (issues : before.next cfg env = some ⟨s, k⟩) (hk : before.Keyed)
    (hs : UserStep c u s reply r r')
    (hl : before.locks = some u → ∃ v, r.pending = some (c, v))
    (hb : before.bumps = some u → (∃ v, r.pending = some (c, v)) ∨ r.committed = none)
    (hw : ∀ v, r.pending = some (c, v) → ∃ m, r.committed = some m ∧ before.Working u m v) :
    ∀ v, r'.pending = some (c, v) → ∃ m, r'.committed = some m ∧ (k reply).Working u m v := by
  intro v hv
  cases hs with
  | commit => exact absurd hv Versioned.commit_released
  | rollback | fail => exact absurd hv Versioned.rollback_released
  | put _ _ _ _ | insert _ _ _ | delete _ _ _ => cases hv
  | lock free seen =>
    obtain ⟨op, role, rfl⟩ := next_lock issues
    cases issues
    rcases Versioned.pending_of_free free with hp | ⟨v', hp⟩
    · rw [Versioned.view_free hp] at seen
      cases hv
      refine ⟨_, seen, ?_⟩
      simp only []
      split
      · rfl
      · rfl
      · rename_i hop
        exact ⟨rfl, rfl, hop, rfl⟩
    · obtain ⟨m, _, h⟩ := hw v' hp
      exact h.elim
  | write free seen hp range =>
    have hW := next_writes issues
    rcases Versioned.pending_of_free free with hf | ⟨v', hf⟩
    · rw [Versioned.view_free hf] at seen
      cases hv
      refine ⟨_, seen, ?_⟩
      cases hW with
      | resetPassword => cases issues; exact ⟨rfl, hp, rfl⟩
      | bumpRole | bumpPassword | bumpAll => cases issues; exact ⟨rfl, rfl⟩
      | updateRole | changePassword =>
        rcases hb (congrArg some hk.symm) with ⟨v, h⟩ | h
        · rw [hf] at h; cases h
        · rw [seen] at h; cases h
      | modifyBalance =>
        obtain ⟨v, h⟩ := hl (congrArg some hk.symm)
        rw [hf] at h
        cases h
    · rw [Versioned.view_own hf] at seen
      obtain ⟨m, hm, h⟩ := hw v' hf
      cases seen
      cases hv
      refine ⟨m, hm, ?_⟩
      cases hW with
      | resetPassword | bumpRole | bumpPassword | bumpAll => exact h.elim
      | updateRole | changePassword =>
        obtain ⟨_, rfl⟩ := h
        cases issues
        exact ⟨hk.symm, rfl⟩
      | modifyBalance =>
        obtain ⟨_, rfl, hop, rfl⟩ := h
        cases issues
        exact ⟨hk.symm, hop, rfl⟩
  | miss unseen =>
    obtain ⟨m, hm, h⟩ := hw v hv
    refine ⟨m, hm, ?_⟩
    cases next_writes issues with
    | updateRole | changePassword =>
      cases issues
      exact (congrArg UserModel.id h.2 :)
    | modifyBalance =>
      cases issues
      exact (congrArg UserModel.id h.2.2.2 :)
    | _ => exact h.elim
  | stay live missed =>
    obtain ⟨m, hm, h⟩ := hw v hv
    refine ⟨m, hm, ?_⟩
    cases before with
    | resetPassword q =>
      cases q with
      | refetch =>
        cases issues
        rename_i reply
        cases reply with
        | none => exact (congrArg UserModel.id h.2.2 :)
        | some updated => exact h
      | revoke | revoking =>
        cases issues
        rename_i reply
        cases reply <;> exact h
      | commit | abort => cases issues; cases live
      | find | claim | update | done => exact h.elim
    | updateUser q =>
      cases q with
      | updateBumped =>
        cases issues
        exact absurd (congrArg some (hk.trans h.1)) missed
      | commit | abort => cases issues; cases live
      | find | bump | refetch | update | invalidate | done => exact h.elim
    | changePassword q =>
      cases q with
      | update =>
        cases issues
        exact absurd (congrArg some (hk.trans h.1)) missed
      | revoke | revoking =>
        cases issues
        rename_i reply
        cases reply <;> exact h
      | commit | abort => cases issues; cases live
      | find | bump | refetch | invalidate | done => exact h.elim
    | revokeAll q =>
      cases q with
      | commit => cases issues; cases live
      | revoke | revoking | bump | invalidate | done => exact h.elim
    | modifyBalance q =>
      cases q with
      | update =>
        cases issues
        exact absurd (congrArg some (hk.trans h.1)) missed
      | commit | abort => cases issues; cases live
      | lock | invalidate | done => exact h.elim
    | requestReset q | resendCode q | sendVerification q | autoVerify q | verifyEmail q | login q
    | wxLogin q | rotate q | logout q | getUser q | setOpenid q | checkTokenVersion q
    | createUser q | deleteUser q => exact h.elim

theorem Working.id_eq {m v : UserModel} (h : before.Working u m v) : v.id = m.id := by
  cases before with
  | resetPassword q =>
    cases q with
    | refetch | revoke | revoking | commit => exact (congrArg UserModel.id h.2.2 :)
    | abort => exact h
    | find | claim | update | done => exact h.elim
  | updateUser q =>
    cases q with
    | updateBumped | commit => exact (congrArg UserModel.id h.2 :)
    | abort => exact h
    | find | bump | refetch | update | invalidate | done => exact h.elim
  | changePassword q =>
    cases q with
    | update | revoke | revoking | commit => exact (congrArg UserModel.id h.2 :)
    | abort => exact h
    | find | bump | refetch | invalidate | done => exact h.elim
  | revokeAll q =>
    cases q with
    | commit => exact (congrArg UserModel.id h.2 :)
    | revoke | revoking | bump | invalidate | done => exact h.elim
  | modifyBalance q =>
    cases q with
    | update => exact (congrArg UserModel.id h.2.2.2 :)
    | commit => exact (congrArg UserModel.id h.2.2 :)
    | abort => exact h
    | lock | invalidate | done => exact h.elim
  | requestReset q | resendCode q | sendVerification q | autoVerify q | verifyEmail q | login q
  | wxLogin q | rotate q | logout q | getUser q | setOpenid q | checkTokenVersion q
  | createUser q | deleteUser q => exact h.elim

theorem Working.commits {m v : UserModel} {k : Except DbErr Unit → Call}
    (issues : before.next cfg env = some ⟨.commit, k⟩) (h : before.Working u m v) :
    Commits m before u v := by
  cases before with
  | resetPassword q =>
    cases q with
    | commit =>
      obtain ⟨rfl, asked, hv⟩ := h
      rw [hv]
      exact .resetPassword asked
    | find | claim | update | refetch | revoke | revoking | abort | done => cases issues
  | updateUser q =>
    cases q with
    | commit =>
      obtain ⟨rfl, hv⟩ := h
      rw [hv]
      exact .updateUser
    | find | bump | updateBumped | refetch | update | invalidate | abort | done => cases issues
  | changePassword q =>
    cases q with
    | commit =>
      obtain ⟨rfl, hv⟩ := h
      rw [hv]
      exact .changePassword
    | find | bump | update | revoke | revoking | refetch | invalidate | abort | done =>
      cases issues
  | revokeAll q =>
    cases q with
    | commit =>
      obtain ⟨rfl, hv⟩ := h
      rw [hv]
      exact .revokeAll
    | revoke | revoking | bump | invalidate | done => cases issues
  | modifyBalance q =>
    cases q with
    | commit =>
      obtain ⟨rfl, adjusts, hv⟩ := h
      rw [hv]
      exact .modifyBalance adjusts
    | lock | update | invalidate | abort | done => cases issues
  | requestReset q | resendCode q | sendVerification q | autoVerify q | verifyEmail q | login q
  | wxLogin q | rotate q | logout q | getUser q | setOpenid q | checkTokenVersion q
  | createUser q | deleteUser q =>
    exact h.elim

section
variable {c : CallId} {k : Except DbErr s.Reply → Call} {reply : Except DbErr s.Reply}
  {r r' : Versioned CallId UserModel}

theorem locks_step (issues : before.next cfg env = some ⟨s, k⟩) (hk : before.Keyed)
    (hs : UserStep c u s reply r r')
    (hl : before.locks = some u → ∃ v, r.pending = some (c, v))
    (hn : (k reply).locks = some u) : ∃ v, r'.pending = some (c, v) := by
  cases before with
  | resetPassword q =>
    cases q with
    | update =>
      cases issues
      rcases reply with e | _ | updated
      · cases hn
      · cases hn
      · cases hn
        exact hs.held
    | refetch | revoke | revoking =>
      cases issues
      cases hs with
      | fail => cases hn
      | stay _ missed =>
        dsimp only [deleted] at hn
        split at hn <;> first | exact hl hn | cases hn
    | find | claim | commit | abort =>
      cases issues
      dsimp only at hn
      (repeat' split at hn) <;> cases hn
    | done => cases issues
  | updateUser q =>
    cases q with
    | updateBumped =>
      cases issues
      rcases reply with e | _ | updated
      · cases hn
      · cases hn
      · cases hn
        cases hk
        exact hs.held
    | find | bump | commit | refetch | update | abort | invalidate =>
      cases issues
      dsimp only at hn
      (repeat' split at hn) <;> cases hn
    | done => cases issues
  | changePassword q =>
    cases q with
    | update =>
      cases issues
      rcases reply with e | _ | updated
      · cases hn
      · cases hn
      · cases hn
        cases hk
        exact hs.held
    | revoke | revoking =>
      cases issues
      cases hs with
      | fail => cases hn
      | stay _ missed =>
        dsimp only [deleted] at hn
        split at hn <;> first | exact hl hn | cases hn
    | find | bump | commit | refetch | abort | invalidate =>
      cases issues
      dsimp only at hn
      (repeat' split at hn) <;> cases hn
    | done => cases issues
  | modifyBalance q =>
    cases q with
    | lock =>
      cases issues
      rcases reply with e | _ | m
      · cases hn
      · cases hn
      · dsimp only at hn
        split at hn <;> cases hn
        exact hs.locked
    | update =>
      cases issues
      rcases reply with e | _ | updated
      · cases hn
      · cases hn
      · cases hn
        cases hk
        exact hs.held
    | commit | invalidate | abort =>
      cases issues
      dsimp only at hn
      (repeat' split at hn) <;> cases hn
    | done => cases issues
  | requestReset q | resendCode q | sendVerification q | autoVerify q | verifyEmail q | login q
  | wxLogin q | rotate q | revokeAll q | logout q | getUser q | setOpenid q | checkTokenVersion q
  | createUser q | deleteUser q =>
    obtain ⟨k', _, rfl⟩ := Next.map_some issues
    cases hn

/-- A bump that found no row found none there. -/
theorem bumps_step (issues : before.next cfg env = some ⟨s, k⟩)
    (hs : UserStep c u s reply r r') (hn : (k reply).bumps = some u) :
    (∃ v, r'.pending = some (c, v)) ∨ r'.committed = none := by
  cases before with
  | updateUser q =>
    cases q with
    | bump =>
      cases issues
      rcases reply with e | updated
      · cases hn
      · cases hn
        exact hs.held_or_absent
    | find | updateBumped | commit | refetch | update | abort | invalidate =>
      cases issues
      dsimp only at hn
      (repeat' split at hn) <;> cases hn
    | done => cases issues
  | changePassword q =>
    cases q with
    | bump =>
      cases issues
      rcases reply with e | updated
      · cases hn
      · cases hn
        exact hs.held_or_absent
    | find | update | revoke | revoking | commit | refetch | abort | invalidate =>
      cases issues
      dsimp only [deleted] at hn
      (repeat' split at hn) <;> cases hn
    | done => cases issues
  | resetPassword q | modifyBalance q | requestReset q | resendCode q | sendVerification q
  | autoVerify q | verifyEmail q | login q | wxLogin q | rotate q | revokeAll q | logout q
  | getUser q | setOpenid q | checkTokenVersion q | createUser q | deleteUser q =>
    obtain ⟨k', _, rfl⟩ := Next.map_some issues
    cases hn

theorem reads_step (issues : before.next cfg env = some ⟨s, k⟩) (hn : (k reply).reads = some u) :
    before.reads = some u ∨ s.found reply = some u := by
  cases before with
  | updateUser q =>
    cases q with
    | find =>
      cases issues
      dsimp only at hn
      (repeat' split at hn) <;> first | exact Or.inr hn | cases hn
    | bump =>
      cases issues
      dsimp only at hn
      split at hn <;> first | exact Or.inl hn | cases hn
    | updateBumped | commit | refetch | update | abort | invalidate =>
      cases issues
      dsimp only at hn
      (repeat' split at hn) <;> cases hn
    | done => cases issues
  | changePassword q =>
    cases q with
    | find =>
      cases issues
      dsimp only at hn
      (repeat' split at hn) <;> first | exact Or.inr hn | cases hn
    | bump =>
      cases issues
      dsimp only at hn
      split at hn <;> first | exact Or.inl hn | cases hn
    | update | revoke | revoking | commit | refetch | abort | invalidate =>
      cases issues
      dsimp only [deleted] at hn
      (repeat' split at hn) <;> cases hn
    | done => cases issues
  | resetPassword q | modifyBalance q | requestReset q | resendCode q | sendVerification q
  | autoVerify q | verifyEmail q | login q | wxLogin q | rotate q | revokeAll q | logout q
  | getUser q | setOpenid q | checkTokenVersion q | createUser q | deleteUser q =>
    obtain ⟨k', _, rfl⟩ := Next.map_some issues
    cases hn

/-- Only a row that was found is bumped before it is written. -/
theorem reads_of_bumps (h : before.bumps = some u) : before.reads = some u := by
  cases before with
  | updateUser q => cases q <;> first | exact h | cases h
  | changePassword q => cases q <;> first | exact h | cases h
  | _ => cases h

theorem idle (h : before.initial = true) : before.locks = none ∧ before.bumps = none ∧
    before.reads = none ∧ before.Keyed := by
  cases before <;> rename_i q <;> cases q <;> first | exact ⟨rfl, rfl, rfl, trivial⟩ | cases h

theorem keyed_step (issues : before.next cfg env = some ⟨s, k⟩) (hk : before.Keyed)
    (hr : s.Keyed reply) : (k reply).Keyed := by
  cases before with
  | resetPassword q =>
    cases q with
    | refetch =>
      cases issues
      dsimp only
      split
      · trivial
      · trivial
      · exact hr
    | revoke | revoking =>
      cases issues
      dsimp only [deleted]
      split
      · trivial
      · exact hk
      · exact hk
    | find | claim | update | commit | abort =>
      cases issues
      dsimp only
      (repeat' split) <;> trivial
    | done => cases issues
  | updateUser q =>
    cases q with
    | find =>
      cases issues
      dsimp only
      (repeat' split) <;> first | exact hr | trivial
    | bump =>
      cases issues
      dsimp only
      split
      · trivial
      · exact hk
    | updateBumped | commit | refetch | update | abort | invalidate =>
      cases issues
      dsimp only
      (repeat' split) <;> trivial
    | done => cases issues
  | changePassword q =>
    cases q with
    | find =>
      cases issues
      dsimp only
      (repeat' split) <;> first | exact hr | trivial
    | bump =>
      cases issues
      dsimp only
      split
      · trivial
      · exact hk
    | update | revoke | revoking | commit | refetch | abort | invalidate =>
      cases issues
      dsimp only [deleted]
      (repeat' split) <;> trivial
    | done => cases issues
  | modifyBalance q =>
    cases q with
    | lock =>
      cases issues
      dsimp only
      (repeat' split) <;> first | exact hr | trivial
    | update | commit | invalidate | abort =>
      cases issues
      dsimp only
      (repeat' split) <;> trivial
    | done => cases issues
  | requestReset q | resendCode q | sendVerification q | autoVerify q | verifyEmail q | login q
  | wxLogin q | rotate q | revokeAll q | logout q | getUser q | setOpenid q | checkTokenVersion q
  | createUser q | deleteUser q =>
    obtain ⟨k', _, rfl⟩ := Next.map_some issues
    trivial

end

end

end Call

end Webshelf
