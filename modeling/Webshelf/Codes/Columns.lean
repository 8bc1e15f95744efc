import Webshelf.Server.Sound

/-!
# The columns of an emailed code

What a step does to the four columns of a code (`Call.RowStep.code`), and which
hash a call has read or is about to store. Every hash is stored by one call
only and read after that (`World.Drawn`).
-/

namespace Webshelf

/-- A code of the kind can be presented: a verified address is not verified again. -/
def UserModel.presentable (m : UserModel) : CodeKind → Bool
  | .verification => !m.emailVerified
  | .passwordReset => true

namespace Call

/-- The code the call is about to store. -/
def issues : Call → Option (CodeKind × UserId × Argon2)
  | requestReset (.store user _ _ h _) => some (.passwordReset, user.id, h)
  | resendCode (.store user _ _ h _) | sendVerification (.store user _ _ h _) =>
    some (.verification, user.id, h)
  | _ => none

/-- The resend cooldown, where the function has one: the code in the row is old enough. -/
def cools (c : CodeColumns) : Call → Bool
  | requestReset (.store _ _ _ _ now) | resendCode (.store _ _ _ _ now) =>
    c.sentAt.all fun t => decide (t ≤ now - seconds RESEND_COOLDOWN_SECONDS)
  | _ => true

/-- The hash that the presented guess is compared with once it has taken a slot. -/
def claims : Call → Option (CodeKind × UserId × Argon2)
  | verifyEmail (.claim user h _) => some (.verification, user.id, h)
  | resetPassword (.claim user h _ _) => some (.passwordReset, user.id, h)
  | _ => none

/-- The hash the call has read. -/
def guess : Call → Option (CodeKind × UserId × Argon2)
  | verifyEmail (.claim user h _) | verifyEmail (.update user h _) =>
    some (.verification, user.id, h)
  | resetPassword (.claim user h _ _) | resetPassword (.update user h _)
  | resetPassword (.refetch user h) | resetPassword (.revoke user h _)
  | resetPassword (.revoking user h _ _) | resetPassword (.commit user h _) =>
    some (.passwordReset, user.id, h)
  | _ => none

/-- The code the call has read, in the row it has read it off. -/
def carries : Call → Option (CodeKind × UserModel × Argon2)
  | verifyEmail (.claim user h _) | verifyEmail (.update user h _) =>
    some (.verification, user, h)
  | resetPassword (.claim user h _ _) | resetPassword (.update user h _)
  | resetPassword (.refetch user h) | resetPassword (.revoke user h _)
  | resetPassword (.revoking user h _ _) | resetPassword (.commit user h _) =>
    some (.passwordReset, user, h)
  | _ => none

theorem guess_eq (call : Call) :
    call.guess = call.carries.map fun code => (code.1, code.2.1.id, code.2.2) := by
  cases call with
  | _ q => cases q <;> rfl

theorem carries_of_claims {call : Call} {kind : CodeKind} {u : UserId} {h : Argon2}
    (hc : call.claims = some (kind, u, h)) :
    ∃ m, call.carries = some (kind, m, h) ∧ m.id = u := by
  cases call with
  | verifyEmail q | resetPassword q =>
    cases q <;> cases hc
    exact ⟨_, rfl, rfl⟩
  | _ => cases hc

/-- The code the call is about to clear. -/
def clears : Call → Option (CodeKind × UserId)
  | verifyEmail (.update user _ _) => some (.verification, user.id)
  | resetPassword (.commit user _ _) => some (.passwordReset, user.id)
  | _ => none

/-- Everything a step can do to the columns of a code of user `u`. -/
inductive CodeStep (u : UserId) (kind : CodeKind) (before : Call) (applied : Bool) :
    Option CodeColumns → Option CodeColumns → Prop
  | same {o : Option CodeColumns} : CodeStep u kind before applied o o
  | count {c : CodeColumns} {h : Argon2} (ok : applied = true)
      (claims : before.claims = some (kind, u, h)) (room : c.failedAttempts < MAX_FAILED_ATTEMPTS) :
      CodeStep u kind before applied (some c)
        (some { c with failedAttempts := c.failedAttempts + 1 })
  | issue {c : CodeColumns} {h : Argon2} {expiresAt sentAt : Option Time} (ok : applied = true)
      (issues : before.issues = some (kind, u, h)) (cool : before.cools c = true) :
      CodeStep u kind before applied (some c) (some ⟨some h, expiresAt, sentAt, 0⟩)
  | clear {c : CodeColumns} (ok : applied = true) (clears : before.clears = some (kind, u)) :
      CodeStep u kind before applied (some c) (some .empty)
  | insert : CodeStep u kind before applied none (some .empty)
  | delete {c : CodeColumns} : CodeStep u kind before applied (some c) none

section
variable {cfg : Settings} {env : Env} {before : Call} {s : Stmt} {u : UserId}
  {applied : Bool} {o o' : Option UserModel} {k : Except DbErr s.Reply → Call}
  {reply : Except DbErr s.Reply} {kind : CodeKind} {h : Argon2} {m : UserModel}

theorem RowStep.code (hr : RowStep cfg env u before applied o o') (kind : CodeKind) :
    CodeStep u kind before applied (o.map fun m => m.code kind) (o'.map fun m => m.code kind) := by
  cases hr with
  | same => exact .same
  | insert =>
    cases kind <;> exact .insert
  | delete => exact .delete
  | write ok update hp =>
    cases update with
    | requestReset =>
      cases kind with
      | passwordReset => exact .issue ok rfl hp
      | verification => exact .same
    | resendCode =>
      cases kind with
      | passwordReset => exact .same
      | verification => exact .issue ok rfl hp
    | sendVerification =>
      cases kind with
      | passwordReset => exact .same
      | verification => exact .issue ok rfl rfl
    | claimVerification =>
      cases kind with
      | passwordReset => exact .same
      | verification => exact .count ok rfl (of_decide_eq_true hp)
    | claimReset =>
      cases kind with
      | passwordReset => exact .count ok rfl (of_decide_eq_true hp)
      | verification => exact .same
    | verifyEmail =>
      cases kind with
      | passwordReset => exact .same
      | verification => exact .clear ok rfl
    | autoVerify | updateUser | setOpenid => cases kind <;> exact .same
  | commit ok issues work =>
    cases work.commits issues with
    | resetPassword =>
      cases kind with
      | passwordReset => exact .clear ok rfl
      | verification => exact .same
    | updateUser | changePassword | revokeAll | modifyBalance => cases kind <;> exact .same

/-- A code is read off the row, in this step or before, and its slot is taken next. -/
theorem carries_step (hi : before.next cfg env = some ⟨s, k⟩)
    (hn : (k reply).carries = some (kind, m, h)) :
    (before.carries = some (kind, m, h) ∧ (k reply).claims = none) ∨
      before.carries = none ∧ s.picked reply = some m ∧ m.presentable kind = true ∧
        usableHash kind env.now m = some h := by
  cases before with
  | verifyEmail q =>
    cases q with
    | find =>
      cases hi
      dsimp only at hn
      (repeat' split at hn) <;> cases hn
      rename_i hv hu
      exact .inr ⟨rfl, rfl, by simpa [UserModel.presentable] using hv, hu⟩
    | claim | update =>
      cases hi
      dsimp only at hn ⊢
      (repeat' split at hn) <;> cases hn <;> exact .inl ⟨rfl, by simp [*, claims]⟩
    | done => cases hi
  | resetPassword q =>
    cases q with
    | find =>
      cases hi
      dsimp only at hn
      (repeat' split at hn) <;> cases hn
      rename_i hu
      exact .inr ⟨rfl, rfl, rfl, hu⟩
    | claim | update | refetch | revoke | revoking | commit | abort =>
      cases hi
      dsimp only [deleted] at hn ⊢
      (repeat' split at hn) <;> cases hn <;> exact .inl ⟨rfl, by simp [*, claims]⟩
    | done => cases hi
  | requestReset q | resendCode q | sendVerification q | modifyBalance q | updateUser q
  | changePassword q | autoVerify q | login q | wxLogin q | rotate q | revokeAll q | logout q
  | getUser q | setOpenid q | checkTokenVersion q | createUser q | deleteUser q =>
    obtain ⟨k', _, rfl⟩ := Next.map_some hi
    cases hn

/-- A call that has just read a hash has read it off the row in this step. -/
theorem claims_step (hi : before.next cfg env = some ⟨s, k⟩)
    (hn : (k reply).claims = some (kind, u, h)) : before.claims = none ∧
      ∃ m, s.picked reply = some m ∧ m.id = u ∧ usableHash kind env.now m = some h := by
  obtain ⟨m, hm, hid⟩ := carries_of_claims hn
  rcases carries_step hi hm with ⟨-, hnone⟩ | ⟨hfresh, hpick, -, hu⟩
  · rw [hnone] at hn
    cases hn
  · refine ⟨?_, m, hpick, hid, hu⟩
    cases hc : before.claims with
    | none => rfl
    | some x =>
      obtain ⟨m', hm', -⟩ := carries_of_claims hc
      rw [hfresh] at hm'
      cases hm'

theorem idle_code (h : before.initial = true) : before.issues = none ∧ before.guess = none := by
  cases before <;> rename_i q <;> cases q <;> first | exact ⟨rfl, rfl⟩ | cases h

/-- The column is cleared, or keeps its hash, or takes the one that is stored. -/
theorem CodeStep.hash_cases {p p' : Option CodeColumns} {c' : CodeColumns}
    (hs : CodeStep u kind before applied p p') (hp : p' = some c') :
    c'.hash = none ∨ (∃ c, p = some c ∧ c'.hash = c.hash) ∨
      ∃ c h, p = some c ∧ applied = true ∧ before.issues = some (kind, u, h) ∧
        before.cools c = true ∧ c'.hash = some h := by
  cases hs with
  | same => exact Or.inr (Or.inl ⟨c', hp, rfl⟩)
  | count => cases hp; exact Or.inr (Or.inl ⟨_, rfl, rfl⟩)
  | issue ok issues cool => cases hp; exact Or.inr (Or.inr ⟨_, _, rfl, ok, issues, cool, rfl⟩)
  | clear | insert => cases hp; exact Or.inl rfl
  | delete => cases hp

/-- A hash in the column stood there before, or was stored in this step. -/
theorem CodeStep.hash {p p' : Option CodeColumns} {c' : CodeColumns}
    (hs : CodeStep u kind before applied p p') (hp : p' = some c') (hh : c'.hash = some h) :
    (∃ c, p = some c ∧ c.hash = some h) ∨ applied = true ∧ before.issues = some (kind, u, h) := by
  rcases hs.hash_cases hp with hn | ⟨c, hc, he⟩ | ⟨_, _, _, ok, issues, _, he⟩
  · rw [hh] at hn; cases hn
  · exact Or.inl ⟨c, hc, he ▸ hh⟩
  · rw [hh] at he
    cases he
    exact Or.inr ⟨ok, issues⟩

/-- A code about to be stored was drawn in this step. -/
theorem issues_step (hi : before.next cfg env = some ⟨s, k⟩)
    (hn : (k reply).issues = some (kind, u, h)) : h.salt = env.salt := by
  cases before with
  | requestReset q | resendCode q | sendVerification q =>
    cases q with
    | find =>
      cases hi
      dsimp only at hn
      repeat' split at hn
      all_goals first | (cases hn; rfl) | cases hn
    | store =>
      cases hi
      dsimp only at hn
      (repeat' split at hn) <;> cases hn
    | done => cases hi
  | resetPassword q | modifyBalance q | updateUser q | changePassword q | autoVerify q
  | verifyEmail q | login q | wxLogin q | rotate q | revokeAll q | logout q | getUser q
  | setOpenid q | checkTokenVersion q | createUser q | deleteUser q =>
    obtain ⟨k', _, rfl⟩ := Next.map_some hi
    cases hn

/-- A hash the call has read it has read off the row, in this step or before. -/
theorem guess_step (hi : before.next cfg env = some ⟨s, k⟩)
    (hn : (k reply).guess = some (kind, u, h)) : before.guess = some (kind, u, h) ∨
      ∃ m, s.picked reply = some m ∧ m.id = u ∧ usableHash kind env.now m = some h := by
  rw [guess_eq, Option.map_eq_some_iff] at hn
  obtain ⟨⟨kind', m, h'⟩, hm, hx⟩ := hn
  cases hx
  rcases carries_step hi hm with ⟨hb, -⟩ | ⟨-, hpick, -, hu⟩
  · exact .inl (by rw [guess_eq, hb, Option.map_some])
  · exact .inr ⟨m, hpick, rfl, hu⟩

end

end Call

theorem hash_of_usable {kind : CodeKind} {now : Time} {m : UserModel} {h : Argon2}
    (hu : usableHash kind now m = some h) : (m.code kind).hash = some h := by
  unfold usableHash at hu
  split at hu
  · rename_i h' _ hh _
    split at hu
    · cases hu
    · cases hu
      exact hh
  · cases hu

end Webshelf
