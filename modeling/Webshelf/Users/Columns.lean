import Webshelf.Server.Sound

/-!
# The columns of an account

Which statement of which call changes a column of a row, and what a call that
has been made for one row or one role still knows of it when it comes to that
statement.
-/

namespace Webshelf

/-- The columns that nobody may change without being entitled to. -/
inductive Column where
  | email
  | name
  | role
  | balance
  | passwordHash
  | tokenVersion
  | wxOpenid
  deriving DecidableEq

/-- The column is the same in both rows. -/
def Column.Same (m m' : UserModel) : Column → Prop
  | email => m'.email = m.email
  | name => m'.name = m.name
  | role => m'.role = m.role
  | balance => m'.balance = m.balance
  | passwordHash => m'.passwordHash = m.passwordHash
  | tokenVersion => m'.tokenVersion = m.tokenVersion
  | wxOpenid => m'.wxOpenid = m.wxOpenid

namespace Call

/-- The row in which the next statement of the call may change the column. -/
def alters : Call → Column → Option UserId
  | updateUser (.update id _ _ _), .email | updateUser (.update id _ _ _), .name => some id
  | updateUser (.update id _ input _), .role => if input.role = none then none else some id
  | updateUser (.commit id), .email | updateUser (.commit id), .name
  | updateUser (.commit id), .role | updateUser (.commit id), .tokenVersion => some id
  | changePassword (.commit id _), .passwordHash
  | changePassword (.commit id _), .tokenVersion => some id
  | resetPassword (.commit user _ _), .passwordHash
  | resetPassword (.commit user _ _), .tokenVersion => some user.id
  | revokeAll (.commit id), .tokenVersion => some id
  | modifyBalance (.commit id _ _), .balance => some id
  | setOpenid (.update id _), .wxOpenid => some id
  | _, _ => none

/-- The calls that only a handler makes, for its user. -/
def byHandler : Call → Bool
  | createUser _ | updateUser _ | changePassword _ | revokeAll _ | deleteUser _
  | modifyBalance _ | setOpenid _ => true
  | _ => false

/-! ### What a call still knows of its start -/

/-- `update_user` for this row, with this input. -/
def Follows.updateUser (id : UserId) (input : UpdateUserInput) : UpdateUser → Prop
  | .find id' input' _ | .update id' _ input' _ => id' = id ∧ input' = input
  | .bump id' _ input' _ | .updateBumped id' _ input' _ =>
    id' = id ∧ input' = input ∧ input.role ≠ none
  | .commit id' => id' = id ∧ input.role ≠ none
  | _ => True

/-- `change_password` for this row. -/
def Follows.changePassword (id : UserId) : ChangePassword → Prop
  | .find id' _ _ _ | .bump id' _ _ _ | .update id' _ _ _ _ | .revoke id' _
  | .revoking id' _ _ | .commit id' _ => id' = id
  | _ => True

/-- `revoke_all_sessions` for this row. -/
def Follows.revokeAll (id : UserId) : RevokeAll → Prop
  | .revoke id' | .revoking id' _ | .bump id' | .commit id' => id' = id
  | _ => True

/-- `delete_user` for this row, by this actor. -/
def Follows.deleteUser (id : UserId) (actorRole : String) (actorId : UserId) : DeleteUser → Prop
  | .find id' actorRole' actorId' => id' = id ∧ actorRole' = actorRole ∧ actorId' = actorId
  | .delete id' actorRole' => id' = id ∧ actorRole' = actorRole ∧ id ≠ actorId
  | _ => True

/-- A balance function for this row. -/
def Follows.modifyBalance (id : UserId) : ModifyBalance → Prop
  | .lock id' _ _ | .update id' _ _ _ _ | .commit id' _ _ => id' = id
  | _ => True

/-- The call may have come to where it is from its start. -/
def Stems (start : Call) : Call → Prop
  | createUser q => ∃ input actorRole, start = createUser (.insert input actorRole) ∧
    ∀ input' actorRole', q = .insert input' actorRole' → input' = input ∧ actorRole' = actorRole
  | updateUser q => ∃ id input actorRole, start = updateUser (.find id input actorRole) ∧
    Follows.updateUser id input q
  | changePassword q => ∃ id currentPassword newPassword remember,
    start = changePassword (.find id currentPassword newPassword remember) ∧
      Follows.changePassword id q
  | revokeAll q => ∃ id, start = revokeAll (.revoke id) ∧ Follows.revokeAll id q
  | deleteUser q => ∃ id actorRole actorId, start = deleteUser (.find id actorRole actorId) ∧
    Follows.deleteUser id actorRole actorId q
  | modifyBalance q => ∃ id op actorRole, start = modifyBalance (.lock id op actorRole) ∧
    Follows.modifyBalance id q
  | setOpenid _ => ∃ id openid, start = setOpenid (.update id openid)
  | _ => False

section
variable {cfg : Settings} {env : Env} {before start : Call} {s : Stmt} {u : UserId}
  {k : Except DbErr s.Reply → Call} {reply : Except DbErr s.Reply} {m m' : UserModel}
  {applied : Bool} {col : Column}

/-- A column that a step has changed is one that its call alters. -/
theorem RowStep.alters (h : RowStep cfg env u before applied (some m) (some m'))
    (hk : before.Keyed) (hne : ¬ col.Same m m') : before.alters col = some u := by
  cases h with
  | same => cases col <;> exact absurd rfl hne
  | write ok update hp =>
    cases update with
    | @updateUser id user input sent =>
      obtain rfl : user.id = id := hk
      cases col with
      | email | name => rfl
      | role =>
        simp only [Column.Same, ActiveModel.write, updateModel] at hne
        cases hrole : input.role with
        | none => simp [hrole] at hne
        | some role =>
          have hasked : input.role ≠ none := by simp [hrole]
          exact if_neg hasked
      | balance | passwordHash | tokenVersion | wxOpenid => exact absurd rfl hne
    | setOpenid =>
      cases col with
      | wxOpenid => rfl
      | _ => exact absurd rfl hne
    | requestReset | resendCode | sendVerification | autoVerify | claimVerification | verifyEmail
    | claimReset => cases col <;> exact absurd rfl hne
  | commit ok issues work =>
    cases work.commits issues with
    | updateUser => cases col <;> first | rfl | exact absurd rfl hne
    | changePassword => cases col <;> first | rfl | exact absurd rfl hne
    | resetPassword => cases col <;> first | rfl | exact absurd rfl hne
    | revokeAll => cases col <;> first | rfl | exact absurd rfl hne
    | modifyBalance => cases col <;> first | rfl | exact absurd rfl hne

theorem stems_self (h : start.initial = true) (hby : start.byHandler = true) :
    start.Stems start := by
  cases start with
  | createUser q =>
    cases q with
    | insert input actorRole =>
      refine ⟨input, actorRole, rfl, ?_⟩
      rintro _ _ ⟨⟩
      exact ⟨rfl, rfl⟩
    | _ => cases h
  | updateUser q => cases q <;> first | exact ⟨_, _, _, rfl, rfl, rfl⟩ | cases h
  | changePassword q => cases q <;> first | exact ⟨_, _, _, _, rfl, rfl⟩ | cases h
  | revokeAll q => cases q <;> first | exact ⟨_, rfl, rfl⟩ | cases h
  | deleteUser q => cases q <;> first | exact ⟨_, _, _, rfl, rfl, rfl, rfl⟩ | cases h
  | modifyBalance q => cases q <;> first | exact ⟨_, _, _, rfl, rfl⟩ | cases h
  | setOpenid q => cases q <;> first | exact ⟨_, _, rfl⟩ | cases h
  | _ => cases hby

/-- The DELETE of an admin finds no row but that of a user. -/
theorem deleted_role {actorRole : String} {c : CallId} {r r' : Versioned CallId UserModel}
    (issues : next cfg env (.deleteUser (.delete u actorRole)) = some ⟨s, k⟩)
    (hs : UserStep c u s reply r r') (hm : r.committed = some m) (hgone : r'.committed = none) :
    actorRole = "admin" → m.role = "user" := by
  cases issues
  cases hs with
  | stay =>
    rw [hm] at hgone
    cases hgone
  | delete free seen hp =>
    cases hm.symm.trans seen
    exact of_decide_eq_true hp
  | fail =>
    rw [Versioned.rollback_committed, hm] at hgone
    cases hgone

/-- Only the system creates an admin. -/
theorem role_of_create {actorRole role : String} {asked : Option String}
    (h : roleForNewUser actorRole asked = .ok role) :
    role = "user" ∨ role = "admin" ∧ actorRole = "system" := by
  unfold roleForNewUser at h
  split at h
  · rename_i hsystem
    dsimp only at h
    split at h
    · cases h
    · rename_i hrole
      cases h
      rcases not_and_or.mp hrole with huser | hadmin
      · exact .inl (not_not.mp huser)
      · exact .inr ⟨not_not.mp hadmin, hsystem⟩
  · split at h
    · split at h
      · cases h
      · cases h
        exact .inl rfl
    · cases h
      exact .inl rfl

theorem byHandler_next (issues : before.next cfg env = some ⟨s, k⟩) :
    (k reply).byHandler = before.byHandler := by
  cases before <;>
  · obtain ⟨k', -, rfl⟩ := Next.map_some issues
    rfl

/-- `delete_user` refuses the account of its actor. -/
theorem other_of_check {id actorId : UserId} {target : UserModel} {actorRole : String}
    (h : checkDelete id target actorRole actorId = .ok ()) : id ≠ actorId := by
  unfold checkDelete at h
  split at h
  · cases h
  · assumption

theorem follows_updateUser {q : UpdateUser} {id : UserId} {input : UpdateUserInput}
    (h : Follows.updateUser id input q) {k : Except DbErr s.Reply → UpdateUser}
    (issues : Webshelf.updateUser cfg env q = some ⟨s, k⟩) :
    Follows.updateUser id input (k reply) := by
  cases q with
  | find =>
    obtain ⟨rfl, rfl⟩ := h
    cases issues
    dsimp only
    split
    · exact trivial
    · exact trivial
    · split
      · exact trivial
      · split
        · rename_i hchanged
          refine ⟨rfl, rfl, ?_⟩
          intro hnone
          simp [roleChanged, hnone] at hchanged
        · exact ⟨rfl, rfl⟩
  | bump =>
    cases issues
    dsimp only
    split
    · exact trivial
    · exact h
  | updateBumped =>
    cases issues
    dsimp only
    split
    · exact trivial
    · exact trivial
    · exact ⟨h.1, h.2.2⟩
  | commit | refetch | update | invalidate | abort =>
    cases issues
    dsimp only
    (repeat' split) <;> exact trivial
  | done => cases issues

theorem follows_changePassword {q : ChangePassword} {id : UserId}
    (h : Follows.changePassword id q) {k : Except DbErr s.Reply → ChangePassword}
    (issues : Webshelf.changePassword cfg env q = some ⟨s, k⟩) :
    Follows.changePassword id (k reply) := by
  cases q with
  | find | bump | update | revoke | revoking =>
    cases issues
    dsimp only [deleted]
    (repeat' split) <;> first | exact h | exact trivial
  | commit | refetch | invalidate | abort =>
    cases issues
    dsimp only
    (repeat' split) <;> exact trivial
  | done => cases issues

theorem follows_revokeAll {q : RevokeAll} {id : UserId} (h : Follows.revokeAll id q)
    {k : Except DbErr s.Reply → RevokeAll} (issues : revokeAllSessions q = some ⟨s, k⟩) :
    Follows.revokeAll id (k reply) := by
  cases q with
  | revoke | revoking | bump =>
    cases issues
    dsimp only [deleted]
    split <;> first | exact h | exact trivial
  | commit | invalidate =>
    cases issues
    dsimp only
    (repeat' split) <;> exact trivial
  | done => cases issues

theorem follows_deleteUser {q : DeleteUser} {id actorId : UserId} {actorRole : String}
    (h : Follows.deleteUser id actorRole actorId q) {k : Except DbErr s.Reply → DeleteUser}
    (issues : Webshelf.deleteUser q = some ⟨s, k⟩) :
    Follows.deleteUser id actorRole actorId (k reply) := by
  cases q with
  | find =>
    obtain ⟨rfl, rfl, rfl⟩ := h
    cases issues
    dsimp only
    split
    · exact trivial
    · exact trivial
    · split
      · exact trivial
      · rename_i hchecked
        exact ⟨rfl, rfl, other_of_check hchecked⟩
  | delete | invalidate =>
    cases issues
    dsimp only
    (repeat' split) <;> exact trivial
  | done => cases issues

theorem follows_modifyBalance {q : ModifyBalance} {id : UserId} (h : Follows.modifyBalance id q)
    {k : Except DbErr s.Reply → ModifyBalance}
    (issues : Webshelf.modifyBalance env q = some ⟨s, k⟩) :
    Follows.modifyBalance id (k reply) := by
  cases q with
  | lock | update =>
    cases issues
    dsimp only
    (repeat' split) <;> first | exact h | exact trivial
  | commit | invalidate | abort =>
    cases issues
    dsimp only
    (repeat' split) <;> exact trivial
  | done => cases issues

/-- An INSERT is issued once. -/
theorem insert_left {q : CreateUser} {k : Except DbErr s.Reply → CreateUser}
    (issues : Webshelf.createUser cfg env q = some ⟨s, k⟩) (input : CreateUserInput)
    (actorRole : String) : k reply ≠ .insert input actorRole := by
  cases q with
  | insert =>
    simp only [Webshelf.createUser] at issues
    split at issues
    · cases issues
      intro h
      cases h
    · split at issues
      · cases issues
        intro h
        cases h
      · cases issues
        dsimp only
        split <;> intro h <;> cases h
  | invalidate =>
    cases issues
    dsimp only
    split <;> intro h <;> cases h
  | done => cases issues

theorem stems_next (h : start.Stems before) (issues : before.next cfg env = some ⟨s, k⟩) :
    start.Stems (k reply) := by
  cases before with
  | createUser q =>
    obtain ⟨k', hnext, rfl⟩ := Next.map_some issues
    obtain ⟨input, actorRole, rfl, -⟩ := h
    exact ⟨input, actorRole, rfl, fun _ _ hq => absurd hq (insert_left hnext _ _)⟩
  | updateUser q =>
    obtain ⟨k', hnext, rfl⟩ := Next.map_some issues
    obtain ⟨id, input, actorRole, rfl, h⟩ := h
    exact ⟨id, input, actorRole, rfl, follows_updateUser h hnext⟩
  | changePassword q =>
    obtain ⟨k', hnext, rfl⟩ := Next.map_some issues
    obtain ⟨id, currentPassword, newPassword, remember, rfl, h⟩ := h
    exact ⟨id, _, _, _, rfl, follows_changePassword h hnext⟩
  | revokeAll q =>
    obtain ⟨k', hnext, rfl⟩ := Next.map_some issues
    obtain ⟨id, rfl, h⟩ := h
    exact ⟨id, rfl, follows_revokeAll h hnext⟩
  | deleteUser q =>
    obtain ⟨k', hnext, rfl⟩ := Next.map_some issues
    obtain ⟨id, actorRole, actorId, rfl, h⟩ := h
    exact ⟨id, _, _, rfl, follows_deleteUser h hnext⟩
  | modifyBalance q =>
    obtain ⟨k', hnext, rfl⟩ := Next.map_some issues
    obtain ⟨id, op, actorRole, rfl, h⟩ := h
    exact ⟨id, _, _, rfl, follows_modifyBalance h hnext⟩
  | setOpenid q =>
    obtain ⟨k', -, rfl⟩ := Next.map_some issues
    exact h
  | _ => cases h

end

end Call

end Webshelf
