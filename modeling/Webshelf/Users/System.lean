import Webshelf.Users.Versions

/-!
# System accounts

No operation makes a row one of role `system` or takes that role from it, and
none writes the email, the name or the balance of such a row: `update_user`,
`delete_user` and the balance functions refuse a row they read as `system`, and
a row that was read as another one does not become `system` before it is
written.
-/

namespace Webshelf

/-- Email, name and balance of a system account. -/
def UserModel.systemFields (m : UserModel) : Option (String × String × Int64) :=
  if m.role = "system" then some (m.email, m.name, m.balance) else none

theorem UserModel.systemFields_none {m : UserModel} (h : m.role ≠ "system") :
    m.systemFields = none := if_neg h

theorem UserModel.role_of_systemFields {m : UserModel} (h : m.systemFields = none) :
    m.role ≠ "system" := fun he => by
  rw [systemFields, if_pos he] at h
  cases h

/-- The row a SELECT by id returned, with FOR UPDATE or without. -/
def Stmt.fetched : (s : Stmt) → Except DbErr s.Reply → Option UserModel
  | .selectUserById _, .ok found | .selectUserForUpdate _, .ok found => found
  | _, _ => none

namespace Call

/-- The row the call has checked and is going to write or delete. -/
def targets : Call → Option UserId
  | updateUser (.bump id _ _ _) | updateUser (.updateBumped id _ _ _) | updateUser (.commit id)
  | updateUser (.update id _ _ _) | deleteUser (.delete id _) | modifyBalance (.update id _ _ _ _)
  | modifyBalance (.commit id _ _) => some id
  | _ => none

/-- The role `update_user` is going to write, if it was given one. -/
def asksRole : Call → Option String
  | updateUser (.bump _ _ input _) | updateUser (.updateBumped _ _ input _)
  | updateUser (.update _ _ input _) => input.role
  | _ => none

section
variable {cfg : Settings} {env : Env} {before : Call} {s : Stmt} {u : UserId} {c : CallId}
  {k : Except DbErr s.Reply → Call} {reply : Except DbErr s.Reply} {m v : UserModel}

/-- An UPDATE outside any transaction keeps the fields, or is that of `update_user`. -/
theorem Writes.systemFields {now : Time} {p : UserModel → Bool} {set : UserModel → UserModel}
    (h : Writes cfg now before (.updateUser .auto u p set)) (hk : before.Keyed) (m : UserModel) :
    (set m).systemFields = m.systemFields ∨
      before.targets = some u ∧ (set m).role = before.asksRole.getD m.role := by
  cases h with
  | updateUser =>
    rename_i id user input sent
    refine Or.inr ⟨congrArg some hk.symm, ?_⟩
    simp only [ActiveModel.write, updateModel, asksRole]
    cases input.role <;> rfl
  | requestReset | resendCode | sendVerification | autoVerify | claimVerification | verifyEmail
  | claimReset | setOpenid => exact Or.inl rfl

/-- A COMMIT keeps the fields, or is one of a checked row. -/
theorem Working.systemFields {k : Except DbErr Unit → Call}
    (issues : before.next cfg env = some ⟨.commit, k⟩) (h : before.Working u m v) :
    v.systemFields = m.systemFields ∨ before = .updateUser (.commit u) ∨
      before.targets = some u ∧ v.role = m.role := by
  cases h.commits issues with
  | updateUser => exact Or.inr (.inl rfl)
  | modifyBalance => exact Or.inr (.inr ⟨rfl, rfl⟩)
  | resetPassword | changePassword | revokeAll => exact Or.inl rfl

theorem role_of_new {actorRole role : String} {asked : Option String}
    (h : roleForNewUser actorRole asked = .ok role) : role ≠ "system" := by
  unfold roleForNewUser at h
  split at h
  · dsimp only at h
    split at h
    · cases h
    · rename_i hr
      cases h
      intro he
      rw [he] at hr
      exact hr (by decide)
  · split at h
    · split at h
      · cases h
      · cases h
        decide
    · cases h
      decide

theorem role_of_check {user : UserModel} {input : UpdateUserInput} {actorRole role : String}
    (h : checkUpdate user input actorRole = .ok ()) (hr : input.role = some role) :
    role ≠ "system" := by
  unfold checkUpdate at h
  (repeat' split at h) <;> cases h
  rename_i hn
  rintro rfl
  simp [hr] at hn

theorem check_update_role {user : UserModel} {input : UpdateUserInput} {actorRole : String}
    (h : checkUpdate user input actorRole = .ok ()) : user.role ≠ "system" := by
  unfold checkUpdate at h
  split at h
  · cases h
  · assumption

theorem check_delete_role {id actorId : UserId} {target : UserModel} {actorRole : String}
    (h : checkDelete id target actorRole actorId = .ok ()) : target.role ≠ "system" := by
  unfold checkDelete at h
  (repeat' split at h) <;> cases h
  assumption

theorem check_balance_role {target : UserModel} {actorRole : String}
    (h : checkBalanceRbac target actorRole = .ok ()) : target.role ≠ "system" := by
  unfold checkBalanceRbac at h
  split at h
  · cases h
  · assumption

/-- A call targets a row it has just read, and not as that of a system account. -/
theorem targets_step (issues : before.next cfg env = some ⟨s, k⟩) (hr : s.Keyed reply)
    (hn : (k reply).targets = some u) : before.targets = some u ∨
      ∃ m, s.fetched reply = some m ∧ m.id = u ∧ m.role ≠ "system" ∧
        ∀ u m v, ¬ before.Working u m v := by
  cases before with
  | updateUser q =>
    cases q with
    | find =>
      cases issues
      dsimp only at hn
      (repeat' split at hn) <;> cases hn
      all_goals exact Or.inr ⟨_, rfl, hr, check_update_role ‹_›, fun _ _ _ h => h⟩
    | bump | updateBumped =>
      cases issues
      dsimp only at hn
      split at hn <;> first | exact Or.inl hn | cases hn
    | commit | refetch | update | abort | invalidate =>
      cases issues
      dsimp only at hn
      (repeat' split at hn) <;> cases hn
    | done => cases issues
  | deleteUser q =>
    cases q with
    | find =>
      cases issues
      dsimp only at hn
      (repeat' split at hn) <;> cases hn
      exact Or.inr ⟨_, rfl, hr, check_delete_role ‹_›, fun _ _ _ h => h⟩
    | delete | invalidate =>
      cases issues
      dsimp only at hn
      (repeat' split at hn) <;> cases hn
    | done => cases issues
  | modifyBalance q =>
    cases q with
    | lock =>
      cases issues
      dsimp only at hn
      (repeat' split at hn) <;> cases hn
      exact Or.inr ⟨_, rfl, hr, check_balance_role ‹_›, fun _ _ _ h => h⟩
    | update =>
      cases issues
      dsimp only at hn
      split at hn <;> first | exact Or.inl hn | cases hn
    | commit | invalidate | abort =>
      cases issues
      dsimp only at hn
      (repeat' split at hn) <;> cases hn
    | done => cases issues
  | requestReset q | resendCode q | sendVerification q | autoVerify q | verifyEmail q | login q
  | resetPassword q | changePassword q | revokeAll q | wxLogin q | rotate q | logout q
  | getUser q | setOpenid q | checkTokenVersion q | createUser q =>
    obtain ⟨k', _, rfl⟩ := Next.map_some issues
    cases hn

/-- The role asked for has passed the checks. -/
theorem asksRole_step {role : String} (issues : before.next cfg env = some ⟨s, k⟩)
    (hn : (k reply).asksRole = some role) : before.asksRole = some role ∨ role ≠ "system" := by
  cases before with
  | updateUser q =>
    cases q with
    | find =>
      cases issues
      dsimp only at hn
      (repeat' split at hn) <;> first | exact Or.inr (role_of_check ‹_› hn) | cases hn
    | bump =>
      cases issues
      dsimp only at hn
      split at hn <;> first | exact Or.inl hn | cases hn
    | updateBumped | commit | refetch | update | abort | invalidate =>
      cases issues
      dsimp only at hn
      (repeat' split at hn) <;> cases hn
    | done => cases issues
  | requestReset q | resendCode q | sendVerification q | autoVerify q | verifyEmail q | login q
  | resetPassword q | changePassword q | revokeAll q | wxLogin q | rotate q | logout q
  | getUser q | setOpenid q | checkTokenVersion q | createUser q | deleteUser q
  | modifyBalance q =>
    obtain ⟨k', _, rfl⟩ := Next.map_some issues
    cases hn

/-- `update_user` commits a role it was asked for, or the one the row had. -/
theorem role_step {r r' : Versioned CallId UserModel}
    (issues : before.next cfg env = some ⟨s, k⟩) (hk : before.Keyed)
    (hs : UserStep c u s reply r r') (hn : k reply = .updateUser (.commit u))
    (hv : r'.pending = some (c, v)) :
    ∃ m, r.view c = some m ∧ v.role = before.asksRole.getD m.role ∧ before.targets = some u ∧
      before.bumps = some u := by
  cases before with
  | updateUser q =>
    cases q with
    | updateBumped id user input sent =>
      cases issues
      rcases reply with e | _ | m'
      · cases hn
      · cases hn
      · cases hn
        obtain rfl : user.id = u := hk
        cases hs with
        | stay _ missed => exact absurd rfl missed
        | @write _ m _ _ _ seen =>
          cases hv
          refine ⟨m, seen, ?_, rfl, rfl⟩
          simp only [ActiveModel.write, updateModel, asksRole]
          cases input.role <;> rfl
    | find | bump | commit | refetch | update | abort | invalidate =>
      cases issues
      dsimp only at hn
      (repeat' split at hn) <;> cases hn
    | done => cases issues
  | requestReset q | resendCode q | sendVerification q | autoVerify q | verifyEmail q | login q
  | resetPassword q | changePassword q | revokeAll q | wxLogin q | rotate q | logout q
  | getUser q | setOpenid q | checkTokenVersion q | createUser q | deleteUser q
  | modifyBalance q =>
    obtain ⟨k', _, rfl⟩ := Next.map_some issues
    cases hn

end

end Call

namespace World

/-- The system accounts, each with the fields that must not change. -/
def systemRows (w : World) (u : UserId) : Option (String × String × Int64) :=
  (w.db.users u).committed.bind UserModel.systemFields

/-- No call is about to write or delete the row of a system account, or to write that role. -/
structure Spared (w : World) : Prop where
  targets : ∀ (c : CallId) (call : Call) u, w.calls[c]? = some call → call.targets = some u →
    w.systemRows u = none
  asks : ∀ (c : CallId) (call : Call) role, w.calls[c]? = some call →
    call.asksRole = some role → role ≠ "system"
  commits : ∀ (c : CallId) u v, w.calls[c]? = some (.updateUser (.commit u)) →
    (w.db.users u).pending = some (c, v) → v.role ≠ "system"

variable {cfg : Settings} {w₀ w w' : World} {l : Label} {c : CallId} {before : Call} {s : Stmt}
  {input : Input} {applied : Bool} {k : Except DbErr s.Reply → Call}
  {reply : Except DbErr s.Reply} {db' : Db} {u : UserId} {m : UserModel}

theorem Initial.spared (h0 : w.Initial) : w.Spared where
  targets c call u hc := by rw [h0.calls] at hc; cases hc
  asks c call role hc := by rw [h0.calls] at hc; cases hc
  commits c u v hc := by rw [h0.calls] at hc; cases hc

/-- The row that a call with nothing in hand reads by its id, locked or not, is the committed
one. -/
theorem Sound.fetched (hw : w.Sound) (running : w.calls[c]? = some before)
    (ran : w.db.exec c input.fails s = some (db', reply))
    (hn : ∀ u m v, ¬ before.Working u m v) (hg : s.fetched reply = some m) :
    (w.db.users m.id).committed = some m := by
  cases s with
  | selectUserById id =>
    rcases reply with e | found
    · cases hg
    · exact (hw.got running ran hn hg).2
  | selectUserForUpdate id =>
    rcases reply with e | found
    · cases hg
    · have hs := Db.exec_user ran id
      cases hg
      generalize db'.users id = r' at hs
      cases hs with
      | stay _ missed => exact absurd rfl missed
      | lock _ seen =>
        have hid := hw.view_id running seen
        rw [hw.view_eq running (hn id)] at seen
        exact hid ▸ seen
  | _ => cases hg

section
variable (hw : w.Sound) (hS : w.Spared) (running : w.calls[c]? = some before)
  (issues : before.next cfg (input.env w.ticks) = some ⟨s, k⟩)
  (ran : w.db.exec c input.fails s = some (db', reply))
include hw hS running issues ran

/-- No step changes the system accounts. -/
theorem systemRows_after :
    (w.after c before (s.applied reply) (k reply) db').systemRows = w.systemRows := by
  funext u
  have hrow := hw.row_step running issues ran u
  have htargets (m : UserModel) (hm : (w.db.users u).committed = some m)
      (ht : before.targets = some u) : m.role ≠ "system" := by
    have hn := hS.targets c before u running ht
    rw [systemRows, hm] at hn
    exact UserModel.role_of_systemFields hn
  change (db'.users u).committed.bind UserModel.systemFields =
    (w.db.users u).committed.bind UserModel.systemFields
  generalize ho' : (db'.users u).committed = o' at hrow
  generalize ho : (w.db.users u).committed = o at hrow htargets
  cases hrow with
  | same => rfl
  | @write m _ _ _ update =>
    rcases update.systemFields (hw.calls c before running) m with h | ⟨ht, hrole⟩
    · exact h
    · have hm := htargets m rfl ht
      have hnew : before.asksRole.getD m.role ≠ "system" := by
        cases ha : before.asksRole with
        | none => exact hm
        | some role => exact hS.asks c before role running ha
      exact (UserModel.systemFields_none (hrole ▸ hnew)).trans
        (UserModel.systemFields_none hm).symm
  | @commit m v _ ok issues' work =>
    rcases work.systemFields issues' with h | rfl | ⟨ht, hrole⟩
    · exact h
    · -- the version `update_user` commits is the one it has written
      have hm := htargets m rfl rfl
      cases issues
      have hp := hw.pending_committed running rfl ran ok ho'
      exact (UserModel.systemFields_none (hS.commits c u _ running hp)).trans
        (UserModel.systemFields_none hm).symm
    · have hm := htargets m rfl ht
      exact (UserModel.systemFields_none (hrole ▸ hm)).trans (UserModel.systemFields_none hm).symm
  | insert _ _ _ hr => exact UserModel.systemFields_none (Call.role_of_new hr)
  | @delete m _ _ delete =>
    exact (UserModel.systemFields_none (htargets m rfl (by rw [delete]; rfl))).symm

theorem Spared.exec : (w.after c before (s.applied reply) (k reply) db').Spared := by
  have hrows := systemRows_after hw hS running issues ran
  constructor
  · intro o call u hc ht
    rw [hrows]
    by_cases ho : o = c
    · subst ho
      rw [after_self running] at hc
      cases hc
      rcases Call.targets_step issues (hw.keyed_reply running issues ran) ht with
        ht | ⟨m, hf, rfl, hrole, hn⟩
      · exact hS.targets o before u running ht
      · rw [systemRows, hw.fetched running ran hn hf]
        exact UserModel.systemFields_none hrole
    · rw [after_other ho] at hc
      exact hS.targets o call u hc ht
  · intro o call role hc ha
    by_cases ho : o = c
    · subst ho
      rw [after_self running] at hc
      cases hc
      rcases Call.asksRole_step issues ha with ha | hr
      · exact hS.asks o before role running ha
      · exact hr
    · rw [after_other ho] at hc
      exact hS.asks o call role hc ha
  · intro o u v hc hp
    change (db'.users u).pending = some (o, v) at hp
    by_cases ho : o = c
    · subst ho
      rw [after_self running] at hc
      obtain ⟨m, hv, hrole, ht, hb⟩ := Call.role_step issues (hw.calls o before running)
        (Db.exec_user ran u) (Option.some.inj hc) hp
      rw [hrole]
      cases ha : before.asksRole with
      | some role => exact hS.asks o before role running ha
      | none =>
        -- the row the UPDATE found has the role of the committed one
        have hnone := hS.targets o before u running ht
        rcases hw.bumped o before u running hb with ⟨v', hp'⟩ | hgone
        · rw [Versioned.view_own hp'] at hv
          cases hv
          obtain ⟨m', hm', hW⟩ := hw.own running m hp'
          rw [systemRows, hm'] at hnone
          have hsame : m.role = m'.role := by
            cases before with
            | updateUser q => cases q <;> cases hb; exact (congrArg UserModel.role hW.2 :)
            | changePassword q => cases q <;> cases ht
            | _ => cases hb
          exact hsame ▸ UserModel.role_of_systemFields hnone
        · cases hq : (w.db.users u).pending with
          | none =>
            rw [Versioned.view_free hq, hgone] at hv
            cases hv
          | some q => exact absurd hq (hw.not_pending hgone q.2)
    · rw [after_other ho] at hc
      have hs := (Db.exec_user ran u).toStep
      exact hS.commits o u v hc (hs.pending_other hp ho)

end

theorem Spared.step (hw : w.Sound) (hS : w.Spared) (ht : Transition cfg w l w') :
    w'.Spared ∧ w'.systemRows = w.systemRows := by
  cases ht with
  | exec running issues ran =>
    exact ⟨Spared.exec hw hS running issues ran, systemRows_after hw hS running issues ran⟩
  | expire => exact ⟨⟨hS.targets, hS.asks, hS.commits⟩, rfl⟩
  | @invoke call start =>
    have hidle : call.targets = none ∧ call.asksRole = none := by
      cases call <;> rename_i q <;> cases q <;> first | exact ⟨rfl, rfl⟩ | cases start
    refine ⟨⟨?_, ?_, ?_⟩, rfl⟩
    · intro c call' u hc ht
      rcases join_calls hc with hc | rfl
      · exact hS.targets c call' u hc ht
      · rw [hidle.1] at ht
        cases ht
    · intro c call' role hc ha
      rcases join_calls hc with hc | rfl
      · exact hS.asks c call' role hc ha
      · rw [hidle.2] at ha
        cases ha
    · intro c u v hc hp
      rcases join_calls hc with hc | rfl
      · exact hS.commits c u v hc hp
      · cases start

/-- The set of system accounts, and the email, name and balance of each, never change. -/
theorem system_accounts_unchanged (h0 : w₀.Initial)
    (h : Runs.Reaches (World.step cfg) Runs.Free w₀ w) : w.systemRows = w₀.systemRows := by
  have hI : w.Sound ∧ w.Spared ∧ w.systemRows = w₀.systemRows :=
    h.invariant (I := fun w => w.Sound ∧ w.Spared ∧ w.systemRows = w₀.systemRows)
      ⟨h0.sound, h0.spared, rfl⟩ fun _ _ _ ⟨hs, hS, he⟩ _ hstep =>
        have ht := step_transition hstep
        have ⟨hS', he'⟩ := hS.step hs ht
        ⟨hs.step ht, hS', he'.trans he⟩
  exact hI.2.2

/-! ## Every operation on a system account -/

/-- A system account and an account of its own making. -/
def seeded : World :=
  .ofRows [.registered 1 "root@example.com" "Passw0rd!" "system",
    .registered 2 "ada@example.com" "Passw0rd!" "user"] [] 1

theorem initial_seeded : seeded.Initial :=
  initial_ofRows fun m hm => by
    rcases List.mem_cons.mp hm with rfl | hm
    · exact UserModel.proper_registered
    · rw [List.mem_singleton.mp hm]
      exact UserModel.proper_registered

/-- Attempts on the system account, and a change of role of the other one. -/
def attempts : List Label :=
  [.invoke (.updateUser (.find 1 ⟨none, some "Eve", some "user"⟩ "system")),
    .invoke (.deleteUser (.find 1 "system" 2)),
    .invoke (.modifyBalance (adjustBalance 1 5 "system")),
    .invoke (.updateUser (.find 2 ⟨none, none, some "admin"⟩ "system")), .exec 3 {}, .exec 0 {},
    .exec 1 {}, .exec 2 {}, .exec 3 {}, .exec 3 {}, .exec 3 {}]

theorem system_accounts_unchanged_attempts :
    ((Runs.run (World.step .plain) Runs.Free seeded attempts).get (by decide)).systemRows =
      seeded.systemRows :=
  system_accounts_unchanged initial_seeded (Runs.reaches_run_get _)

end World

end Webshelf
