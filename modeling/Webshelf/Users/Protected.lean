import Webshelf.Users.System

/-!
# Rows an admin must not touch

An actor of role `admin` is refused every row whose role is not `user`.
`delete_user` repeats the check in its DELETE and the balance functions lock the
row before they read it; `update_user` reads the row and writes it later, by its
id alone. As long as no row is taken from the role `user` while an admin's
`update_user` is between the two, no write of an admin hits another row.
-/

namespace Webshelf

namespace Call

/-- The role of the actor the call is made for. -/
def actorRole : Call → Option String
  | createUser (.insert _ actorRole) | updateUser (.find _ _ actorRole)
  | deleteUser (.find _ actorRole _) | modifyBalance (.lock _ _ actorRole) => some actorRole
  | getUser (.get _ actorRole) => actorRole
  | _ => none

/-- A place that a call of an admin can be at. -/
def ByAdmin : Call → Prop
  | updateUser (.find _ _ actorRole) | deleteUser (.find _ actorRole _)
  | deleteUser (.delete _ actorRole) | modifyBalance (.lock _ _ actorRole) => actorRole = "admin"
  | updateUser (.update _ _ _ _) | updateUser (.invalidate _ _ _) | updateUser (.done _)
  | deleteUser (.invalidate _ _) | deleteUser (.done _) | modifyBalance _ | createUser _
  | getUser _ => True
  | _ => False

/-- The row that `update_user` has read and is going to write as it finds it. -/
def edits : Call → Option UserId
  | updateUser (.update id _ _ _) => some id
  | _ => none

/-- The row that a balance function has locked. -/
def rebalances : Call → Option UserId
  | modifyBalance (.update id _ _ _ _) | modifyBalance (.commit id _ _) => some id
  | _ => none

section
variable {cfg : Settings} {env : Env} {before : Call} {s : Stmt} {u : UserId} {c : CallId}
  {k : Except DbErr s.Reply → Call} {reply : Except DbErr s.Reply} {m v : UserModel}

theorem byAdmin_of_actorRole (h : before.initial = true) (ha : before.actorRole = some "admin") :
    before.ByAdmin := by
  cases before with
  | updateUser q => cases q <;> first | exact Option.some.inj ha | cases h
  | deleteUser q => cases q <;> first | exact Option.some.inj ha | cases h
  | modifyBalance q => cases q <;> first | exact Option.some.inj ha | cases h
  | createUser q | getUser q => trivial
  | _ => cases ha

theorem check_update_admin {user : UserModel} {input : UpdateUserInput}
    (h : checkUpdate user input "admin" = .ok ()) :
    user.role = "user" ∧ roleChanged user input = false := by
  unfold checkUpdate at h
  (repeat' split at h) <;> cases h
  rename_i _ hrole hadmin hany
  have hr : user.role = "user" := by simpa using hrole
  refine ⟨hr, ?_⟩
  unfold roleChanged
  cases hi : input.role with
  | none => rfl
  | some role =>
    simp only [hi, Option.some.injEq, true_and, Option.any_some] at hadmin hany
    by_contra hne
    have huser : role ≠ "user" := by simpa [hr] using hne
    exact hany (by simp [huser, hadmin])

/-- An admin never gets to the change of a role. -/
theorem ByAdmin.step (issues : before.next cfg env = some ⟨s, k⟩) (hA : before.ByAdmin) :
    (k reply).ByAdmin := by
  cases before with
  | updateUser q =>
    cases q with
    | find =>
      cases issues
      dsimp only
      split
      · trivial
      · trivial
      · split
        · trivial
        · rename_i hc
          obtain rfl : _ = "admin" := hA
          rw [if_neg (by simp [(check_update_admin hc).2])]
          trivial
    | update | invalidate =>
      cases issues
      dsimp only
      (repeat' split) <;> trivial
    | done => cases issues
    | bump | updateBumped | commit | refetch | abort => exact hA.elim
  | deleteUser q =>
    cases q with
    | find =>
      cases issues
      dsimp only
      (repeat' split) <;> first | exact hA | trivial
    | delete | invalidate =>
      cases issues
      dsimp only
      (repeat' split) <;> trivial
    | done => cases issues
  | modifyBalance q =>
    cases q with
    | done => cases issues
    | lock | update | commit | invalidate | abort =>
      cases issues
      dsimp only
      (repeat' split) <;> trivial
  | createUser q | getUser q =>
    obtain ⟨k', _, rfl⟩ := Next.map_some issues
    trivial
  | requestReset q | resendCode q | sendVerification q | autoVerify q | verifyEmail q | login q
  | resetPassword q | changePassword q | revokeAll q | wxLogin q | rotate q | logout q
  | setOpenid q | checkTokenVersion q => exact hA.elim

theorem check_balance_admin {target : UserModel}
    (h : checkBalanceRbac target "admin" = .ok ()) : target.role = "user" := by
  unfold checkBalanceRbac at h
  (repeat' split at h) <;> cases h
  rename_i hrole _ _
  simpa using hrole

/-- What an admin edits has been read as a user's row. -/
theorem edits_step (issues : before.next cfg env = some ⟨s, k⟩) (hA : before.ByAdmin)
    (hr : s.Keyed reply) (hn : (k reply).edits = some u) :
    ∃ m, s.fetched reply = some m ∧ m.id = u ∧ m.role = "user" ∧
      ∀ u m v, ¬ before.Working u m v := by
  cases before with
  | updateUser q =>
    cases q with
    | find =>
      cases issues
      dsimp only at hn
      (repeat' split at hn) <;> cases hn
      obtain rfl : _ = "admin" := hA
      exact ⟨_, rfl, hr, (check_update_admin ‹_›).1, fun _ _ _ h => h⟩
    | update | invalidate =>
      cases issues
      dsimp only at hn
      (repeat' split at hn) <;> cases hn
    | done => cases issues
    | bump | updateBumped | commit | refetch | abort => exact hA.elim
  | requestReset q | resendCode q | sendVerification q | autoVerify q | verifyEmail q | login q
  | resetPassword q | changePassword q | revokeAll q | wxLogin q | rotate q | logout q
  | getUser q | setOpenid q | checkTokenVersion q | createUser q | deleteUser q
  | modifyBalance q =>
    obtain ⟨k', _, rfl⟩ := Next.map_some issues
    cases hn

/-- What an admin rebalances has been locked as a user's row. -/
theorem rebalances_step (issues : before.next cfg env = some ⟨s, k⟩) (hA : before.ByAdmin)
    (hr : s.Keyed reply) (hn : (k reply).rebalances = some u) : before.rebalances = some u ∨
      ∃ m, s.fetched reply = some m ∧ m.id = u ∧ m.role = "user" ∧
        ∀ u m v, ¬ before.Working u m v := by
  cases before with
  | modifyBalance q =>
    cases q with
    | lock =>
      cases issues
      dsimp only at hn
      (repeat' split at hn) <;> cases hn
      obtain rfl : _ = "admin" := hA
      exact Or.inr ⟨_, rfl, hr, check_balance_admin ‹_›, fun _ _ _ h => h⟩
    | update =>
      cases issues
      dsimp only at hn
      split at hn <;> first | exact Or.inl hn | cases hn
    | commit | invalidate | abort =>
      cases issues
      dsimp only at hn
      (repeat' split at hn) <;> cases hn
    | done => cases issues
  | requestReset q | resendCode q | sendVerification q | autoVerify q | verifyEmail q | login q
  | resetPassword q | changePassword q | revokeAll q | wxLogin q | rotate q | logout q
  | getUser q | setOpenid q | checkTokenVersion q | createUser q | deleteUser q | updateUser q =>
    obtain ⟨k', _, rfl⟩ := Next.map_some issues
    cases hn

theorem locks_of_rebalances (h : before.rebalances = some u) : before.locks = some u := by
  cases before with
  | modifyBalance q => cases q <;> exact h
  | _ => cases h

/-- What an admin's statement does to the committed row and its own copy of it. -/
theorem ByAdmin.writes {r r' : Versioned CallId UserModel} (hA : before.ByAdmin)
    (issues : before.next cfg env = some ⟨s, k⟩) (hk : before.Keyed)
    (hs : UserStep c u s reply r r')
    (hw : ∀ v, r.pending = some (c, v) → ∃ m, r.committed = some m ∧ before.Working u m v)
    (hm : r.committed = some m)
    (hc : r'.committed ≠ some m ∨ ∃ v, r'.pending = some (c, v) ∧ v ≠ m) :
    before.edits = some u ∨ before.rebalances = some u ∨ m.role = "user" := by
  -- a copy in hand that differs from the row belongs to a balance function
  have hcopy (v : UserModel) (hv : r.pending = some (c, v)) (hs : s ≠ .rollback)
      (hne : v ≠ m) : before.rebalances = some u := by
    obtain ⟨m', hm', hW⟩ := hw v hv
    rw [hm] at hm'
    cases hm'
    cases before with
    | modifyBalance q =>
      cases q with
      | update | commit => exact congrArg some hW.1
      | abort => cases issues; exact absurd rfl hs
      | lock | invalidate | done => exact hW.elim
    | updateUser q => cases q <;> first | exact hA.elim | exact hW.elim
    | resetPassword q | changePassword q | revokeAll q => exact hA.elim
    | _ => exact hW.elim
  cases hs with
  | stay live =>
    rcases hc with hc | ⟨v, hv, hne⟩
    · exact absurd hm hc
    · refine Or.inr (.inl (hcopy v hv (fun he => ?_) hne))
      subst he
      cases live
  | miss =>
    rcases hc with hc | ⟨v, hv, hne⟩
    · exact absurd hm hc
    · exact Or.inr (.inl (hcopy v hv nofun hne))
  | lock free seen =>
    obtain ⟨op, role, rfl⟩ := next_lock issues
    rcases hc with hc | ⟨v, hv, hne⟩
    · exact absurd hm hc
    · cases hv
      rcases Versioned.pending_of_free free with hp | ⟨v', hp⟩
      · rw [Versioned.view_free hp, hm] at seen
        cases seen
        exact absurd rfl hne
      · obtain ⟨_, _, hW⟩ := hw v' hp
        exact hW.elim
  | write =>
    cases next_writes issues with
    | modifyBalance => exact Or.inr (.inl (congrArg some hk.symm))
    | resetPassword | bumpRole | updateRole | bumpPassword | changePassword | bumpAll =>
      exact hA.elim
  | put =>
    cases next_writes issues with
    | updateUser => exact Or.inl (congrArg some hk.symm)
    | requestReset | resendCode | sendVerification | autoVerify | claimVerification | verifyEmail
    | claimReset | setOpenid => exact hA.elim
  | insert _ absent => rw [hm] at absent; cases absent
  | delete _ seen hp =>
    obtain ⟨role, rfl⟩ := next_deleteUser issues
    rw [hm] at seen
    cases seen
    cases issues
    exact Or.inr (.inr (of_decide_eq_true hp hA))
  | commit =>
    rcases hc with hc | ⟨v, hv, _⟩
    · by_cases hp : ∃ v, r.pending = some (c, v)
      · obtain ⟨v, hp⟩ := hp
        obtain ⟨m', _, hW⟩ := hw v hp
        cases before with
        | modifyBalance q =>
          cases q with
          | commit => exact Or.inr (.inl (congrArg some hW.1))
          | lock | update | invalidate | abort | done => cases issues
        | updateUser q => cases q <;> first | exact hA.elim | exact hW.elim
        | resetPassword q | changePassword q | revokeAll q => exact hA.elim
        | _ => exact hW.elim
      · rw [Versioned.commit_of_not_own fun v hv => hp ⟨v, hv⟩] at hc
        exact absurd hm hc
    · exact absurd hv Versioned.commit_released
  | rollback | fail =>
    rcases hc with hc | ⟨v, hv, _⟩
    · exact absurd (Versioned.rollback_committed.trans hm) hc
    · exact absurd hv Versioned.rollback_released

/-- A COMMIT keeps the role, or is that of `update_user`. -/
theorem Working.role {k : Except DbErr Unit → Call}
    (issues : before.next cfg env = some ⟨.commit, k⟩) (h : before.Working u m v) :
    v.role = m.role ∨ before = .updateUser (.commit u) := by
  cases h.commits issues with
  | updateUser => exact Or.inr rfl
  | resetPassword | changePassword | revokeAll | modifyBalance => exact Or.inl rfl

end

end Call

namespace World

/-- The row that the call's UPDATE or COMMIT is going to give another role than `user`. -/
def promotes (w : World) : Call → Option UserId
  | .updateUser (.update id _ input _) =>
    if input.role.any (· != "user") then some id else none
  | .updateUser (.commit id) =>
    if (w.db.users id).pending.any (fun q => q.2.role != "user") then some id else none
  | _ => none

variable {cfg : Settings} {w w' : World} {l : Label} {c : CallId} {before : Call} {s : Stmt}
  {input : Input} {k : Except DbErr s.Reply → Call} {reply : Except DbErr s.Reply} {db' : Db}
  {u : UserId} {m m' : UserModel}

/-- The row a call is about to write another role to, with that role. -/
def newRole (w : World) : Call → Option (UserId × String)
  | .updateUser (.update id _ input _) => input.role.map (id, ·)
  | .updateUser (.commit id) => (w.db.users id).pending.map fun q => (id, q.2.role)
  | _ => none

/-- A row keeps its role, unless the call gives it the one it is about to write. -/
theorem role_moves (hw : w.Sound) (running : w.calls[c]? = some before)
    (issues : before.next cfg (input.env w.ticks) = some ⟨s, k⟩)
    (ran : w.db.exec c input.fails s = some (db', reply))
    (hm : (w.db.users u).committed = some m) (hm' : (db'.users u).committed = some m') :
    m'.role = m.role ∨ s.applied reply = true ∧ w.newRole before = some (u, m'.role) := by
  have hrow := hw.row_step running issues ran u
  rw [hm, hm'] at hrow
  cases hrow with
  | same => exact Or.inl rfl
  | @write _ _ set ok update =>
    rcases update.role (m := m) with h | ⟨id, user, request, sent, role, rfl, hu, hrole, h⟩
    · exact Or.inl h
    · have hid : user.id = id := hw.calls c _ running
      refine Or.inr ⟨ok, ?_⟩
      simp [newRole, hrole, h, ← hid, hu]
  | commit ok issues' work =>
    rcases work.role issues' with h | rfl
    · exact Or.inl h
    · cases issues
      have hp := hw.pending_committed running rfl ran ok hm'
      exact Or.inr ⟨ok, by simp [newRole, hp]⟩

/-- The row of a user stays one, unless the call promotes it. -/
theorem role_after (hw : w.Sound) (running : w.calls[c]? = some before)
    (issues : before.next cfg (input.env w.ticks) = some ⟨s, k⟩)
    (ran : w.db.exec c input.fails s = some (db', reply))
    (hm : (w.db.users u).committed = some m) (hm' : (db'.users u).committed = some m')
    (hr : m.role = "user") :
    m'.role = "user" ∨ s.applied reply = true ∧ w.promotes before = some u := by
  rcases role_moves hw running issues ran hm hm' with h | ⟨ok, hnew⟩
  · exact Or.inl (h.trans hr)
  · by_cases hrole : m'.role = "user"
    · exact Or.inl hrole
    · refine Or.inr ⟨ok, ?_⟩
      unfold newRole at hnew
      split at hnew
      · obtain ⟨role, hrole', heq⟩ := Option.map_eq_some_iff.mp hnew
        obtain ⟨rfl, rfl⟩ := Prod.mk.inj heq
        simp [promotes, hrole', hrole]
      · obtain ⟨q, hp, heq⟩ := Option.map_eq_some_iff.mp hnew
        obtain ⟨rfl, hq⟩ := Prod.mk.inj heq
        simp [promotes, hp, hq, hrole]
      · cases hnew

end World

/-! ## Who makes the calls -/

/-- A world that remembers for each call the role of its actor, if it has one. -/
structure Acting where
  world : World
  roles : List (Option String) := []

namespace Acting

def step (cfg : Settings) (a : Acting) (l : Label) : Option Acting :=
  (a.world.step cfg l).map fun w =>
    { world := w, roles := match l with
      | .invoke call => a.roles ++ [call.actorRole]
      | _ => a.roles }

/-- No row is taken from the role `user` while an admin's `update_user` is between reading
and writing it. -/
def keepsEdited (a : Acting) : Label → Bool
  | .exec o input =>
    match (a.world.calls[o]?).bind a.world.promotes with
    | some u => input.fails || (List.range a.world.calls.length).all fun c =>
      !(a.roles[c]? == some (some "admin") && a.world.calls[c]?.bind Call.edits == some u)
    | none => true
  | _ => true

/-- A call of an admin changes only the rows of users, in the table or in its transaction. -/
def AdminsSpareOthers (cfg : Settings) (a : Acting) : Prop :=
  ∀ c input a' u m, a.roles[c]? = some (some "admin") → a.step cfg (.exec c input) = some a' →
    (a.world.db.users u).committed = some m →
    ((a'.world.db.users u).committed ≠ some m ∨
      ∃ v, (a'.world.db.users u).pending = some (c, v) ∧ v ≠ m) → m.role = "user"

structure Initial (a : Acting) : Prop where
  world : a.world.Initial
  roles : a.roles = []

structure Checked (a : Acting) : Prop where
  sound : a.world.Sound
  length : a.roles.length = a.world.calls.length
  byAdmin : ∀ (c : CallId) (call : Call), a.roles[c]? = some (some "admin") →
    a.world.calls[c]? = some call → call.ByAdmin
  edits : ∀ (c : CallId) (call : Call) u, a.roles[c]? = some (some "admin") →
    a.world.calls[c]? = some call → call.edits = some u → a.world.Since u fun m => m.role = "user"
  rebalances : ∀ (c : CallId) (call : Call) u, a.roles[c]? = some (some "admin") →
    a.world.calls[c]? = some call → call.rebalances = some u →
    a.world.Since u fun m => m.role = "user"

variable {cfg : Settings} {a₀ a a' : Acting} {w' : World} {l : Label} {c : CallId}
  {before : Call} {s : Stmt} {input : Input} {k : Except DbErr s.Reply → Call}
  {reply : Except DbErr s.Reply} {db' : Db} {u : UserId} {m : UserModel}

theorem Initial.checked (h0 : a.Initial) : a.Checked where
  sound := h0.world.sound
  length := by rw [h0.roles, h0.world.calls, List.length_nil, List.length_nil]
  byAdmin c call _ hc := by rw [h0.world.calls] at hc; cases hc
  edits c call u _ hc := by rw [h0.world.calls] at hc; cases hc
  rebalances c call u _ hc := by rw [h0.world.calls] at hc; cases hc

section
variable (hC : a.Checked) (running : a.world.calls[c]? = some before)
  (issues : before.next cfg (input.env a.world.ticks) = some ⟨s, k⟩)
  (ran : a.world.db.exec c input.fails s = some (db', reply))
include hC running issues ran

theorem Checked.kept {applied : Bool} (hs : a.world.Since u fun m => m.role = "user")
    (hp : s.applied reply = true → a.world.promotes before ≠ some u) :
    (a.world.after c before applied (k reply) db').Since u fun m => m.role = "user" :=
  World.Since.after hC.sound ran hs fun _ _ hm hm' hr => by
    rcases World.role_after hC.sound running issues ran hm hm' hr with h | ⟨ok, hpro⟩
    · exact h
    · exact absurd hpro (hp ok)

/-- The row a call has just read, locked or not, is a user's from then on. -/
theorem Checked.read {applied : Bool} (hf : s.fetched reply = some m)
    (hn : ∀ u m v, ¬ before.Working u m v) (hr : m.role = "user") :
    (a.world.after c before applied (k reply) db').Since m.id fun m => m.role = "user" := by
  have hm := hC.sound.fetched running ran hn hf
  refine hC.kept running issues ran (hC.sound.since hm hr) ?_
  intro _ hp
  cases before with
  | updateUser q => cases q <;> first | cases hp | (cases issues; cases hf)
  | _ => cases hp

theorem Checked.exec (hok : a.keepsEdited (.exec c input) = true) :
    Checked { a with world := a.world.after c before (s.applied reply) (k reply) db' } where
  sound := hC.sound.exec running issues ran
  length := by simpa [World.after] using hC.length
  byAdmin o call hadmin hc := by
    by_cases ho : o = c
    · subst ho
      rw [World.after_self running] at hc
      cases hc
      exact (hC.byAdmin o before hadmin running).step issues
    · rw [World.after_other ho] at hc
      exact hC.byAdmin o call hadmin hc
  edits o call u hadmin hc he := by
    by_cases ho : o = c
    · subst ho
      rw [World.after_self running] at hc
      cases hc
      obtain ⟨m, hf, rfl, hr, hn⟩ := Call.edits_step issues (hC.byAdmin o before hadmin running)
        (hC.sound.keyed_reply running issues ran) he
      exact hC.read running issues ran hf hn hr
    · rw [World.after_other ho] at hc
      refine hC.kept running issues ran (hC.edits o call u hadmin hc he) ?_
      intro ok hp
      -- the promotion would fall between the reading and the writing of `o`
      have hlt := (List.getElem?_eq_some_iff.mp hc).1
      simp only [keepsEdited, running, Option.bind_some, hp, Db.applied_of_exec ran ok,
        Bool.false_or, List.all_eq_true, List.mem_range] at hok
      have := hok o hlt
      simp [hadmin, hc, he] at this
  rebalances o call u hadmin hc had := by
    by_cases ho : o = c
    · subst ho
      rw [World.after_self running] at hc
      cases hc
      rcases Call.rebalances_step issues (hC.byAdmin o before hadmin running)
        (hC.sound.keyed_reply running issues ran) had with had | ⟨m, hf, rfl, hr, hn⟩
      · have hsince := hC.rebalances o before u hadmin running had
        refine hC.kept running issues ran hsince ?_
        intro _ hp
        cases before with
        | modifyBalance q => cases hp
        | _ => cases had
      · exact hC.read running issues ran hf hn hr
    · rw [World.after_other ho] at hc
      obtain ⟨v, hp⟩ := hC.sound.locked o call u hc (Call.locks_of_rebalances had)
      obtain ⟨hids, hrole⟩ := hC.rebalances o call u hadmin hc had
      refine ⟨Db.mem_ids ran hids, fun m hm => hrole m ?_⟩
      rw [← World.row_other ran hp ho]
      exact hm

end

theorem Checked.step (hC : a.Checked) (hok : a.keepsEdited l = true)
    (hstep : a.step cfg l = some a') : a'.Checked := by
  obtain ⟨w', hw, rfl⟩ := Option.map_eq_some_iff.mp hstep
  have hsound := hC.sound.step (World.step_transition hw)
  cases World.step_transition hw with
  | exec running issues ran => exact hC.exec running issues ran hok
  | expire => exact ⟨hsound, hC.length, hC.byAdmin, hC.edits, hC.rebalances⟩
  | @invoke call start =>
    have hold {o : CallId} {call' : Call}
        (hadmin : (a.roles ++ [call.actorRole])[o]? = some (some "admin"))
        (hc : (a.world.join call).calls[o]? = some call') :
        (a.roles[o]? = some (some "admin") ∧ a.world.calls[o]? = some call') ∨
          call' = call ∧ call.actorRole = some "admin" := by
      simp only [World.join] at hc
      rw [List.getElem?_append] at hadmin hc
      rw [hC.length] at hadmin
      split at hc
      · rename_i hlt
        rw [if_pos hlt] at hadmin
        exact Or.inl ⟨hadmin, hc⟩
      · rename_i hge
        rw [if_neg hge, List.getElem?_singleton] at hadmin
        rw [List.getElem?_singleton] at hc
        split at hc
        · rename_i hz
          rw [if_pos hz] at hadmin
          cases hc
          exact Or.inr ⟨rfl, Option.some.inj hadmin⟩
        · cases hc
    have hidle : call.edits = none ∧ call.rebalances = none := by
      cases call <;> rename_i q <;> cases q <;> first | exact ⟨rfl, rfl⟩ | cases start
    refine ⟨hsound, ?_, ?_, ?_, ?_⟩
    · simp [World.join, hC.length]
    · intro o call' hadmin hc
      rcases hold hadmin hc with ⟨hadmin, hc⟩ | ⟨rfl, ha⟩
      · exact hC.byAdmin o call' hadmin hc
      · exact Call.byAdmin_of_actorRole start ha
    · intro o call' u hadmin hc he
      rcases hold hadmin hc with ⟨hadmin, hc⟩ | ⟨rfl, _⟩
      · exact hC.edits o call' u hadmin hc he
      · rw [hidle.1] at he
        cases he
    · intro o call' u hadmin hc had
      rcases hold hadmin hc with ⟨hadmin, hc⟩ | ⟨rfl, _⟩
      · exact hC.rebalances o call' u hadmin hc had
      · rw [hidle.2] at had
        cases had

theorem Checked.spares (hC : a.Checked) : a.AdminsSpareOthers cfg := by
  intro c input a' u m hadmin hstep hm hch
  obtain ⟨w', hw, rfl⟩ := Option.map_eq_some_iff.mp hstep
  cases World.step_transition hw with
  | @exec _ _ before s k db' reply running issues ran =>
    rcases (hC.byAdmin c before hadmin running).writes issues (hC.sound.calls c before running)
      (Db.exec_user ran u) (hC.sound.own running) hm hch with he | had | hr
    · exact (hC.edits c before u hadmin running he).2 m hm
    · exact (hC.rebalances c before u hadmin running had).2 m hm
    · exact hr

theorem admins_spare_others (h0 : a₀.Initial)
    (h : Runs.Reaches (Acting.step cfg) (fun a l => a.keepsEdited l = true) a₀ a) :
    a.AdminsSpareOthers cfg :=
  Checked.spares (h.invariant (I := Checked) h0.checked fun _ _ _ hC hok hstep =>
    hC.step hok hstep)

/-! ## A promotion between reading and writing -/

def employed : Acting := { world := .account }

theorem initial_employed : employed.Initial := ⟨World.initial_account, rfl⟩

def rename : Label := .invoke (.updateUser (.find 1 ⟨none, some "Eve", none⟩ "admin"))

def promote : Label := .invoke (.updateUser (.find 1 ⟨none, none, some "admin"⟩ "system"))

/-- An admin renames the user, then the system account promotes the user. -/
def promotedAfterwards : List Label :=
  [rename, .exec 0 {}, .exec 0 {}, promote, .exec 1 {}, .exec 1 {}, .exec 1 {}]

/-- The promotion commits after the admin's call has read the row. -/
def promotedMeanwhile : List Label :=
  [rename, .exec 0 {}, promote, .exec 1 {}, .exec 1 {}, .exec 1 {}, .exec 1 {}]

theorem admins_spare_others_afterwards :
    ((Runs.run (Acting.step .plain) (fun a l => a.keepsEdited l = true) employed
      promotedAfterwards).get (by decide)).AdminsSpareOthers .plain :=
  admins_spare_others initial_employed (Runs.reaches_run_get _)

theorem admin_renames_admin : ∃ a,
    Runs.Reaches (Acting.step .plain) Runs.Free employed a ∧ ¬ a.AdminsSpareOthers .plain := by
  let a := (Runs.run (Acting.step .plain) Runs.Free employed promotedMeanwhile).get (by decide)
  let a' := (a.step .plain (.exec 0 {})).get (by decide)
  have hstep : a.step .plain (.exec 0 {}) = some a' := (Option.some_get _).symm
  have hbefore : (a.world.db.users 1).committed.map (fun m => (m.name, m.role)) =
      some ("Ada", "admin") := by decide
  have hafter : (a'.world.db.users 1).committed.map UserModel.name = some "Eve" := by decide
  obtain ⟨m, hm, he⟩ := Option.map_eq_some_iff.mp hbefore
  obtain ⟨hname, hrole⟩ := Prod.mk.inj he
  refine ⟨a, Runs.reaches_run_get _, ?_⟩
  intro h
  have := h 0 {} a' 1 m (by decide) hstep hm (.inl fun hm' => ?_)
  · rw [hrole] at this
    exact absurd this (by decide)
  · rw [hm', Option.map_some, hname] at hafter
    exact absurd hafter (by decide)

end Acting

end Webshelf
