import Webshelf.Users.Versions

/-!
# The role in a JWT

A JWT carries the role and the token version of a row. `update_user` decides
from the row it has read whether the requested role is another one, and writes
the requested role without a bump where it is not. As long as such an UPDATE
finds in the row the role it writes, every JWT with the current version carries
the current role.
-/

namespace Webshelf

/-- What a JWT says of the row it was made from. -/
def JwtClaims.identity (token : JwtClaims) : UserId × String × Int :=
  (token.sub, token.role, token.tokenVersion)

namespace Call

/-- User, role and token version of the JWT a call is going to return with. -/
def bears : Call → Option (UserId × String × Int)
  | login (.revoke _ token _ _) | login (.revoking _ token _ _ _) | login (.store _ token _ _)
  | login (.commit _ token _) => some (token.sub, token.role, token.tokenVersion)
  | rotate (.delete _ _ _ _ user) | rotate (.deleting _ _ _ user _) | rotate (.store _ _ _ user)
  | rotate (.commit _ _ user) => some (user.id, user.role, user.tokenVersion)
  | changePassword (.invalidate updated _ _ _) =>
    some (updated.id, updated.role, updated.tokenVersion)
  | _ => none

/-- The row a reset has read back in its transaction. -/
def refetched : Call → Option UserModel
  | resetPassword (.revoke _ _ updated) | resetPassword (.revoking _ _ updated _)
  | resetPassword (.commit _ _ updated) => some updated
  | _ => none

section
variable {cfg : Settings} {env : Env} {before : Call} {s : Stmt} {u : UserId}
  {k : Except DbErr s.Reply → Call} {reply : Except DbErr s.Reply} {m : UserModel}
  {x : UserId × String × Int} {token : JwtClaims}

/-- The role and version of a row read outside any transaction. -/
def Reads (before : Call) (s : Stmt) (reply : Except DbErr s.Reply)
    (x : UserId × String × Int) : Prop :=
  ∃ m, x = (m.id, m.role, m.tokenVersion) ∧ (s.picked reply = some m ∨
    (∀ u m v, ¬ before.Working u m v) ∧ s.got reply = some m)

theorem bears_step (issues : before.next cfg env = some ⟨s, k⟩)
    (hn : (k reply).bears = some x) : before.bears = some x ∨ before.Reads s reply x := by
  cases before with
  | login q =>
    cases q with
    | find =>
      cases issues
      dsimp only at hn
      (repeat' split at hn) <;> cases hn
      exact Or.inr ⟨_, rfl, .inl rfl⟩
    | revoke | revoking | store | commit =>
      cases issues
      dsimp only [deleted] at hn
      split at hn <;> first | exact Or.inl hn | cases hn
    | done => cases issues
  | rotate q =>
    cases q with
    | find =>
      cases issues
      dsimp only at hn
      split at hn <;> cases hn
      exact Or.inr ⟨_, rfl, .inr ⟨fun _ _ _ h => h, rfl⟩⟩
    | lock | delete | deleting | store | commit =>
      cases issues
      dsimp only [deleted] at hn
      split at hn <;> first | exact Or.inl hn | cases hn
    | abort =>
      cases issues
      cases hn
    | done => cases issues
  | changePassword q =>
    cases q with
    | refetch =>
      cases issues
      dsimp only at hn
      split at hn <;> cases hn
      exact Or.inr ⟨_, rfl, .inr ⟨fun _ _ _ h => h, rfl⟩⟩
    | invalidate =>
      cases issues
      dsimp only at hn
      split at hn <;> first | exact Or.inl hn | cases hn
    | find | bump | update | revoke | revoking | commit | abort =>
      cases issues
      dsimp only [deleted] at hn
      (repeat' split at hn) <;> cases hn
    | done => cases issues
  | requestReset q | resendCode q | sendVerification q | modifyBalance q | updateUser q
  | autoVerify q | verifyEmail q | resetPassword q | revokeAll q | wxLogin q | logout q
  | getUser q | setOpenid q | checkTokenVersion q | createUser q | deleteUser q =>
    obtain ⟨k', _, rfl⟩ := Next.map_some issues
    cases hn

/-- Where the JWT a call returns with comes from. -/
theorem jwt_step (issues : before.next cfg env = some ⟨s, k⟩) (hr : s.Keyed reply)
    (hn : (k reply).jwt = some token) :
    before.bears = some token.identity ∨ before.Reads s reply token.identity ∨
      ∃ user h updated, before = resetPassword (.commit user h updated) ∧
        s.applied reply = true ∧
          token.identity = (updated.id, updated.role, updated.tokenVersion) := by
  cases before with
  | login q =>
    cases q with
    | find =>
      cases issues
      dsimp only at hn
      (repeat' split at hn) <;> cases hn
      exact Or.inr (.inl ⟨_, rfl, .inl rfl⟩)
    | commit =>
      cases issues
      dsimp only at hn
      split at hn <;> cases hn
      exact Or.inl rfl
    | revoke | revoking | store =>
      cases issues
      dsimp only [deleted] at hn
      split at hn <;> cases hn
    | done => cases issues
  | wxLogin q =>
    cases q with
    | find =>
      cases issues
      dsimp only at hn
      split at hn <;> cases hn
      refine Or.inr (.inl ⟨_, ?_, .inr ⟨fun _ _ _ h => h, rfl⟩⟩)
      rw [show UserModel.id _ = _ from hr]
      rfl
    | done => cases issues
  | rotate q =>
    cases q with
    | commit =>
      cases issues
      dsimp only at hn
      split at hn <;> cases hn
      exact Or.inl rfl
    | lock | find | delete | deleting | store =>
      cases issues
      dsimp only [deleted] at hn
      split at hn <;> cases hn
    | abort =>
      cases issues
      cases hn
    | done => cases issues
  | resetPassword q =>
    cases q with
    | commit user h updated =>
      cases issues
      dsimp only at hn
      split at hn <;> cases hn
      exact Or.inr (.inr ⟨user, h, updated, rfl, rfl, rfl⟩)
    | find | claim | update | refetch | revoke | revoking | abort =>
      cases issues
      dsimp only [deleted] at hn
      (repeat' split at hn) <;> cases hn
    | done => cases issues
  | changePassword q =>
    cases q with
    | invalidate =>
      cases issues
      dsimp only at hn
      split at hn <;> cases hn
      exact Or.inl rfl
    | find | bump | update | revoke | revoking | commit | refetch =>
      cases issues
      dsimp only [deleted] at hn
      (repeat' split at hn) <;> cases hn
    | abort =>
      cases issues
      cases hn
    | done => cases issues
  | requestReset q | resendCode q | sendVerification q | modifyBalance q | updateUser q
  | autoVerify q | verifyEmail q | revokeAll q | logout q | getUser q | setOpenid q
  | checkTokenVersion q | createUser q | deleteUser q =>
    obtain ⟨k', _, rfl⟩ := Next.map_some issues
    cases hn

/-- A reset reads back what its transaction has made of the row. -/
theorem refetched_step (issues : before.next cfg env = some ⟨s, k⟩)
    (hn : (k reply).refetched = some m) :
    before.refetched = some m ∧ s.staysOpen = true ∧
        (∃ r, reply = .ok r ∧ s.hit r = none) ∨
      (∃ user h, before = resetPassword (.refetch user h)) ∧ s.got reply = some m := by
  cases before with
  | resetPassword q =>
    cases q with
    | refetch user h =>
      cases issues
      dsimp only at hn
      split at hn <;> cases hn
      exact Or.inr ⟨⟨user, h, rfl⟩, rfl⟩
    | find | claim | update | revoke | revoking | commit | abort =>
      cases issues
      dsimp only [deleted] at hn
      (repeat' split at hn) <;> first | exact Or.inl ⟨hn, rfl, _, rfl, rfl⟩ | cases hn
    | done => cases issues
  | requestReset q | resendCode q | sendVerification q | modifyBalance q | updateUser q
  | changePassword q | autoVerify q | verifyEmail q | login q | wxLogin q | rotate q
  | revokeAll q | logout q | getUser q | setOpenid q | checkTokenVersion q | createUser q
  | deleteUser q =>
    obtain ⟨k', _, rfl⟩ := Next.map_some issues
    cases hn

end

end Call

namespace World

/-- An UPDATE of `update_user` that does not bump the version writes the role that
the row has. -/
def keepsRole (w : World) : Label → Bool
  | .exec c input =>
    match w.calls[c]? with
    | some (.updateUser (.update _ user request _)) =>
      input.fails || request.role.all fun role =>
        (w.db.users user.id).committed.all fun m => m.role == role
    | _ => true
  | _ => true

/-- The role and the version belong together as long as the version is the current one. -/
def Dated (w : World) (x : UserId × String × Int) : Prop :=
  w.Since x.1 fun m => x.2.2 < m.tokenVersion ∨ x.2.2 = m.tokenVersion ∧ x.2.1 = m.role

structure Vouched (w : World) : Prop where
  bears : ∀ (c : CallId) (call : Call) x, w.calls[c]? = some call → call.bears = some x → w.Dated x
  refetched : ∀ (c : CallId) (call : Call) m, w.calls[c]? = some call →
    call.refetched = some m → (w.db.users m.id).pending = some (c, m)
  issued : ∀ t c token, (t, Event.jwtIssued c token) ∈ w.trace → w.Dated token.identity

variable {cfg : Settings} {w₀ w w' : World} {l : Label} {c : CallId} {before : Call} {s : Stmt}
  {input : Input} {applied : Bool} {k : Except DbErr s.Reply → Call}
  {reply : Except DbErr s.Reply} {db' : Db} {u : UserId} {x : UserId × String × Int}

theorem Initial.vouched (h0 : w.Initial) : w.Vouched where
  bears c call x hc := by rw [h0.calls] at hc; cases hc
  refetched c call m hc := by rw [h0.calls] at hc; cases hc
  issued t c token he := by rw [h0.trace] at he; cases he

section
variable (hw : w.Sound) (hV : w.Vouched) (running : w.calls[c]? = some before)
  (issues : before.next cfg (input.env w.ticks) = some ⟨s, k⟩)
  (ran : w.db.exec c input.fails s = some (db', reply))
  (hok : w.keepsRole (.exec c input) = true)
include hw running issues ran

include hok in
/-- The role changes with the version. -/
theorem Dated.after (hd : w.Dated x) :
    (w.after c before applied (k reply) db').Dated x := by
  apply Since.after hw ran hd
  intro m m' hm hm' hx
  have hr := hw.row_step running issues ran x.1
  rw [hm, hm'] at hr
  cases hr with
  | same => exact hx
  | @write _ _ set ok update =>
    have hrole : (set m).role = m.role := by
      rcases update.role (m := m) with h | ⟨id, user, request, sent, role, rfl, hu, hrole, h⟩
      · exact h
      · simp only [keepsRole, running, Db.applied_of_exec ran ok, Bool.false_or, hrole,
          Option.all_some, hu, hm, beq_iff_eq] at hok
        exact h.trans hok.symm
    rw [update.tokenVersion, hrole]
    exact hx
  | commit _ issues work =>
    rcases work.tokenVersion issues with hb | ⟨hv, hrole, _⟩
    · exact Or.inl (by omega)
    · rw [hv, hrole]
      exact hx

include hok in
/-- A row that a call has read and nobody has written meanwhile. -/
theorem Dated.read (hr : before.Reads s reply x) :
    (w.after c before applied (k reply) db').Dated x := by
  obtain ⟨m, rfl, hr⟩ := hr
  have hm : (w.db.users m.id).committed = some m := by
    rcases hr with hp | ⟨hn, hg⟩
    · exact (hw.selected running issues ran hp).1
    · exact (hw.got running ran hn hg).2
  have hd : w.Dated (m.id, m.role, m.tokenVersion) :=
    hw.since (P := fun m' => m.tokenVersion < m'.tokenVersion ∨
      m.tokenVersion = m'.tokenVersion ∧ m.role = m'.role) hm (.inr ⟨rfl, rfl⟩)
  exact hd.after hw running issues ran hok

include hV hok in
theorem Vouched.exec : (w.after c before (s.applied reply) (k reply) db').Vouched where
  bears o call x hc hb := by
    by_cases ho : o = c
    · subst ho
      rw [after_self running] at hc
      cases hc
      rcases Call.bears_step issues hb with hb | hr
      · exact (hV.bears o before x running hb).after hw running issues ran hok
      · exact Dated.read hw running issues ran hok hr
    · rw [after_other ho] at hc
      exact (hV.bears o call x hc hb).after hw running issues ran hok
  refetched o call m hc hb := by
    change (db'.users m.id).pending = some (o, m)
    by_cases ho : o = c
    · subst ho
      rw [after_self running] at hc
      cases hc
      rcases Call.refetched_step issues hb with ⟨hold, hs, r, rfl, hm⟩ | ⟨⟨user, h, rfl⟩, hg⟩
      · rw [(Db.exec_user ran m.id).unhit hs (by rw [hm]; exact nofun)]
        exact hV.refetched o before m running hold
      · obtain ⟨v, hp⟩ := hw.locked o _ user.id running rfl
        cases issues
        rcases reply with e | found
        · cases hg
        · cases hg
          obtain ⟨rfl, hv⟩ := Db.exec_selectUserById ran
          rw [hw.view_id running hv.symm]
          rw [Versioned.view_own hp] at hv
          cases hv
          exact hp
    · rw [after_other ho] at hc
      have hp := hV.refetched o call m hc hb
      rw [row_other ran hp ho]
      exact hp
  issued t c' token hmem := by
    rcases mem_after.mp hmem with he | ⟨_, he⟩
    · exact (hV.issued t c' token he).after hw running issues ran hok
    · rcases Call.jwt_step issues (hw.keyed_reply running issues ran) (jwt_of_observe he) with
        hb | hr | ⟨user, h, updated, rfl, ok, hid⟩
      · exact (hV.bears c before _ running hb).after hw running issues ran hok
      · exact Dated.read hw running issues ran hok hr
      · -- the COMMIT of a reset makes the row it has read back the current one
        have hp := hV.refetched c _ updated running rfl
        obtain ⟨m, hm, _⟩ := hw.own running updated hp
        cases issues
        refine hid ▸ ⟨Db.mem_ids ran (hw.listed updated.id m hm), ?_⟩
        intro m' hm'
        change (db'.users updated.id).committed = some m' at hm'
        rcases reply with e | ⟨⟨⟩⟩
        · cases ok
        · have hv := (Db.exec_user ran updated.id).publishes hp
          rw [hm'] at hv
          cases hv
          exact Or.inr ⟨rfl, rfl⟩

end

theorem Vouched.step (hw : w.Sound) (hV : w.Vouched) (hok : w.keepsRole l = true)
    (ht : Transition cfg w l w') : w'.Vouched := by
  cases ht with
  | exec running issues ran => exact Vouched.exec hw hV running issues ran hok
  | expire => exact ⟨hV.bears, hV.refetched, hV.issued⟩
  | @invoke call start =>
    have hidle : call.bears = none ∧ call.refetched = none := by
      cases call <;> rename_i q <;> cases q <;> first | exact ⟨rfl, rfl⟩ | cases start
    refine ⟨?_, ?_, hV.issued⟩
    · intro c call x hc hb
      rcases join_calls hc with hc | rfl
      · exact hV.bears c call x hc hb
      · rw [hidle.1] at hb
        cases hb
    · intro c call m hc hb
      rcases join_calls hc with hc | rfl
      · exact hV.refetched c call m hc hb
      · rw [hidle.2] at hb
        cases hb

/-- Every JWT with the current version of its user's row carries the current role. -/
def RolesVouched (w : World) : Prop :=
  ∀ t c token m, (t, Event.jwtIssued c token) ∈ w.trace →
    (w.db.users token.sub).committed = some m → token.tokenVersion = m.tokenVersion →
    token.role = m.role

theorem live_jwts_carry_role (h0 : w₀.Initial)
    (h : Runs.Reaches (World.step cfg) (fun w l => w.keepsRole l = true) w₀ w) :
    w.RolesVouched := by
  have hI : w.Sound ∧ w.Vouched :=
    h.invariant (I := fun w => w.Sound ∧ w.Vouched) ⟨h0.sound, h0.vouched⟩
      fun a l b ⟨hs, hV⟩ hok hstep =>
        have ht := step_transition hstep
        ⟨hs.step ht, hV.step hs hok ht⟩
  intro t c token m he hm hv
  rcases (hI.2.issued t c token he).2 m hm with hlt | ⟨_, hrole⟩
  · have : token.tokenVersion < m.tokenVersion := hlt
    omega
  · exact hrole

/-! ## Two updates of one role -/

/-- An account that is still a user. -/
def employed : World :=
  .ofRows [.registered 1 "ada@example.com" "Passw0rd!" "user"] [] 1

theorem initial_employed : employed.Initial :=
  initial_ofRow UserModel.proper_registered

def setRole (role : String) : Label :=
  .invoke (.updateUser (.find 1 ⟨none, none, some role⟩ "system"))

/-- The role is set to admin, then a login, then it is set back. -/
def rolesOneByOne : List Label :=
  [setRole "admin", .exec 0 {}, .exec 0 {}, .exec 0 {}, .exec 0 {}, .exec 0 {},
    .invoke (.wxLogin (.find 1)), .exec 1 {},
    setRole "user", .exec 2 {}, .exec 2 {}, .exec 2 {}, .exec 2 {}]

/-- The second update reads the row before the first one commits, and writes after the login. -/
def rolesAtOnce : List Label :=
  [setRole "admin", setRole "user", .exec 0 {}, .exec 1 {}, .exec 0 {}, .exec 0 {}, .exec 0 {},
    .invoke (.wxLogin (.find 1)), .exec 2 {}, .exec 1 {}]

theorem live_jwts_carry_role_kept :
    ((Runs.run (World.step .plain) (fun w l => w.keepsRole l = true) employed
      rolesOneByOne).get (by decide)).RolesVouched :=
  live_jwts_carry_role initial_employed (Runs.reaches_run_get _)

theorem live_jwt_carries_old_role : ∃ w,
    Runs.Reaches (World.step .plain) Runs.Free employed w ∧ ¬ w.RolesVouched := by
  let w := (Runs.run (World.step .plain) Runs.Free employed rolesAtOnce).get (by decide)
  let token : JwtClaims := generateToken 0 1 "admin" 3600 false 2
  have hissued : (9, Event.jwtIssued 2 token) ∈ w.trace := by decide
  have hcurrent : (w.db.users 1).committed.map (fun m => (m.tokenVersion, m.role)) =
      some (2, "user") := by decide
  obtain ⟨m, hm, he⟩ := Option.map_eq_some_iff.mp hcurrent
  obtain ⟨hv, hrole⟩ := Prod.mk.inj he
  refine ⟨w, Runs.reaches_run_get _, ?_⟩
  intro h
  have := h 9 2 token m hissued hm hv.symm
  rw [hrole] at this
  exact absurd this (by decide)

end World

end Webshelf
