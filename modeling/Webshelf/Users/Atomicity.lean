import Webshelf.Server.Alone
import Webshelf.Sessions.Tokens
import Webshelf.Sessions.VersionCache

/-!
# Is a failed credential change undone?

A password change, a role change and a password reset each run on their own
here, and any of their statements may fail. What they change, they change at one
COMMIT; the first two read the row once more after it.
-/

namespace Webshelf

/-- The row, but for the counter of failed attempts of its reset code. -/
def UserModel.uncounted (m : UserModel) : UserModel :=
  { m with passwordReset := { m.passwordReset with failedAttempts := 0 } }

namespace Call

/-- A password change, a password reset, or an update that changes the role. -/
def ChangesCredentials (db : Db) : Call → Prop
  | changePassword (.find _ _ _ _) | resetPassword (.find _ _ _) => True
  | updateUser (.find id input _) =>
    ∀ m, (db.users id).committed = some m → roleChanged m input = true
  | _ => False

/-- The user whose credentials the call is to change. -/
def Targets (cfg : Settings) (db : Db) (u : UserId) : Call → Prop
  | changePassword (.find id _ _ _) | updateUser (.find id _ _) => id = u
  | resetPassword (.find email _ _) =>
    (db.users u).committed.any (fun m => m.email == cfg.toLowercase email) = true
  | _ => False

/-- What the call is to make of the row `m`. -/
def Edits (cfg : Settings) (m m' : UserModel) : Call → Prop
  | changePassword (.find _ _ newPassword _) => ∃ salt now, m' = { m with
      tokenVersion := m.tokenVersion + 1
      passwordHash := .hash salt newPassword
      updatedAt := now }
  | resetPassword (.find _ _ newPassword) => ∃ salt now, m' = { m with
      tokenVersion := m.tokenVersion + 1
      passwordHash := .hash salt newPassword
      updatedAt := now
      passwordReset := ⟨none, none, none, 0⟩ }
  | updateUser (.find _ input _) => ∃ now, m' = { m with
      tokenVersion := m.tokenVersion + 1
      email := (input.email.map cfg.toLowercase).getD m.email
      name := input.name.getD m.name
      role := input.role.getD m.role
      updatedAt := now }
  | _ => False

/-- The two password operations revoke every session. -/
def signsOut : Call → Bool
  | changePassword _ | resetPassword _ => true
  | _ => false

/-- The columns a failed call must leave alone: `reset_password` counts the attempt. -/
def keeps (m : UserModel) : Call → UserModel
  | resetPassword _ => m.uncounted
  | _ => m

/-- The credential change has returned `Ok`. -/
def succeeded : Call → Bool
  | changePassword (.done (.ok _)) | updateUser (.done (.ok _))
  | resetPassword (.done (.ok _)) => true
  | _ => false

end Call

/-- Nothing of what the call is to change has changed. -/
structure Db.Unchanged (start : Call) (db db' : Db) : Prop where
  users : ∀ u, (db'.users u).committed.map (fun m => start.keeps m) =
    (db.users u).committed.map fun m => start.keeps m
  tokens : db.SameTokens db'

/-- Everything the call is to change has changed. -/
def Db.Changed (cfg : Settings) (start : Call) (db db' : Db) : Prop :=
  ∃ u m m', start.Targets cfg db u ∧ (db.users u).committed = some m ∧
    (db'.users u).committed = some m' ∧ start.Edits cfg m m' ∧
    (start.signsOut = true → ∀ i t, db'.tokens.committed i = some t → t.userId ≠ u)

/-- An error leaves everything as it was, and success leaves everything changed. -/
def Atomic (cfg : Settings) (start : Call) (db db' : Db) (result : Call) : Prop :=
  (result.succeeded = false → db.Unchanged start db') ∧
    (result.succeeded = true → db.Changed cfg start db')

/-! ## Up to the COMMIT -/

/-- The transaction of `c` has the row of `u` in hand, edited. -/
def InHand (cfg : Settings) (c : CallId) (start : Call) (db : Db) (u : UserId) : Prop :=
  ∃ m v, (db.users u).committed = some m ∧ (db.users u).pending = some (c, v) ∧
    start.Edits cfg m v

/-- The transaction of `c` has deleted every refresh token of `u` it could see. -/
def Swept (c : CallId) (db : Db) (u : UserId) : Prop :=
  ∀ i t st, db.tokens.get i = some (t, st) → t.userId = u →
    st = .deleted c ∨ ∃ o, o ≠ c ∧ st = .inserted o

/-- What a credential change that started from `db₀` has done before its COMMIT. -/
def Preparing (cfg : Settings) (c : CallId) (start : Call) (db₀ db : Db) : Call → Prop
  | .changePassword (.find id current new remember) =>
    start = .changePassword (.find id current new remember)
  | .changePassword (.bump id _ newHash _) | .changePassword (.update id _ newHash _ _) =>
    ∃ current remember, start = .changePassword (.find id current newHash.plain remember)
  | .changePassword (.revoke id _) => start.Targets cfg db₀ id ∧ InHand cfg c start db id
  | .changePassword (.revoking id _ waiting) =>
    start.Targets cfg db₀ id ∧ InHand cfg c start db id ∧ db.Waits c waiting
  | .changePassword (.commit id _) =>
    start.Targets cfg db₀ id ∧ InHand cfg c start db id ∧ Swept c db id
  | .updateUser (.find id input actorRole) =>
    start = .updateUser (.find id input actorRole) ∧ db = db₀
  | .updateUser (.bump id _ input _) | .updateUser (.updateBumped id _ input _) =>
    ∃ actorRole, start = .updateUser (.find id input actorRole)
  | .updateUser (.commit id) =>
    start.Targets cfg db₀ id ∧ InHand cfg c start db id ∧ start.signsOut = false
  | .resetPassword (.find email code new) =>
    start = .resetPassword (.find email code new) ∧ db = db₀
  | .resetPassword (.claim user _ _ new) =>
    start.Targets cfg db₀ user.id ∧ ∃ email code, start = .resetPassword (.find email code new)
  | .resetPassword (.update user _ newHash) => start.Targets cfg db₀ user.id ∧
    ∃ email code, start = .resetPassword (.find email code newHash.plain)
  | .resetPassword (.refetch user _) | .resetPassword (.revoke user _ _) =>
    start.Targets cfg db₀ user.id ∧ InHand cfg c start db user.id
  | .resetPassword (.revoking user _ _ waiting) =>
    start.Targets cfg db₀ user.id ∧ InHand cfg c start db user.id ∧ db.Waits c waiting
  | .resetPassword (.commit user _ _) =>
    start.Targets cfg db₀ user.id ∧ InHand cfg c start db user.id ∧ Swept c db user.id
  | .changePassword (.abort _) | .updateUser (.abort _) | .resetPassword (.abort _)
  | .changePassword (.done (.error _)) | .updateUser (.done (.error _))
  | .resetPassword (.done (.error _)) => True
  | _ => False

section
variable {cfg : Settings} {c : CallId} {start before : Call} {db₀ db db' : Db} {w : World}
  {s : Stmt} {env : Env} {fails : Bool} {k : Except DbErr s.Reply → Call}
  {reply : Except DbErr s.Reply} {u : UserId} {m m' v : UserModel}

theorem Call.Edits.congr (h : start.Edits cfg m v) (he : start.keeps m = start.keeps m') :
    start.Edits cfg m' v := by
  cases start with
  | resetPassword q =>
    cases q with
    | find email code new =>
      obtain ⟨salt, now, rfl⟩ := h
      refine ⟨salt, now, ?_⟩
      exact congrArg (fun m : UserModel => { m with
        tokenVersion := m.tokenVersion + 1
        passwordHash := .hash salt new
        updatedAt := now
        passwordReset := ⟨none, none, none, 0⟩ }) he
    | _ => cases h
  | changePassword | updateUser =>
    cases he
    exact h
  | _ => cases h

/-- An error ends a call that has not committed. -/
theorem Preparing.failed {e : DbErr} (h : Preparing cfg c start db₀ db before)
    (issues : before.next cfg env = some ⟨s, k⟩) :
    Preparing cfg c start db₀ db' (k (.error e)) := by
  cases before with
  | changePassword q | updateUser q | resetPassword q =>
    cases q <;> first | exact h.elim | cases issues
    all_goals exact trivial
  | _ => exact h.elim

theorem Db.Unchanged.exec (hw : w.Sound) (running : w.calls[c]? = some before)
    (hu : db₀.Unchanged start w.db) (h : Preparing cfg c start db₀ w.db before)
    (issues : before.next cfg env = some ⟨s, k⟩) (ran : w.db.exec c fails s = some (db', reply))
    (hc : s ≠ .commit ∨ ∃ e, reply = .error e) : db₀.Unchanged start db' where
  users u := by
    rw [← hu.users u]
    have hr := hw.row_step running issues ran u
    generalize (w.db.users u).committed = o at hr ⊢
    generalize (db'.users u).committed = o' at hr ⊢
    cases hr with
    | same => rfl
    | write ok update =>
      cases update with
      | claimReset =>
        obtain ⟨-, _, _, rfl⟩ := h
        rfl
      | _ => exact h.elim
    | commit ok issues' =>
      cases issues.symm.trans issues'
      rcases hc with hc | ⟨e, rfl⟩
      · exact absurd rfl hc
      · cases ok
    | insert _ _ create =>
      subst create
      exact h.elim
    | delete _ delete =>
      subst delete
      exact h.elim
  tokens := hu.tokens.exec ran hc fun id p hs => by
    subst hs
    obtain ⟨_, _, rfl⟩ := Call.next_deleteUser issues
    exact h.elim

theorem InHand.exec {reply : s.Reply} (h : InHand cfg c start db u)
    (ran : db.exec c fails s = some (db', .ok reply)) (live : s.staysOpen = true)
    (missed : s.hit reply ≠ some u) : InHand cfg c start db' u := by
  obtain ⟨m, v, hm, hp, he⟩ := h
  have hrow := (Db.exec_user ran u).unhit live missed
  exact ⟨m, v, by rw [hrow, hm], by rw [hrow, hp], he⟩

theorem InHand.committed {reply : Unit} (h : InHand cfg c start db u)
    (ran : db.exec c fails .commit = some (db', .ok reply)) : (db'.users u).committed ≠ none := by
  obtain ⟨m, v, hm, hp, he⟩ := h
  rw [(Db.exec_user ran u).publishes hp]
  exact Option.some_ne_none v

theorem Swept.of_delete
    (ran : db.exec c fails (deleteAllRefreshTokens u) = some (db', .ok [])) : Swept c db' u := by
  intro i t st hg ht
  obtain ⟨hleft, htokens⟩ := (Db.exec_tokens ran).swept
  rw [htokens] at hg
  by_cases hi : i ∈ db.tokens.snapshot c fun t => t.userId == u
  · rcases Heap.deleteScan_dead (h := db.tokens) hi with hw | hd
    · rw [← hleft] at hw
      cases hw
    · exact .inl (hd t st hg)
  · -- the DELETE has not seen the row
    rw [Heap.deleteScan_other hi] at hg
    have hunseen : st.visible c = false := by
      by_contra hv
      exact hi (Heap.mem_snapshot.mpr ⟨t, st, hg, by simpa using hv, by simp [ht]⟩)
    cases st with
    | live | locked => cases hunseen
    | inserted o => exact .inr ⟨o, by simpa [Hold.visible] using hunseen, rfl⟩
    | deleted o =>
      have ho : o = c := by simpa [Hold.visible] using hunseen
      exact .inl (ho ▸ rfl)

/-- The COMMIT after the DELETE leaves no refresh token of the user. -/
theorem Swept.commit {reply : Unit} (h : Swept c db u)
    (ran : db.exec c fails .commit = some (db', .ok reply)) (i : TokenId) (t : RefreshToken)
    (ht : db'.tokens.committed i = some t) : t.userId ≠ u := by
  intro hu
  have hs := Db.exec_tokens ran
  generalize db'.tokens = h' at hs ht
  cases hs with
  | stay other => cases other
  | commit =>
    rw [Heap.committed_commit] at ht
    cases hg : db.tokens.get i with
    | none =>
      rw [hg] at ht
      cases ht
    | some r =>
      obtain ⟨t', st⟩ := r
      have heq : t' = t := by
        rw [hg] at ht
        cases st <;> simp only [Heap.stored] at ht <;> first | (split at ht <;> cases ht) | cases ht
        all_goals rfl
      subst heq
      rcases h i t' st hg hu with rfl | ⟨o, ho, rfl⟩
      · simp [hg] at ht
      · simp [hg, ho] at ht

/-- A COMMIT of the row in hand carries the change out. -/
theorem Db.Changed.of_commit {reply : Unit} (hu : db₀.Unchanged start db)
    (target : start.Targets cfg db₀ u) (hand : InHand cfg c start db u)
    (swept : start.signsOut = true → Swept c db u)
    (ran : db.exec c fails .commit = some (db', .ok reply)) : db₀.Changed cfg start db' := by
  obtain ⟨m, v, hm, hp, hedits⟩ := hand
  have hkept := hu.users u
  rw [hm] at hkept
  obtain ⟨m₀, hm₀, hkeeps⟩ := Option.map_eq_some_iff.mp hkept.symm
  exact ⟨u, m₀, v, target, hm₀, (Db.exec_user ran u).publishes hp, hedits.congr hkeeps.symm,
    fun hs => (swept hs).commit ran⟩

/-- The UPDATE after the bump works on the bumped row. -/
theorem updated_bumped {p : UserModel → Bool} {set : UserModel → UserModel} (hw : w.Sound)
    (running : w.calls[c]? = some before) (hb : before.bumps = some u)
    (ran : w.db.exec c fails (.updateUser .txn u p set) = some (db', .ok (some v))) :
    ∃ m v₀, before.Working u m v₀ ∧ v = set v₀ ∧ (db'.users u).committed = some m ∧
      (db'.users u).pending = some (c, v) := by
  obtain ⟨v₀, seen, -, rfl, ⟨-, hrow⟩ | ⟨hauto, _⟩⟩ := (Db.exec_user ran u).updated
  · have seen : (w.db.users u).view c = some v₀ := seen
    rcases hw.bumped c before u running hb with ⟨v₁, hp⟩ | hnone
    · obtain ⟨m, hm, working⟩ := hw.own running v₁ hp
      rw [Versioned.view_own hp] at seen
      cases seen
      rw [hrow]
      exact ⟨m, v₀, working, rfl, hm, rfl⟩
    · cases hp : (w.db.users u).pending with
      | none =>
        rw [Versioned.view_free hp, hnone] at seen
        cases seen
      | some held =>
        obtain ⟨m, _, hm, _⟩ := hw.working u held.1 held.2 hp
        rw [hnone] at hm
        cases hm
  · cases hauto

theorem preparing_changePassword {q : ChangePassword} {reply : s.Reply} (hw : w.Sound)
    (running : w.calls[c]? = some (.changePassword q))
    (h : Preparing cfg c start db₀ w.db (.changePassword q))
    (issues : (Call.changePassword q).next cfg env = some ⟨s, k⟩)
    (ran : w.db.exec c fails s = some (db', .ok reply)) (hc : s ≠ .commit) :
    Preparing cfg c start db₀ db' (k (.ok reply)) := by
  have hkeyed := hw.calls c _ running
  cases q with
  | find id current new remember =>
    cases issues
    dsimp only
    (repeat' split) <;> first | exact trivial | exact ⟨_, _, h⟩
  | bump id user newHash remember =>
    cases issues
    exact h
  | update id user newHash now remember =>
    cases issues
    obtain ⟨current, remember', hs⟩ := h
    cases reply with
    | none => exact trivial
    | some v =>
      have hid : user.id = id := hkeyed
      subst hid
      obtain ⟨m, v₀, ⟨-, rfl⟩, rfl, hm, hp⟩ := updated_bumped hw running rfl ran
      subst hs
      exact ⟨rfl, m, _, hm, hp, newHash.salt, now, rfl⟩
  | revoke id remember =>
    cases issues
    rcases Db.exec_deleteTokens ran with rfl | hwaits
    · exact ⟨h.1, h.2.exec ran rfl nofun, .of_delete ran⟩
    · obtain ⟨i, rest, rfl⟩ := hwaits.eq_cons
      exact ⟨h.1, h.2.exec ran rfl nofun, hwaits⟩
  | revoking id remember waiting =>
    cases issues
    have hfails := h.2.2.resume_fails ran
    subst hfails
    cases ran
  | commit =>
    cases issues
    exact absurd rfl hc
  | abort =>
    cases issues
    exact trivial
  | refetch | invalidate => exact h.elim
  | done => cases issues

theorem preparing_updateUser {q : UpdateUser} {reply : s.Reply} (hw : w.Sound)
    (hstart : start.ChangesCredentials db₀) (running : w.calls[c]? = some (.updateUser q))
    (h : Preparing cfg c start db₀ w.db (.updateUser q))
    (issues : (Call.updateUser q).next cfg env = some ⟨s, k⟩)
    (ran : w.db.exec c fails s = some (db', .ok reply)) (hc : s ≠ .commit) :
    Preparing cfg c start db₀ db' (k (.ok reply)) := by
  have hkeyed := hw.calls c _ running
  cases q with
  | find id input actorRole =>
    obtain ⟨rfl, rfl⟩ := h
    cases issues
    cases reply with
    | none => exact trivial
    | some user =>
      obtain ⟨-, hview⟩ := Db.exec_selectUserById ran
      rw [hw.view_eq running fun _ _ h => h] at hview
      have hrole := hstart user hview.symm
      dsimp only
      split
      · exact trivial
      · rw [if_pos hrole]
        exact ⟨actorRole, rfl⟩
  | bump id user input now =>
    cases issues
    exact h
  | updateBumped id user input now =>
    cases issues
    obtain ⟨actorRole, hs⟩ := h
    cases reply with
    | none => exact trivial
    | some v =>
      have hid : user.id = id := hkeyed
      subst hid
      obtain ⟨m, v₀, ⟨-, rfl⟩, rfl, hm, hp⟩ := updated_bumped hw running rfl ran
      subst hs
      refine ⟨rfl, ⟨m, _, hm, hp, now, ?_⟩, rfl⟩
      obtain ⟨email, name, role⟩ := input
      cases email <;> cases name <;> cases role <;> rfl
  | commit =>
    cases issues
    exact absurd rfl hc
  | abort =>
    cases issues
    exact trivial
  | refetch | invalidate | update => exact h.elim
  | done => cases issues

theorem preparing_resetPassword {q : ResetPassword} {reply : s.Reply} (hw : w.Sound)
    (running : w.calls[c]? = some (.resetPassword q))
    (h : Preparing cfg c start db₀ w.db (.resetPassword q))
    (issues : (Call.resetPassword q).next cfg env = some ⟨s, k⟩)
    (ran : w.db.exec c fails s = some (db', .ok reply)) (hc : s ≠ .commit) :
    Preparing cfg c start db₀ db' (k (.ok reply)) := by
  have hkeyed := hw.calls c _ running
  cases q with
  | find email code new =>
    obtain ⟨rfl, rfl⟩ := h
    have hselected := fun m => hw.selected (m := m) running issues ran
    cases issues
    cases reply with
    | none => exact trivial
    | some user =>
      have hrow := (hselected user rfl).1
      dsimp only
      split
      · exact trivial
      · refine ⟨?_, email, code, rfl⟩
        simpa [Call.Targets, hrow] using Db.exec_selectUser ran
  | claim user storedHash code new =>
    cases issues
    cases reply with
    | none => exact trivial
    | some _ =>
      dsimp only
      split
      · exact h
      · exact trivial
  | update user storedHash newHash =>
    cases issues
    obtain ⟨target, email, code, rfl⟩ := h
    cases reply with
    | none => exact trivial
    | some v =>
      obtain ⟨m, seen, -, rfl, ⟨-, hrow⟩ | ⟨hauto, _⟩⟩ := (Db.exec_user ran user.id).updated
      · have hm : (w.db.users user.id).committed = some m :=
          (hw.view_eq running fun _ _ h => h).symm.trans seen
        refine ⟨target, m, _, by rw [hrow]; exact hm, by rw [hrow]; rfl, newHash.salt, env.now, rfl⟩
      · cases hauto
  | refetch user storedHash =>
    cases issues
    cases reply with
    | none => exact trivial
    | some updated => exact ⟨h.1, h.2.exec ran rfl nofun⟩
  | revoke user storedHash updated =>
    have hid : updated.id = user.id := hkeyed
    cases issues
    rw [hid] at ran
    rcases Db.exec_deleteTokens ran with rfl | hwaits
    · exact ⟨h.1, h.2.exec ran rfl nofun, .of_delete ran⟩
    · obtain ⟨i, rest, rfl⟩ := hwaits.eq_cons
      exact ⟨h.1, h.2.exec ran rfl nofun, hwaits⟩
  | revoking user storedHash updated waiting =>
    cases issues
    have hfails := h.2.2.resume_fails ran
    subst hfails
    cases ran
  | commit =>
    cases issues
    exact absurd rfl hc
  | abort =>
    cases issues
    exact trivial
  | done => cases issues

end

/-! ## From the COMMIT on -/

/-- The call has committed: it goes on to return `Ok`, if it can read its row back. -/
def Committed (db : Db) : Call → Prop
  | .changePassword (.refetch id _) | .updateUser (.refetch id) => (db.users id).committed ≠ none
  | .changePassword (.invalidate _ _ _ _) | .updateUser (.invalidate _ _ _)
  | .changePassword (.done (.ok _)) | .updateUser (.done (.ok _))
  | .resetPassword (.done (.ok _)) => True
  | _ => False

/-- A credential change on its own, while it can read its row back. -/
def Proceeding (cfg : Settings) (c : CallId) (start : Call) (db₀ : Db) (w : World) (call : Call) :
    Prop :=
  w.Sound ∧ (Preparing cfg c start db₀ w.db call ∧ db₀.Unchanged start w.db ∨
    Committed w.db call ∧ db₀.Changed cfg start w.db)

/-- The call has failed to read back the row it has committed. -/
def Lost (cfg : Settings) (start : Call) (db₀ : Db) (w : World) (call : Call) : Prop :=
  call.succeeded = false ∧ db₀.Changed cfg start w.db

section
variable {cfg : Settings} {c : CallId} {start before : Call} {db₀ db db' : Db} {w : World}
  {s : Stmt} {input : Input} {fails : Bool} {k : Except DbErr s.Reply → Call}
  {reply : Except DbErr s.Reply} {u : UserId} {m m' v : UserModel}

theorem Preparing.committed {env : Env} {k : Except DbErr Unit → Call} {reply : Unit}
    (h : Preparing cfg c start db₀ db before) (hu : db₀.Unchanged start db)
    (issues : before.next cfg env = some ⟨.commit, k⟩)
    (ran : db.exec c fails .commit = some (db', .ok reply)) :
    Committed db' (k (.ok reply)) ∧ db₀.Changed cfg start db' := by
  cases before with
  | changePassword q =>
    cases q <;> first | exact h.elim | cases issues
    obtain ⟨target, hand, swept⟩ := h
    exact ⟨hand.committed ran, .of_commit hu target hand (fun _ => swept) ran⟩
  | updateUser q =>
    cases q <;> first | exact h.elim | cases issues
    obtain ⟨target, hand, hkeeps⟩ := h
    exact ⟨hand.committed ran, .of_commit hu target hand (by simp [hkeeps]) ran⟩
  | resetPassword q =>
    cases q <;> first | exact h.elim | cases issues
    obtain ⟨target, hand, swept⟩ := h
    exact ⟨trivial, .of_commit hu target hand (fun _ => swept) ran⟩
  | _ => exact h.elim

theorem Preparing.answered {reply : s.Reply} (hw : w.Sound)
    (hstart : start.ChangesCredentials db₀) (running : w.calls[c]? = some before)
    (h : Preparing cfg c start db₀ w.db before)
    (issues : before.next cfg (input.env w.ticks) = some ⟨s, k⟩)
    (ran : w.db.exec c fails s = some (db', .ok reply)) (hc : s ≠ .commit) :
    Preparing cfg c start db₀ db' (k (.ok reply)) := by
  cases before with
  | changePassword q => exact preparing_changePassword hw running h issues ran hc
  | updateUser q => exact preparing_updateUser hw hstart running h issues ran hc
  | resetPassword q => exact preparing_resetPassword hw running h issues ran hc
  | _ => exact h.elim

theorem Preparing.not_rereads (h : Preparing cfg c start db₀ db before) :
    before.rereads = none := by
  cases before with
  | changePassword q | updateUser q => cases q <;> first | rfl | exact h.elim
  | _ => rfl

theorem Db.Changed.frame (h : db₀.Changed cfg start db)
    (hu : ∀ u, (db'.users u).committed = (db.users u).committed) (ht : db.SameTokens db') :
    db₀.Changed cfg start db' := by
  obtain ⟨u, m, m', target, hm, hm', hedits, hswept⟩ := h
  refine ⟨u, m, m', target, hm, (hu u).trans hm', hedits, ?_⟩
  intro hs i t hi
  rw [ht i] at hi
  exact hswept hs i t hi

/-- After the COMMIT nothing changes any more. -/
theorem Committed.frame (hw : w.Sound) (running : w.calls[c]? = some before)
    (h : Committed w.db before) (hC : db₀.Changed cfg start w.db)
    (issues : before.next cfg (input.env w.ticks) = some ⟨s, k⟩)
    (ran : w.db.exec c fails s = some (db', reply)) :
    (∀ u, (db'.users u).committed = (w.db.users u).committed) ∧ db₀.Changed cfg start db' := by
  have hs : s ≠ .commit ∧ ∀ id p, s ≠ .deleteUser id p := by
    cases before with
    | changePassword q | updateUser q =>
      cases q <;> first | exact h.elim | cases issues
      all_goals exact ⟨nofun, nofun⟩
    | resetPassword q => cases q <;> first | exact h.elim | cases issues
    | _ => exact h.elim
  have hrows : ∀ u, (db'.users u).committed = (w.db.users u).committed := by
    intro u
    have hr := hw.row_step running issues ran u
    generalize (w.db.users u).committed = o at hr ⊢
    generalize (db'.users u).committed = o' at hr ⊢
    cases hr with
    | same => rfl
    | write _ update => cases update <;> exact h.elim
    | commit ok issues' =>
      cases issues.symm.trans issues'
      exact absurd rfl hs.1
    | insert _ _ create =>
      subst create
      exact h.elim
    | delete _ delete =>
      subst delete
      exact h.elim
  have hsame : w.db.SameTokens w.db := fun _ => rfl
  exact ⟨hrows, hC.frame hrows (hsame.exec ran (.inl hs.1) hs.2)⟩

theorem reread_cases {reply : Except DbErr (Option UserModel)}
    (ran : db.exec c fails (.selectUserById u) = some (db', reply))
    (hv : (db.users u).view c ≠ none) :
    (fails = true ∧ ∃ e, reply = .error e) ∨ fails = false ∧ ∃ m, reply = .ok (some m) := by
  cases fails with
  | true =>
    cases ran
    exact .inl ⟨rfl, _, rfl⟩
  | false =>
    obtain ⟨m, hm⟩ := Option.ne_none_iff_exists'.mp hv
    cases ran
    exact .inr ⟨rfl, m, congrArg Except.ok hm⟩

/-- A call that has committed returns `Ok`, unless it fails to read its row back. -/
theorem Committed.step (hw : w.Sound) (running : w.calls[c]? = some before)
    (h : Committed w.db before)
    (issues : before.next cfg (input.env w.ticks) = some ⟨s, k⟩)
    (ran : w.db.exec c input.fails s = some (db', reply)) :
    Committed db' (k reply) ∧ ¬ (before.rereads.isSome = true ∧ input.fails = true) ∨
      (k reply).succeeded = false ∧ (k reply).finished = true ∧
        before.rereads.isSome = true ∧ input.fails = true := by
  cases before with
  | changePassword q =>
    cases q with
    | refetch id remember =>
      cases issues
      have hv := hw.view_eq (u := id) running fun _ _ h => h
      rcases reread_cases ran (hv ▸ h) with ⟨hfails, e, rfl⟩ | ⟨hfails, m, rfl⟩
      · exact .inr ⟨rfl, rfl, rfl, hfails⟩
      · exact .inl ⟨trivial, by simp [hfails]⟩
    | invalidate updated remember key rest =>
      cases issues
      refine .inl ⟨?_, nofun⟩
      cases rest <;> exact trivial
    | done => cases issues
    | _ => exact h.elim
  | updateUser q =>
    cases q with
    | refetch id =>
      cases issues
      have hv := hw.view_eq (u := id) running fun _ _ h => h
      rcases reread_cases ran (hv ▸ h) with ⟨hfails, e, rfl⟩ | ⟨hfails, m, rfl⟩
      · exact .inr ⟨rfl, rfl, rfl, hfails⟩
      · exact .inl ⟨trivial, by simp [hfails]⟩
    | invalidate result key rest =>
      cases issues
      refine .inl ⟨?_, nofun⟩
      cases rest <;> exact trivial
    | done => cases issues
    | _ => exact h.elim
  | resetPassword q => cases q <;> first | exact h.elim | cases issues
  | _ => exact h.elim

theorem Proceeding.step (hstart : start.ChangesCredentials db₀)
    (h : Proceeding cfg c start db₀ w before) (running : w.calls[c]? = some before)
    (issues : before.next cfg (input.env w.ticks) = some ⟨s, k⟩)
    (ran : w.db.exec c input.fails s = some (db', reply)) :
    Proceeding cfg c start db₀ (w.after c before (s.applied reply) (k reply) db') (k reply) ∧
        ¬ (before.rereads.isSome = true ∧ input.fails = true) ∨
      Lost cfg start db₀ (w.after c before (s.applied reply) (k reply) db') (k reply) ∧
        (k reply).finished = true ∧ before.rereads.isSome = true ∧ input.fails = true := by
  obtain ⟨hw, ⟨hp, hu⟩ | ⟨hc, hC⟩⟩ := h
  · have hw' := hw.step (.exec running issues ran)
    have hgood : ¬ (before.rereads.isSome = true ∧ input.fails = true) := by
      rw [hp.not_rereads]
      nofun
    cases reply with
    | error e =>
      exact .inl ⟨⟨hw', .inl ⟨hp.failed issues, hu.exec hw running hp issues ran (.inr ⟨e, rfl⟩)⟩⟩,
        hgood⟩
    | ok reply =>
      by_cases hs : s = .commit
      · subst hs
        exact .inl ⟨⟨hw', .inr (hp.committed hu issues ran)⟩, hgood⟩
      · exact .inl ⟨⟨hw', .inl ⟨hp.answered hw hstart running issues ran hs,
          hu.exec hw running hp issues ran (.inl hs)⟩⟩, hgood⟩
  · obtain ⟨hrows, hC'⟩ := hc.frame hw running hC issues ran
    rcases hc.step hw running issues ran with ⟨hc', hgood⟩ | ⟨herr, hf, hbad⟩
    · exact .inl ⟨⟨hw.step (.exec running issues ran), .inr ⟨hc', hC'⟩⟩, hgood⟩
    · exact .inr ⟨⟨herr, hC'⟩, hf, hbad⟩

theorem Db.Changed.not_unchanged (h : db₀.Changed cfg start db) : ¬ db₀.Unchanged start db := by
  obtain ⟨u, m, m', _, hm, hm', hedits, _⟩ := h
  intro hu
  have hkept := hu.users u
  rw [hm, hm'] at hkept
  have hversion : m'.tokenVersion = m.tokenVersion := by
    have := congrArg (Option.map UserModel.tokenVersion) hkept
    cases start <;> simpa [Call.keeps, UserModel.uncounted] using this
  have hbumped : m'.tokenVersion = m.tokenVersion + 1 := by
    cases start with
    | changePassword q | resetPassword q =>
      cases q <;> first | exact hedits.elim | skip
      obtain ⟨_, _, rfl⟩ := hedits
      rfl
    | updateUser q =>
      cases q <;> first | exact hedits.elim | skip
      obtain ⟨_, rfl⟩ := hedits
      rfl
    | _ => exact hedits.elim
  omega

theorem Call.ChangesCredentials.initial (h : start.ChangesCredentials db) :
    start.initial = true := by
  cases start with
  | changePassword q | updateUser q | resetPassword q =>
    cases q <;> first | rfl | exact h.elim
  | _ => exact h.elim

theorem Preparing.at_start (h : start.ChangesCredentials db) :
    Preparing cfg c start db db start := by
  cases start with
  | changePassword q =>
    cases q <;> first | exact h.elim | rfl
  | updateUser q | resetPassword q =>
    cases q <;> first | exact h.elim | exact ⟨rfl, rfl⟩
  | _ => exact h.elim

theorem Preparing.not_succeeded (h : Preparing cfg c start db₀ db before) :
    before.succeeded = false := by
  cases before with
  | changePassword q | updateUser q | resetPassword q =>
    cases q with
    | done r =>
      cases r with
      | error => rfl
      | ok => exact h.elim
    | _ => rfl
  | _ => rfl

theorem Committed.succeeded (h : Committed db before) (hf : before.finished = true) :
    before.succeeded = true := by
  cases before with
  | changePassword q | updateUser q | resetPassword q =>
    cases q with
    | done r =>
      cases r with
      | error => exact h.elim
      | ok => rfl
    | _ => first | exact h.elim | cases hf
  | _ => exact h.elim

/-- A credential change on its own is atomic, unless it fails to read back the row
that it has committed. -/
theorem credential_change_atomic {w₀ w' : World} {inputs : List Input}
    {issued : List (Call × Input)} {result : Call} (h0 : w₀.Initial)
    (hr : Runs.Reaches (World.step cfg) Runs.Free w₀ w) (hstart : start.ChangesCredentials w.db)
    (run : w.callAlone cfg start inputs = some (w', issued))
    (hresult : w'.calls[w.calls.length]? = some result) :
    Atomic cfg start w.db w'.db result ↔
      ∀ i ∈ issued, ¬ (i.1.rereads.isSome = true ∧ i.2.fails = true) := by
  have hinitial := hstart.initial
  have running : (w.join start).calls[w.calls.length]? = some start := by
    simp [World.join]
  have hinvoke : World.Transition cfg w (.invoke start) (w.join start) := .invoke hinitial
  have hproceeding : Proceeding cfg w.calls.length start w.db (w.join start) start :=
    ⟨(h0.sound.reached hr).step hinvoke, .inl ⟨.at_start hstart, fun _ => rfl, fun _ => rfl⟩⟩
  have halone : World.alone cfg w.calls.length inputs (w.join start) = some (w', issued) := by
    simpa [World.callAlone, World.step, hinitial] using run
  obtain ⟨call, hcall, hf, hend⟩ :=
    World.alone_cases (fun _ _ _ _ _ _ _ h running issues ran => h.step hstart running issues ran)
      running hproceeding halone
  cases hresult.symm.trans hcall
  rcases hend with ⟨⟨-, hend⟩, hall⟩ | ⟨⟨herr, hC⟩, i, hi, hbad⟩
  · refine ⟨fun _ => hall, ?_⟩
    intro _
    rcases hend with ⟨hp, hu⟩ | ⟨hc, hC⟩
    · exact ⟨fun _ => hu, fun hok => absurd (hp.not_succeeded.symm.trans hok) Bool.false_ne_true⟩
    · exact ⟨fun herr => absurd (herr.symm.trans (hc.succeeded hf)) Bool.false_ne_true,
        fun _ => hC⟩
  · exact ⟨fun hatomic => absurd (hatomic.1 herr) hC.not_unchanged,
      fun hall => absurd hbad (hall i hi)⟩

end

namespace World

/-- Ada's change of password. -/
def adaChanges : Call := .changePassword (.find 1 "Passw0rd!" "First-1st" false)

/-- Ada changes her password, and statement number `i` fails. -/
def changeFailing (i : Nat) : Option (World × List (Call × Input)) :=
  signedIn.callAlone .plain adaChanges ((List.range 8).map fun j => { fails := j == i })

/-- With a failing COMMIT nothing has happened. -/
theorem credential_change_atomic_rolled_back : ∃ w' issued result,
    changeFailing 4 = some (w', issued) ∧ w'.calls[0]? = some result ∧
      Atomic .plain adaChanges signedIn.db w'.db result := by
  obtain ⟨⟨w', issued⟩, hrun⟩ :=
    Option.isSome_iff_exists.mp (show (changeFailing 4).isSome = true by decide)
  have hreturned : (changeFailing 4).all (fun o => (o.1.calls[0]?).isSome) = true := by decide
  have hreread : (changeFailing 4).all
      (fun o => o.2.all fun i => !(i.1.rereads.isSome && i.2.fails)) = true := by
    decide
  rw [hrun] at hreturned hreread
  obtain ⟨result, hresult⟩ := Option.isSome_iff_exists.mp hreturned
  have hstart : adaChanges.ChangesCredentials signedIn.db := trivial
  refine ⟨w', issued, result, hrun, hresult,
    (credential_change_atomic initial_signedIn .start hstart hrun hresult).mpr ?_⟩
  rintro i hi ⟨hread, hfails⟩
  have hgood := List.all_eq_true.mp hreread i hi
  rw [hread, hfails] at hgood
  cases hgood

/-- With a failing read after the COMMIT Ada gets an error, and a new password. -/
theorem credential_change_not_undone :
    ¬ ∀ cfg start w₀ w w' inputs issued result, World.Initial w₀ →
      Runs.Reaches (World.step cfg) Runs.Free w₀ w → start.ChangesCredentials w.db →
      w.callAlone cfg start inputs = some (w', issued) →
      w'.calls[w.calls.length]? = some result → Atomic cfg start w.db w'.db result := by
  intro h
  obtain ⟨⟨w', issued⟩, hrun⟩ :=
    Option.isSome_iff_exists.mp (show (changeFailing 5).isSome = true by decide)
  have hreturned : (changeFailing 5).all (fun o => (o.1.calls[0]?).isSome) = true := by decide
  have hfailed : (changeFailing 5).all (fun o => (o.1.calls[0]?).all (!·.succeeded)) = true := by
    decide
  have hversion : (changeFailing 5).all (fun o =>
      (o.1.db.users 1).committed.any fun m => m.tokenVersion == 2) = true := by
    decide
  rw [hrun] at hreturned hfailed hversion
  obtain ⟨result, hresult⟩ := Option.isSome_iff_exists.mp hreturned
  have hstart : adaChanges.ChangesCredentials signedIn.db := trivial
  have hatomic := h _ _ _ _ w' _ issued result initial_signedIn .start hstart hrun hresult
  have herr : result.succeeded = false := by
    simpa [hresult] using hfailed
  have hkept : (w'.db.users 1).committed = (signedIn.db.users 1).committed := by
    simpa [adaChanges, Call.keeps] using (hatomic.1 herr).users 1
  simp only [Option.all_some, hkept] at hversion
  exact absurd hversion (by decide)

end World

end Webshelf
