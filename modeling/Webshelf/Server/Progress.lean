import Webshelf.Server.Alone
import Webshelf.Server.Serve
import Webshelf.Sessions.Tokens
import Webshelf.Users.Columns

/-!
# The server at rest

Rows and refresh tokens are held by calls that are under way, and by no others. A
call that has the server to itself never waits, so it returns, wherever it
stands and whatever fails, after at most eight statements; then nothing is held.
-/

namespace Webshelf

/-! ## Statements that need not wait -/

/-- What is held of the tables is held by `c`. -/
structure Db.HeldOnlyBy (c : CallId) (db : Db) : Prop where
  rows : ∀ u o v, (db.users u).pending = some (o, v) → o = c
  tokens : ∀ i t st o, db.tokens.get i = some (t, st) → st.owner = some o → o = c

/-- Nothing is held. -/
structure Db.AtRest (db : Db) : Prop where
  rows : ∀ u, (db.users u).pending = none
  tokens : ∀ i t st, db.tokens.get i = some (t, st) → st = .live

/-- The statement takes effect outside any transaction. -/
def Stmt.atOnce : Stmt → Bool
  | .updateUser .auto _ _ _ | .insertUser _ | .deleteUser _ _ => true
  | _ => false

namespace Db

variable {db : Db} {c : CallId} {u : UserId} {s : Stmt}

theorem HeldOnlyBy.row (h : db.HeldOnlyBy c) : (db.users u).heldByOther c = false := by
  unfold Versioned.heldByOther
  split
  · rename_i o v hp
    simpa using h.rows u o v hp
  · rfl

theorem HeldOnlyBy.token {i : TokenId} {t : RefreshToken} {st : Hold CallId}
    (h : db.HeldOnlyBy c) (hg : db.tokens.get i = some (t, st)) : st.heldByOther c = false := by
  cases ho : st.heldByOther c with
  | false => rfl
  | true =>
    obtain ⟨o, hown, hne⟩ := Hold.heldByOther_iff.mp ho
    exact absurd (h.tokens i t st o hg hown) hne

theorem HeldOnlyBy.blocked {conn : Conn} (h : db.HeldOnlyBy c)
    (rest : conn = .auto → db.AtRest) : db.blocked c conn u = false := by
  cases conn with
  | txn => exact h.row
  | auto =>
    have hp := (rest rfl).rows u
    simp [Db.blocked, hp]

/-- With nobody else's hand on the tables no statement waits. -/
theorem HeldOnlyBy.exec_some (fails : Bool) (h : db.HeldOnlyBy c)
    (rest : s.atOnce = true → db.AtRest)
    (fresh : ∀ m, s = .insertUser m → m.id ∉ db.ids) :
    ∃ db' reply, db.exec c fails s = some (db', reply) := by
  suffices heval : db.eval c s ≠ none by
    obtain ⟨res, hres⟩ := Option.ne_none_iff_exists'.mp heval
    unfold Db.exec
    split
    · exact ⟨_, _, rfl⟩
    · rw [hres]
      rcases res with e | ⟨db', reply⟩ <;> exact ⟨_, _, rfl⟩
  cases s with
  | selectUser | selectUserById | deleteTokens | commit | rollback | redisGet | redisExists
  | redisSetEx | redisDel | skip => exact Option.some_ne_none _
  | selectUserForUpdate id =>
    have hfree : db.blocked c .txn id = false := by
      apply h.blocked
      intro hconn
      cases hconn
    simp only [Db.eval, Db.selectUserForUpdate, hfree]
    split <;> simp
  | updateUser conn id p set =>
    have hfree (u : UserId) : db.blocked c conn u = false := by
      apply h.blocked
      rintro rfl
      exact rest rfl
    simp only [Db.eval, Db.updateUser, hfree]
    (repeat' split) <;> simp_all
  | insertUser m =>
    have hrest := rest rfl
    simp only [Db.eval, Db.insertUser, if_neg (fresh m rfl), hrest.rows]
    (repeat' split) <;> simp_all
  | deleteUser id p =>
    have hrest := rest rfl
    have hfree : db.tokenInHand id = false := by
      simp only [Db.tokenInHand, List.any_eq_false]
      intro i _
      cases hg : db.tokens.get i with
      | none => simp
      | some r =>
        obtain ⟨t, st⟩ := r
        obtain rfl := hrest.tokens i t st hg
        simp [Hold.owner]
    simp only [Db.eval, Db.deleteUser, hrest.rows, hfree]
    (repeat' split) <;> simp_all
  | lockToken hash now =>
    simp only [Db.eval, Db.lockToken]
    split
    · exact Option.some_ne_none _
    · rename_i i hi
      obtain ⟨t, st, hg, _, _⟩ := Heap.mem_snapshot.mp (List.mem_of_head? hi)
      simp [hg, h.token hg]
  | resumeDelete waiting =>
    cases waiting with
    | nil => exact Option.some_ne_none _
    | cons i is =>
      cases hg : db.tokens.get i with
      | none => simp [Db.eval, Db.resumeDelete, hg]
      | some r => simp [Db.eval, Db.resumeDelete, hg, h.token hg]
  | insertToken token =>
    simp only [Db.eval, Db.insertToken]
    split
    · exact Option.some_ne_none _
    · split
      · rename_i i hi
        obtain ⟨t, st, hg, _, _⟩ := Heap.mem_snapshot.mp (List.mem_of_head? hi)
        simp [hg, h.token hg]
      · exact Option.some_ne_none _

end Db

/-! ## Places of a call -/

/-- A DELETE that is still to visit rows that it waits for. -/
def Stmt.waits : (s : Stmt) → Except DbErr s.Reply → Bool
  | .deleteTokens _, .ok (_ :: _) | .resumeDelete _, .ok (_ :: _) => true
  | _, _ => false

/-- The statement may take refresh tokens in hand. -/
def Stmt.takes : (s : Stmt) → s.Reply → Bool
  | .lockToken _ _, found => found.isSome
  | .deleteTokens _, _ | .resumeDelete _, _ | .insertToken _, _ => true
  | _, _ => false

namespace Call

/-- The transaction of the call may have refresh tokens in hand. -/
def holdsTokens : Call → Bool
  | login (.revoking _ _ _ _ _) | login (.store _ _ _ _) | login (.commit _ _ _)
  | rotate (.find _ _ _ _ _) | rotate (.delete _ _ _ _ _) | rotate (.deleting _ _ _ _ _)
  | rotate (.store _ _ _ _) | rotate (.commit _ _ _) | rotate .abort
  | revokeAll (.revoking _ _) | revokeAll (.bump _) | revokeAll (.commit _)
  | logout (.deleting _) | logout .commit
  | resetPassword (.revoking _ _ _ _) | resetPassword (.commit _ _ _)
  | changePassword (.revoking _ _ _) | changePassword (.commit _ _) => true
  | _ => false

/-- The statements to go, if no DELETE waits. -/
def statementsLeft : Call → Nat
  | requestReset (.find _) | resendCode (.find _) | sendVerification (.find _)
  | autoVerify (.find _) | verifyEmail (.claim _ _ _) | rotate (.store _ _ _ _)
  | login (.store _ _ _ _) | revokeAll (.commit _) | logout (.delete _) | logout (.deleting _)
  | checkTokenVersion (.find _ _) | modifyBalance (.commit _ _ _) | getUser (.find _ _)
  | resetPassword (.revoke _ _ _) | resetPassword (.revoking _ _ _ _)
  | updateUser (.update _ _ _ _) => 2
  | verifyEmail (.find _ _) | rotate (.delete _ _ _ _ _) | rotate (.deleting _ _ _ _ _)
  | login (.revoke _ _ _ _) | login (.revoking _ _ _ _ _) | revokeAll (.bump _)
  | checkTokenVersion (.get _ _) | modifyBalance (.update _ _ _ _ _) | getUser (.marker _ _)
  | resetPassword (.refetch _ _) | updateUser (.refetch _) | changePassword (.refetch _ _) => 3
  | rotate (.find _ _ _ _ _) | login (.find _) | revokeAll (.revoke _)
  | revokeAll (.revoking _ _) | modifyBalance (.lock _ _ _) | getUser (.get _ _)
  | resetPassword (.update _ _ _) | updateUser (.commit _) | changePassword (.commit _ _)
  | createUser (.insert _ _) => 4
  | rotate (.lock _) | resetPassword (.claim _ _ _ _) | updateUser (.updateBumped _ _ _ _)
  | changePassword (.revoke _ _) | changePassword (.revoking _ _ _) => 5
  | resetPassword (.find _ _ _) | updateUser (.bump _ _ _ _) | changePassword (.update _ _ _ _ _)
  | deleteUser (.delete _ _) => 6
  | updateUser (.find _ _ _) | changePassword (.bump _ _ _ _) | deleteUser (.find _ _ _) => 7
  | changePassword (.find _ _ _ _) => 8
  | createUser (.invalidate _ _ rest) | updateUser (.invalidate _ _ rest)
  | changePassword (.invalidate _ _ _ rest) | deleteUser (.invalidate _ rest) => rest.length + 1
  | call => if call.finished then 0 else 1

section
variable {cfg : Settings} {env : Env} {before : Call} {s : Stmt} {u : UserId} {m v : UserModel}
  {k : Except DbErr s.Reply → Call} {reply : Except DbErr s.Reply}

theorem issues_of_running (cfg : Settings) (env : Env) (h : before.finished = false) :
    ∃ s k, before.next cfg env = some ⟨s, k⟩ := by
  cases before with
  | createUser q =>
    cases q with
    | insert input actorRole =>
      simp only [next, Webshelf.createUser]
      (repeat' split) <;> exact ⟨_, _, rfl⟩
    | invalidate => exact ⟨_, _, rfl⟩
    | done => cases h
  | _ q => cases q <;> first | exact ⟨_, _, rfl⟩ | cases h

theorem running_of_working (h : before.Working u m v) : before.finished = false := by
  cases before with
  | _ q => cases q <;> first | rfl | exact h.elim

theorem running_of_holds (h : before.holdsTokens = true) : before.finished = false := by
  cases before with
  | _ q => cases q <;> first | rfl | cases h

/-- A new call is at most eight statements from its end. -/
theorem statementsLeft_initial (h : before.initial = true) : before.statementsLeft ≤ 8 := by
  cases before with
  | _ q => cases q <;> simp [initial, statementsLeft, finished] at h ⊢

/-- A statement that waits for nothing brings the call nearer to its end. -/
theorem statementsLeft_step (issues : before.next cfg env = some ⟨s, k⟩)
    (hw : s.waits reply = false) : (k reply).statementsLeft < before.statementsLeft := by
  cases before with
  | login q =>
    cases q with
    | revoke | revoking =>
      cases issues
      rcases reply with e | _ | ⟨i, is⟩
      · simp [statementsLeft, finished, deleted]
      · simp [statementsLeft, deleted]
      · cases hw
    | find | store | commit =>
      cases issues
      dsimp only
      (repeat' split) <;> simp [statementsLeft, finished]
    | done => cases issues
  | rotate q =>
    cases q with
    | delete | deleting =>
      cases issues
      rcases reply with e | _ | ⟨i, is⟩
      · simp [statementsLeft, finished, deleted]
      · simp [statementsLeft, deleted]
      · cases hw
    | lock | find | store | commit | abort =>
      cases issues
      dsimp only
      (repeat' split) <;> simp [statementsLeft, finished]
    | done => cases issues
  | revokeAll q =>
    cases q with
    | revoke | revoking =>
      cases issues
      rcases reply with e | _ | ⟨i, is⟩
      · simp [statementsLeft, finished, deleted]
      · simp [statementsLeft, deleted]
      · cases hw
    | bump | commit | invalidate =>
      cases issues
      dsimp only
      (repeat' split) <;> simp [statementsLeft, finished]
    | done => cases issues
  | logout q =>
    cases q with
    | delete | deleting =>
      cases issues
      rcases reply with e | _ | ⟨i, is⟩
      · simp [statementsLeft, finished, deleted]
      · simp [statementsLeft, finished, deleted]
      · cases hw
    | commit =>
      cases issues
      simp [statementsLeft, finished]
    | done => cases issues
  | resetPassword q =>
    cases q with
    | revoke | revoking =>
      cases issues
      rcases reply with e | _ | ⟨i, is⟩
      · simp [statementsLeft, finished, deleted]
      · simp [statementsLeft, finished, deleted]
      · cases hw
    | find | claim | update | refetch | commit | abort =>
      cases issues
      dsimp only
      (repeat' split) <;> simp [statementsLeft, finished]
    | done => cases issues
  | changePassword q =>
    cases q with
    | revoke | revoking =>
      cases issues
      rcases reply with e | _ | ⟨i, is⟩
      · simp [statementsLeft, finished, deleted]
      · simp [statementsLeft, deleted]
      · cases hw
    | invalidate updated remember key rest =>
      cases issues
      cases rest <;> simp [statementsLeft, finished]
    | find | bump | update | commit | refetch | abort =>
      cases issues
      dsimp only
      (repeat' split) <;> simp [statementsLeft, finished]
    | done => cases issues
  | createUser q =>
    cases q with
    | insert input actorRole =>
      simp only [next, Webshelf.createUser] at issues
      (repeat' split at issues) <;> cases issues
      · simp [statementsLeft, finished]
      · simp [statementsLeft, finished]
      · dsimp only
        split <;> simp [statementsLeft, finished]
    | invalidate user key rest =>
      cases issues
      cases rest <;> simp [statementsLeft, finished]
    | done => cases issues
  | updateUser q =>
    cases q with
    | invalidate result key rest =>
      cases issues
      cases rest <;> simp [statementsLeft, finished]
    | find | bump | updateBumped | commit | refetch | update | abort =>
      cases issues
      dsimp only
      (repeat' split) <;> simp [statementsLeft, finished]
    | done => cases issues
  | deleteUser q =>
    cases q with
    | invalidate key rest =>
      cases issues
      cases rest <;> simp [statementsLeft, finished]
    | find | delete =>
      cases issues
      dsimp only
      (repeat' split) <;> simp [statementsLeft, finished]
    | done => cases issues
  | requestReset q | resendCode q | sendVerification q | autoVerify q | verifyEmail q | wxLogin q
  | checkTokenVersion q | modifyBalance q | getUser q | setOpenid q =>
    cases q <;> first
      | cases issues; done
      | (cases issues; dsimp only; (repeat' split) <;> simp [statementsLeft, finished])

/-- Refresh tokens stay in hand until the transaction ends. -/
theorem holdsTokens_step {reply : s.Reply} (issues : before.next cfg env = some ⟨s, k⟩)
    (hc : s ≠ .commit) (hr : s ≠ .rollback)
    (h : before.holdsTokens = true ∨ s.takes reply = true) :
    (k (.ok reply)).holdsTokens = true := by
  cases before with
  | login q =>
    cases q with
    | revoke | revoking =>
      cases issues
      rcases reply with _ | ⟨i, is⟩ <;> rfl
    | store =>
      cases issues
      rfl
    | commit =>
      cases issues
      exact absurd rfl hc
    | find =>
      cases issues
      rcases h with h | h <;> cases h
    | done => cases issues
  | rotate q =>
    cases q with
    | lock =>
      cases issues
      rcases reply with _ | r
      · rcases h with h | h <;> cases h
      · rfl
    | find =>
      cases issues
      rcases reply with _ | user <;> rfl
    | delete | deleting =>
      cases issues
      rcases reply with _ | ⟨i, is⟩ <;> rfl
    | store =>
      cases issues
      rfl
    | commit =>
      cases issues
      exact absurd rfl hc
    | abort =>
      cases issues
      exact absurd rfl hr
    | done => cases issues
  | revokeAll q =>
    cases q with
    | revoke | revoking =>
      cases issues
      rcases reply with _ | ⟨i, is⟩ <;> rfl
    | bump =>
      cases issues
      rfl
    | commit =>
      cases issues
      exact absurd rfl hc
    | invalidate =>
      cases issues
      rcases h with h | h <;> cases h
    | done => cases issues
  | logout q =>
    cases q with
    | delete | deleting =>
      cases issues
      rcases reply with _ | ⟨i, is⟩ <;> rfl
    | commit =>
      cases issues
      exact absurd rfl hc
    | done => cases issues
  | resetPassword q | changePassword q =>
    cases q with
    | revoke | revoking =>
      cases issues
      rcases reply with _ | ⟨i, is⟩ <;> rfl
    | commit =>
      cases issues
      exact absurd rfl hc
    | done => cases issues
    | _ =>
      cases issues
      rcases h with h | h <;> cases h
  | createUser q =>
    cases q with
    | insert input actorRole =>
      rcases insert_issues issues with rfl | ⟨role, -, rfl⟩ <;> rcases h with h | h <;> cases h
    | invalidate =>
      cases issues
      rcases h with h | h <;> cases h
    | done => cases issues
  | requestReset q | resendCode q | sendVerification q | autoVerify q | verifyEmail q | wxLogin q
  | checkTokenVersion q | modifyBalance q | getUser q | setOpenid q | updateUser q
  | deleteUser q =>
    cases q <;> cases issues <;> rcases h with h | h <;> cases h

theorem insert_never {q : CreateUserInput} {role : String}
    (issues : before.next cfg env = some ⟨s, k⟩) : k reply ≠ .createUser (.insert q role) := by
  cases before with
  | createUser p =>
    obtain ⟨k', hnext, rfl⟩ := Next.map_some issues
    intro h
    exact insert_left hnext q role (by injection h)
  | _ p =>
    obtain ⟨k', _, rfl⟩ := Next.map_some issues
    intro h
    cases h

/-- A statement outside any transaction is issued with nothing in hand. -/
theorem idle_of_atOnce (issues : before.next cfg env = some ⟨s, k⟩) (h : s.atOnce = true) :
    (∀ u m v, ¬ before.Working u m v) ∧ before.holdsTokens = false := by
  cases s with
  | updateUser conn id p set =>
    cases conn with
    | auto => cases next_writes issues <;> exact ⟨fun _ _ _ h => h, rfl⟩
    | txn => cases h
  | insertUser =>
    obtain ⟨input, actorRole, role, rfl, -⟩ := next_insertUser issues
    exact ⟨fun _ _ _ h => h, rfl⟩
  | deleteUser =>
    obtain ⟨role, rfl⟩ := next_deleteUser issues
    exact ⟨fun _ _ _ h => h, rfl⟩
  | _ => cases h

end

end Call

namespace World

/-- A refresh token in hand belongs to a call whose transaction is open. -/
def TokensInHand (w : World) : Prop :=
  ∀ i t st o, w.db.tokens.get i = some (t, st) → st.owner = some o →
    ∃ call, w.calls[o]? = some call ∧ call.holdsTokens = true

/-- Every call but `c` has returned. -/
def OnlyRuns (w : World) (c : CallId) : Prop :=
  ∀ (o : CallId) (call : Call), w.calls[o]? = some call → o ≠ c → call.finished = true

variable {cfg : Settings} {w₀ w w' : World} {l : Label} {c : CallId} {before call : Call}
  {s : Stmt} {input : Input} {k : Except DbErr s.Reply → Call} {reply : Except DbErr s.Reply}
  {db' : Db} {inputs : List Input}

theorem Initial.tokensInHand (h0 : w.Initial) : w.TokensInHand := by
  intro i t st o hg ho
  obtain rfl := h0.tokens i t st hg
  cases ho

section
variable (running : w.calls[c]? = some before)
  (issues : before.next cfg (input.env w.ticks) = some ⟨s, k⟩)
  (ran : w.db.exec c input.fails s = some (db', reply))
include running issues ran

theorem TokensInHand.exec (hT : w.TokensInHand) :
    (w.after c before (s.applied reply) (k reply) db').TokensInHand := by
  intro i t st o hg ho
  change db'.tokens.get i = some (t, st) at hg
  have hs := Db.exec_tokens ran
  by_cases hoc : o = c
  · subst hoc
    refine ⟨k reply, after_self running, ?_⟩
    -- what was in hand before, the open transaction still has
    have hkept {t : RefreshToken} (reply : s.Reply) (hc : s ≠ .commit) (hr : s ≠ .rollback)
        (hg : w.db.tokens.get i = some (t, st)) : (k (.ok reply)).holdsTokens = true := by
      obtain ⟨call, hcall, hholds⟩ := hT i t st o hg ho
      rw [running] at hcall
      cases hcall
      exact Call.holdsTokens_step issues hc hr (.inl hholds)
    generalize db'.tokens = h' at hs hg
    cases hs with
    | stay other =>
      exact hkept _ (by rintro rfl; cases other) (by rintro rfl; cases other) hg
    | missed => exact hkept _ (by rintro ⟨⟩) (by rintro ⟨⟩) hg
    | drop => exact hkept _ (by rintro ⟨⟩) (by rintro ⟨⟩) (Heap.drop_get hg)
    | lock | delete | resume | insert =>
      exact Call.holdsTokens_step issues (by rintro ⟨⟩) (by rintro ⟨⟩) (.inr rfl)
    | commit => exact absurd ho (Heap.commit_released hg)
    | rollback | fail => exact absurd ho (Heap.rollback_released hg)
  · obtain ⟨call, hcall, hholds⟩ := hT i t st o ((hs.toStep i).owner_other hg ho hoc) ho
    exact ⟨call, by rw [after_other hoc]; exact hcall, hholds⟩

end

theorem TokensInHand.step (hT : w.TokensInHand) (ht : Transition cfg w l w') :
    w'.TokensInHand := by
  cases ht with
  | exec running issues ran => exact hT.exec running issues ran
  | expire => exact hT
  | invoke =>
    intro i t st o hg ho
    obtain ⟨call, hcall, hholds⟩ := hT i t st o hg ho
    exact ⟨call, join_old hcall, hholds⟩

/-- Everything that is held is held by calls under way. -/
structure Orderly (w : World) : Prop where
  sound : w.Sound
  tokens : w.TokensInHand

theorem Orderly.step (hO : w.Orderly) (ht : Transition cfg w l w') : w'.Orderly :=
  ⟨hO.sound.step ht, hO.tokens.step ht⟩

theorem orderly_reached (h0 : w₀.Initial) (h : Runs.Reaches (step cfg) Runs.Free w₀ w) :
    w.Orderly := by
  apply h.invariant (I := Orderly)
  · exact ⟨h0.sound, h0.tokensInHand⟩
  · intro a l b hI _ hstep
    exact hI.step (step_transition hstep)

section
variable (hO : w.Orderly) (hc : w.OnlyRuns c)
include hO hc

theorem Orderly.heldOnlyBy : w.db.HeldOnlyBy c where
  rows u o v hp := by
    obtain ⟨m, call, -, hcall, hwork⟩ := hO.sound.working u o v hp
    by_contra ho
    have hf := hc o call hcall ho
    rw [Call.running_of_working hwork] at hf
    cases hf
  tokens i t st o hg ho := by
    obtain ⟨call, hcall, hholds⟩ := hO.tokens i t st o hg ho
    by_contra hne
    have hf := hc o call hcall hne
    rw [Call.running_of_holds hholds] at hf
    cases hf

/-- With nothing in the hand of the one call either, nothing is held. -/
theorem Orderly.atRest (hidle : ∀ call, w.calls[c]? = some call →
    (∀ u m v, ¬ call.Working u m v) ∧ call.holdsTokens = false) : w.db.AtRest where
  rows u := by
    apply Option.eq_none_iff_forall_ne_some.mpr
    rintro ⟨o, v⟩ hp
    obtain rfl := (hO.heldOnlyBy hc).rows u o v hp
    obtain ⟨m, call, -, hcall, hwork⟩ := hO.sound.working u o v hp
    exact (hidle call hcall).1 u m v hwork
  tokens i t st hg := by
    cases ho : st.owner with
    | none => cases st <;> first | rfl | cases ho
    | some o =>
      obtain rfl := (hO.heldOnlyBy hc).tokens i t st o hg ho
      obtain ⟨call, hcall, hholds⟩ := hO.tokens i t st o hg ho
      rw [(hidle call hcall).2] at hholds
      cases hholds

end

/-- A DELETE that nobody is in the way of visits all its rows. -/
theorem waits_of_alone (hfree : db'.HeldOnlyBy c)
    (ran : w.db.exec c input.fails s = some (db', reply)) : s.waits reply = false := by
  have hvisited (is : List TokenId) (i : TokenId) (rest : List TokenId)
      (hleft : i :: rest = (w.db.tokens.deleteScan c is).1)
      (hdb : db'.tokens = (w.db.tokens.deleteScan c is).2) : False := by
    obtain ⟨t, st, hg, held⟩ := Heap.deleteScan_held hleft.symm
    rw [hfree.token (hdb ▸ hg)] at held
    cases held
  have hs := Db.exec_tokens ran
  cases s with
  | deleteTokens p =>
    rcases reply with e | _ | ⟨i, rest⟩
    · rfl
    · rfl
    · obtain ⟨hleft, hdb⟩ := hs.swept
      exact (hvisited _ i rest hleft hdb).elim
  | resumeDelete waiting =>
    rcases reply with e | _ | ⟨i, rest⟩
    · rfl
    · rfl
    · obtain ⟨hleft, hdb⟩ := hs.resumed
      exact (hvisited _ i rest hleft hdb).elim
  | _ => rfl

theorem OnlyRuns.finished (hc : w.OnlyRuns c) (running : w.calls[c]? = some before)
    (hf : before.finished = true) : ∀ call ∈ w.calls, call.finished = true := by
  intro call hmem
  obtain ⟨o, ho⟩ := List.mem_iff_getElem?.mp hmem
  by_cases hoc : o = c
  · subst hoc
    rw [running] at ho
    cases ho
    exact hf
  · exact hc o call ho hoc

/-- The rule for a call that has the server to itself. -/
theorem alone_returns (hO : w.Orderly) (hc : w.OnlyRuns c)
    (running : w.calls[c]? = some before) (enough : before.statementsLeft ≤ inputs.length)
    (fresh : ∀ q role, before = .createUser (.insert q role) →
      ∀ input ∈ inputs.head?, input.newId ∉ w.db.ids) :
    ∃ w' issued, alone cfg c inputs w = some (w', issued) ∧ w'.Orderly ∧
      ∀ call ∈ w'.calls, call.finished = true := by
  induction inputs generalizing w before with
  | nil =>
    cases hf : before.finished with
    | true => exact ⟨w, [], alone_finished running hf, hO, hc.finished running hf⟩
    | false =>
      obtain ⟨s, k, issues⟩ := Call.issues_of_running cfg (Input.env {} 0) hf
      have hlt : (k (.error .other)).statementsLeft < before.statementsLeft := by
        apply Call.statementsLeft_step issues
        cases s <;> rfl
      exact absurd (Nat.lt_of_lt_of_le hlt enough) (Nat.not_lt_zero _)
  | cons input rest ih =>
    cases hf : before.finished with
    | true => exact ⟨w, [], alone_finished running hf, hO, hc.finished running hf⟩
    | false =>
      obtain ⟨s, k, issues⟩ := Call.issues_of_running cfg (input.env w.ticks) hf
      have hrest (hs : s.atOnce = true) : w.db.AtRest := by
        apply hO.atRest hc
        intro call hcall
        rw [running] at hcall
        cases hcall
        exact Call.idle_of_atOnce issues hs
      have hnew (m : UserModel) (hs : s = .insertUser m) : m.id ∉ w.db.ids := by
        subst hs
        obtain ⟨q, actorRole, role, hq, -, rfl⟩ := Call.next_insertUser issues
        exact fresh q actorRole hq input rfl
      obtain ⟨db', reply, ran⟩ := (hO.heldOnlyBy hc).exec_some input.fails hrest hnew
      have hstep := step_exec running issues ran
      have hO₁ := hO.step (step_transition hstep)
      have hc₁ : (w.after c before (s.applied reply) (k reply) db').OnlyRuns c := by
        intro o call ho hoc
        rw [after_other hoc] at ho
        exact hc o call ho hoc
      have hlt := Call.statementsLeft_step issues (waits_of_alone (hO₁.heldOnlyBy hc₁) ran)
      have henough : (k reply).statementsLeft ≤ rest.length := by
        simp only [List.length_cons] at enough
        omega
      obtain ⟨w', issued, hrun, hO', hreturned⟩ :=
        ih hO₁ hc₁ (after_self running) henough fun q role hq =>
          absurd hq (Call.insert_never issues)
      refine ⟨w', (before, input) :: issued, ?_, hO', hreturned⟩
      simp [alone, running, hf, hstep, hrun]

theorem rest_of_returned (hO : w.Orderly) (h : ∀ call ∈ w.calls, call.finished = true) :
    w.db.AtRest := by
  -- the number of no call
  apply hO.atRest (c := w.calls.length)
  · intro o call ho _
    exact h call (List.mem_of_getElem? ho)
  · intro call hcall
    rw [List.getElem?_eq_none (Nat.le_refl _)] at hcall
    cases hcall

/-- A call that has the server to itself returns, whatever of its statements fail, and then
nothing is held. -/
theorem calls_return (h0 : w₀.Initial) (h : Runs.Reaches (step cfg) Runs.Free w₀ w)
    (running : w.calls[c]? = some before) (hc : w.OnlyRuns c)
    (enough : before.statementsLeft ≤ inputs.length)
    (fresh : ∀ q role, before = .createUser (.insert q role) →
      ∀ input ∈ inputs.head?, input.newId ∉ w.db.ids) :
    ∃ w' issued, alone cfg c inputs w = some (w', issued) ∧
      (∀ call ∈ w'.calls, call.finished = true) ∧ w'.db.AtRest := by
  obtain ⟨w', issued, hrun, hO, hreturned⟩ :=
    alone_returns (orderly_reached h0 h) hc running enough fresh
  exact ⟨w', issued, hrun, hreturned, rest_of_returned hO hreturned⟩

/-- A rotation that has locked its token. -/
def lockedOnce : World :=
  (Runs.run (step .plain) Runs.Free signedIn [.invoke (.rotate (.lock 0)), .exec 0 {}]).get
    (by decide)

/-- The rotation returns, also where its INSERT fails. -/
theorem calls_return_locked : ∃ w' issued,
    alone .plain 0 [{}, {}, { fails := true }, {}] lockedOnce = some (w', issued) ∧
      (∀ call ∈ w'.calls, call.finished = true) ∧ w'.db.AtRest := by
  have hcalls : lockedOnce.calls =
      [.rotate (.find 0 2 7776000000000 0 ⟨1, 0, minutes 10, 0⟩)] := by
    decide
  have running : lockedOnce.calls[0]? =
      some (.rotate (.find 0 2 7776000000000 0 ⟨1, 0, minutes 10, 0⟩)) := by
    rw [hcalls]
    rfl
  refine calls_return initial_signedIn (Runs.reaches_run_get _) running ?_ (by decide) ?_
  · intro o call ho hne
    rw [hcalls] at ho
    have hlt := (List.getElem?_eq_some_iff.mp ho).1
    exact absurd (Nat.lt_one_iff.mp hlt) hne
  · intro q role hq
    cases hq

end World

end Webshelf
