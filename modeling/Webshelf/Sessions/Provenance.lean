import Webshelf.Lib.Lineage
import Webshelf.Sessions.Hashes

/-!
# Where a session comes from

Two calls insert refresh tokens: a login stores one for the row its SELECT read,
a rotation one for the user of the token it exchanges. Every row of the table
descends by rotations from one login, a remember-me login whose password and
row passed the checks; what the SELECT of a login read is kept beside the world.
-/

namespace Webshelf

/-! ## Issuers -/

/-- The token an event is about, and what it was made by or from. -/
def Event.makes : Event → Option (TokenId × Lineage.Origin CallId TokenId)
  | .tokenStored c _ i => some (i, .founder c)
  | .tokenRotated _ old new _ _ _ => some (new, .parent old)
  | _ => none

/-- The user an event makes a token for. -/
def Event.owner : Event → Option UserId
  | .tokenStored _ u _ | .tokenRotated _ _ _ u _ _ => some u
  | _ => none

/-- The row a login goes on with once its checks have passed. -/
def Call.remembers : Call → Option UserModel
  | login (.revoke user _ _ _) | login (.revoking user _ _ _ _) | login (.store user _ _ _)
  | login (.commit user _ _) => some user
  | _ => none

/-- The row a call is about to commit: the token and its user. -/
def Call.brings : Call → Option (TokenId × UserId)
  | login (.commit user _ stored) => some (stored, user.id)
  | rotate (.commit _ new user) => some (new, user.id)
  | _ => none

/-- The checks of `AuthService::login` on the row its SELECT found. -/
structure LoginRequest.Passed (cfg : Settings) (request : LoginRequest) (user : UserModel) :
    Prop where
  remember : request.remember = true
  email : user.email = cfg.toLowercase request.email
  password : Argon2.verify request.password user.passwordHash = true
  verified : user.emailVerified = true

namespace Call

section
variable {cfg : Settings} {env : Env} {before : Call} {s : Stmt} {user : UserModel}
  {c : CallId} {i : TokenId} {u : UserId} {db db' : Db} {fails : Bool}
  {k : Except DbErr s.Reply → Call} {reply : Except DbErr s.Reply}

/-- A login goes on with the row it has, or with the one its SELECT found. -/
theorem remembers_step (issues : before.next cfg env = some ⟨s, k⟩)
    (ran : db.exec c fails s = some (db', reply)) (hr : (k reply).remembers = some user) :
    before.remembers = some user ∨ ∃ request, before = .login (.find request) ∧
      request.Passed cfg user ∧ s.picked reply = some user := by
  cases before with
  | login q =>
    cases q with
    | find request =>
      cases issues
      rcases reply with e | _ | m
      · cases hr
      · cases hr
      · have hemail := Db.exec_selectUser ran
        dsimp only at hr
        split at hr
        · cases hr
        · rename_i hpass
          split at hr
          · cases hr
          · rename_i hverified
            split at hr
            · rename_i hremember
              cases hr
              exact Or.inr ⟨request, rfl, ⟨hremember, by simpa using hemail,
                by simpa using hpass, by simpa using hverified⟩, rfl⟩
            · cases hr
    | revoke | revoking | store | commit =>
      cases issues
      dsimp only [deleted] at hr
      split at hr <;> first | exact Or.inl hr | cases hr
    | done => cases issues
  | requestReset q | resendCode q | sendVerification q | modifyBalance q | updateUser q
  | autoVerify q | verifyEmail q | resetPassword q | changePassword q | revokeAll q | wxLogin q
  | logout q | getUser q | setOpenid q | checkTokenVersion q | createUser q | deleteUser q
  | rotate q =>
    obtain ⟨k', _, rfl⟩ := Next.map_some issues
    cases hr

theorem remembers_initial (h : before.initial = true) : before.remembers = none := by
  cases before with
  | login q => cases q <;> first | rfl | cases h
  | _ => rfl

theorem brings_initial (h : before.initial = true) : before.brings = none := by
  cases before with
  | login q | rotate q => cases q <;> first | rfl | cases h
  | _ => rfl

/-- What a call is about to commit it has just inserted. -/
theorem brings_step (issues : before.next cfg env = some ⟨s, k⟩)
    (hb : (k reply).brings = some (i, u)) :
    ∃ token, s = .insertToken token := by
  cases before with
  | login q =>
    cases q with
    | store =>
      cases issues
      exact ⟨_, rfl⟩
    | find | revoke | revoking | commit =>
      cases issues
      dsimp only [deleted] at hb
      (repeat' split at hb) <;> cases hb
    | done => cases issues
  | rotate q =>
    cases q with
    | store =>
      cases issues
      exact ⟨_, rfl⟩
    | lock | find | delete | deleting | commit =>
      cases issues
      dsimp only [deleted] at hb
      (repeat' split at hb) <;> cases hb
    | abort =>
      cases issues
      cases hb
    | done => cases issues
  | requestReset q | resendCode q | sendVerification q | modifyBalance q | updateUser q
  | autoVerify q | verifyEmail q | resetPassword q | changePassword q | revokeAll q | wxLogin q
  | logout q | getUser q | setOpenid q | checkTokenVersion q | createUser q | deleteUser q =>
    obtain ⟨k', _, rfl⟩ := Next.map_some issues
    cases hb

theorem brings_insert {token : RefreshToken} {k : Except DbErr TokenId → Call}
    {reply : Except DbErr TokenId}
    (issues : before.next cfg env = some ⟨.insertToken token, k⟩)
    (hb : (k reply).brings = some (i, u)) : reply = .ok i := by
  cases next_insertToken issues with
  | login _ _ _ _ stored failed | rotate _ _ _ _ stored failed =>
    rcases reply with e | j
    · rw [failed] at hb
      cases hb
    · rw [stored] at hb
      cases hb
      rfl

/-- A login stays a login, and never looks its row up again. -/
theorem login_step {q : Login} {k : Except DbErr s.Reply → Call}
    (issues : (login q).next cfg env = some ⟨s, k⟩) (reply : Except DbErr s.Reply) :
    ∃ q', k reply = .login q' ∧ ∀ request, q' ≠ .find request := by
  cases q with
  | find =>
    cases issues
    dsimp only
    (repeat' split) <;> exact ⟨_, rfl, nofun⟩
  | revoke | revoking | store | commit =>
    cases issues
    dsimp only [deleted]
    split <;> exact ⟨_, rfl, nofun⟩
  | done => cases issues

theorem find_never {request : LoginRequest} (issues : before.next cfg env = some ⟨s, k⟩) :
    k reply ≠ .login (.find request) := by
  cases before with
  | login q =>
    obtain ⟨q', hk, hq⟩ := login_step issues reply
    rw [hk]
    intro h
    apply hq request
    cases h
    rfl
  | requestReset q | resendCode q | sendVerification q | modifyBalance q | updateUser q
  | autoVerify q | verifyEmail q | resetPassword q | changePassword q | revokeAll q | wxLogin q
  | logout q | getUser q | setOpenid q | checkTokenVersion q | createUser q | deleteUser q
  | rotate q =>
    obtain ⟨k', _, rfl⟩ := Next.map_some issues
    intro h
    cases h

end

end Call

/-! ## Tokens made -/

namespace World

/-- The history has the token `i` of user `u` made by or from `o`. -/
def Made (w : World) (u : UserId) (i : TokenId) (o : Lineage.Origin CallId TokenId) : Prop :=
  ∃ t e, (t, e) ∈ w.trace ∧ e.makes = some (i, o) ∧ e.owner = some u

/-- The token descends by committed rotations from the one login `c` stored for `u`. -/
def Descends (w : World) (u : UserId) (c : CallId) (i : TokenId) : Prop :=
  Lineage.Descends (w.Made u) c i

/-- What holds between the refresh tokens and how the history has them made. -/
structure Issued (w : World) : Prop where
  made : ∀ u i o, w.Made u i o → i < w.db.tokens.next
  once : ∀ u u' i o o', w.Made u i o → w.Made u' i o' → o = o'
  fresh : ∀ (c : CallId) (call : Call) i u, w.calls[c]? = some call → call.brings = some (i, u) →
    i < w.db.tokens.next ∧ (∀ u' o, w.Made u' i o → ∃ q, call = .login q) ∧
      ∀ (c' : CallId) (call' : Call) u', w.calls[c']? = some call' →
        call'.brings = some (i, u') → c' = c
  rows : ∀ i t st, w.db.tokens.get i = some (t, st) → (∃ c, w.Descends t.userId c i) ∨
    ∃ o old user, st = .inserted o ∧ w.calls[o]? = some (.rotate (.commit old i user)) ∧
      user.id = t.userId

variable {cfg : Settings} {w w' : World} {l : Label} {c : CallId} {before : Call} {s : Stmt}
  {input : Input} {k : Except DbErr s.Reply → Call} {reply : Except DbErr s.Reply} {db' : Db}
  {i : TokenId} {u : UserId} {o : Lineage.Origin CallId TokenId}

theorem Initial.issued (h0 : w.Initial) (hnone : ∀ i, w.db.tokens.get i = none) : w.Issued where
  made u i o h := by
    obtain ⟨t, e, he, _⟩ := h
    rw [h0.trace] at he
    cases he
  once u u' i o o' h := by
    obtain ⟨t, e, he, _⟩ := h
    rw [h0.trace] at he
    cases he
  fresh c call i u hc := by rw [h0.calls] at hc; cases hc
  rows i t st hg := by rw [hnone i] at hg; cases hg

/-- A token that a rotation is about to commit has no maker yet. -/
theorem Issued.unmade {old : TokenId} {user : UserModel} (hI : w.Issued)
    (running : w.calls[c]? = some before) (hb : before = .rotate (.commit old i user)) :
    ¬ w.Made u i o := by
  subst hb
  intro h
  obtain ⟨q, hq⟩ := (hI.fresh c _ i _ running rfl).2.1 u o h
  cases hq

theorem Made.after {call : Call} {applied : Bool} (h : w.Made u i o) :
    (w.after c before applied call db').Made u i o := by
  obtain ⟨t, e, he, hm⟩ := h
  exact ⟨t, e, mem_after.mpr (Or.inl he), hm⟩

theorem Descends.after {call : Call} {applied : Bool} (h : w.Descends u c i) {c' : CallId} :
    (w.after c' before applied call db').Descends u c i := by
  apply h.mono
  intro i o hm
  exact hm.after

/-- The row a rotation commits descends from the row it deleted. -/
theorem Issued.exchanged {old : TokenId} {user : UserModel} {t : RefreshToken}
    {st : Hold CallId} (hI : w.Issued) (hH : w.Held)
    (running : w.calls[c]? = some (.rotate (.commit old i user)))
    (issues : (Call.rotate (.commit old i user)).next cfg (input.env w.ticks) = some ⟨s, k⟩)
    (ran : w.db.exec c input.fails s = some (db', reply)) (hu : user.id = t.userId)
    (hg₀ : w.db.tokens.get i = some (t, .inserted c)) (hg : db'.tokens.get i = some (t, st)) :
    ∃ c', (w.after c (.rotate (.commit old i user)) (s.applied reply) (k reply) db').Descends
      t.userId c' i := by
  cases issues
  rcases reply with e | ⟨⟨⟩⟩
  · have hs := Db.exec_tokens ran
    generalize db'.tokens = h' at hs hg
    cases hs with
    | fail => cases (Heap.rollback_inserted hg₀).symm.trans hg
  · obtain ⟨token, hut, hgo⟩ := hH.exchanging c _ running
    rcases hI.rows old token _ hgo with ⟨c', hd⟩ | ⟨_, _, _, hst, _⟩
    · rw [hut, hu] at hd
      refine ⟨c', .child ⟨w.ticks, .tokenRotated c old i user.id user.role user.tokenVersion,
        mem_after.mpr (Or.inr ⟨rfl, ?_⟩), rfl, congrArg some hu⟩ hd.after⟩
      exact mem_observe.mpr (Or.inr (Or.inl ⟨rfl, List.mem_singleton.mpr rfl⟩))
    · cases hst

/-- A row that is inserted has been made by its login, or waits for its rotation to commit. -/
theorem inserted_made {token t : RefreshToken} {st : Hold CallId}
    {k : Except DbErr TokenId → Call} {reply : Except DbErr TokenId}
    (issues : before.next cfg (input.env w.ticks) = some ⟨.insertToken token, k⟩)
    (ran : w.db.exec c input.fails (.insertToken token) = some (db', reply))
    (hg : db'.tokens.get w.db.tokens.next = some (t, st)) :
    (w.after c before (Stmt.applied (.insertToken token) reply) (k reply) db').Descends
        t.userId c w.db.tokens.next ∨
      st = .inserted c ∧ ∃ old user, k reply = .rotate (.commit old w.db.tokens.next user) ∧
        user.id = t.userId := by
  rcases reply with e | i
  · have hnone : w.db.tokens.get w.db.tokens.next = none := by
      apply Option.eq_none_iff_forall_ne_some.mpr
      intro r hr
      exact Nat.lt_irrefl _ (Heap.lt_next hr)
    have hs := Db.exec_tokens ran
    generalize db'.tokens = h' at hs hg
    cases hs with
    | fail => cases (Heap.mapRows_gone hnone).symm.trans hg
  · obtain ⟨_, rfl, htok⟩ := Db.exec_insertToken ran
    rw [htok, Heap.insert_get_next] at hg
    cases hg
    cases Call.next_insertToken issues with
    | login user token hash expiresAt stored =>
      rw [stored]
      refine Or.inl (.root ⟨w.ticks, .tokenStored c user.id w.db.tokens.next,
        mem_after.mpr (Or.inr ⟨rfl, ?_⟩), rfl, rfl⟩)
      exact mem_observe.mpr (Or.inr (Or.inl ⟨rfl, List.mem_singleton.mpr rfl⟩))
    | rotate _ _ old user stored => exact Or.inr ⟨rfl, old, user, stored _, rfl⟩

section
variable (running : w.calls[c]? = some before)
  (issues : before.next cfg (input.env w.ticks) = some ⟨s, k⟩)
  (ran : w.db.exec c input.fails s = some (db', reply))
include issues ran

/-- A step makes the token a login has just inserted, or the one a rotation commits. -/
theorem made_after (h : (w.after c before (s.applied reply) (k reply) db').Made u i o) :
    w.Made u i o ∨
      (o = .founder c ∧ before.remembers.map UserModel.id = some u ∧ i = w.db.tokens.next ∧
        db'.tokens.next = w.db.tokens.next + 1 ∧ (∃ q, before = .login q) ∧
        ∃ q, k reply = .login q) ∨
      ∃ old user, o = .parent old ∧ user.id = u ∧ before = .rotate (.commit old i user) := by
  obtain ⟨t, e, he, hm, ho⟩ := h
  rcases mem_after.mp he with he | ⟨_, he⟩
  · exact Or.inl ⟨t, e, he, hm, ho⟩
  · right
    cases e with
    | tokenStored c' u' i' =>
      cases hm
      cases ho
      obtain ⟨ok, hl⟩ := logged_of_observe he nofun nofun nofun
      left
      generalize hk : k reply = call' at hl
      cases hl
      cases issues
      rcases reply with e | i'
      · cases ok
      · cases hk
        obtain ⟨_, hi, htok⟩ := Db.exec_insertToken ran
        refine ⟨rfl, rfl, hi, ?_, ⟨_, rfl⟩, _, rfl⟩
        rw [htok]
        rfl
    | tokenRotated c' old new u' role v =>
      cases hm
      cases ho
      obtain ⟨_, hl⟩ := logged_of_observe he nofun nofun nofun
      generalize k reply = call' at hl
      cases hl
      exact Or.inr ⟨old, _, rfl, rfl, rfl⟩
    | _ => cases hm

include running

/-- A call that is about to commit a token was so before the step, or has just inserted it. -/
theorem brings_after {o : CallId} {call : Call}
    (hc : (w.after c before (s.applied reply) (k reply) db').calls[o]? = some call)
    (hb : call.brings = some (i, u)) :
    (o ≠ c ∧ w.calls[o]? = some call) ∨ o = c ∧ call = k reply ∧ i = w.db.tokens.next ∧
      db'.tokens.next = w.db.tokens.next + 1 := by
  by_cases ho : o = c
  · subst ho
    rw [after_self running] at hc
    cases hc
    obtain ⟨token, rfl⟩ := Call.brings_step issues hb
    obtain rfl := Call.brings_insert issues hb
    obtain ⟨_, hi, htok⟩ := Db.exec_insertToken ran
    refine Or.inr ⟨rfl, rfl, hi, ?_⟩
    rw [htok]
    rfl
  · rw [after_other ho] at hc
    exact Or.inl ⟨ho, hc⟩

theorem Issued.exec (hH : w.Held) (hI : w.Issued) :
    (w.after c before (s.applied reply) (k reply) db').Issued where
  made u i o h := by
    have hle : w.db.tokens.next ≤ db'.tokens.next := (Db.exec_tokens ran).next_le
    change i < db'.tokens.next
    rcases made_after issues ran h with h | ⟨_, _, rfl, hn, _⟩ | ⟨old, user, _, _, rfl⟩
    · exact Nat.lt_of_lt_of_le (hI.made u i o h) hle
    · rw [hn]
      exact Nat.lt_succ_self _
    · exact Nat.lt_of_lt_of_le (hI.fresh c _ i _ running rfl).1 hle
  once u u' i o o' h h' := by
    rcases made_after issues ran h with
        h₁ | ⟨rfl, _, rfl, _, ⟨q, hq⟩, _⟩ | ⟨old, user, rfl, _, hb⟩ <;>
      rcases made_after issues ran h' with
        h₂ | ⟨rfl, _, hi, _, ⟨q', hq'⟩, _⟩ | ⟨old', user', rfl, _, hb'⟩
    · exact hI.once u u' i o o' h₁ h₂
    · exact absurd (hI.made u i o h₁) (hi ▸ Nat.lt_irrefl _)
    · exact absurd h₁ (hI.unmade running hb')
    · exact absurd (hI.made u' _ o' h₂) (Nat.lt_irrefl _)
    · rfl
    · cases hq.symm.trans hb'
    · exact absurd h₂ (hI.unmade running hb)
    · cases hq'.symm.trans hb
    · cases hb.symm.trans hb'
      rfl
  fresh o call i u hc hb := by
    have hle : w.db.tokens.next ≤ db'.tokens.next := (Db.exec_tokens ran).next_le
    rcases brings_after running issues ran hc hb with ⟨ho, hc⟩ | ⟨rfl, rfl, rfl, hn⟩
    · obtain ⟨hlt, hmade, hone⟩ := hI.fresh o call i u hc hb
      refine ⟨Nat.lt_of_lt_of_le hlt hle, ?_, ?_⟩
      · intro u' o' h
        rcases made_after issues ran h with h | ⟨_, _, rfl, _⟩ | ⟨old, user, _, _, rfl⟩
        · exact hmade u' o' h
        · exact absurd hlt (Nat.lt_irrefl _)
        · exact absurd (hone c _ _ running rfl).symm ho
      · intro c' call' u' hc' hb'
        rcases brings_after running issues ran hc' hb' with ⟨_, hc'⟩ | ⟨_, _, rfl, _⟩
        · exact hone c' call' u' hc' hb'
        · exact absurd hlt (Nat.lt_irrefl _)
    · refine ⟨?_, ?_, ?_⟩
      · change _ < db'.tokens.next
        rw [hn]
        exact Nat.lt_succ_self _
      · intro u' o' h
        rcases made_after issues ran h with h | ⟨_, _, _, _, _, hq⟩ | ⟨old, user, _, _, rfl⟩
        · exact absurd (hI.made u' _ o' h) (Nat.lt_irrefl _)
        · exact hq
        · exact absurd (hI.fresh o _ _ _ running rfl).1 (Nat.lt_irrefl _)
      · intro c' call' u' hc' hb'
        rcases brings_after running issues ran hc' hb' with ⟨_, hc'⟩ | ⟨ho, _⟩
        · exact absurd (hI.fresh c' call' _ u' hc' hb').1 (Nat.lt_irrefl _)
        · exact ho
  rows i t st hg := by
    rcases (Db.exec_tokens ran).row hg with ⟨st', hg'⟩ | ⟨rfl, rfl⟩
    · rcases hI.rows i t st' hg' with ⟨c', hd⟩ | ⟨o, old, user, rfl, hc, hu⟩
      · exact Or.inl ⟨c', hd.after⟩
      · by_cases ho : o = c
        · subst ho
          rw [running] at hc
          cases hc
          exact Or.inl (hI.exchanged hH running issues ran hu hg' hg)
        · refine Or.inr ⟨o, old, user, ?_, by rw [after_other ho]; exact hc, hu⟩
          have hsame := (token_other ran hg' rfl ho).symm.trans hg
          cases hsame
          rfl
    · rcases inserted_made issues ran hg with hd | ⟨rfl, old, user, hk, hu⟩
      · exact Or.inl ⟨c, hd⟩
      · exact Or.inr ⟨c, old, user, rfl, by rw [after_self running, hk], hu⟩

end

theorem Issued.step (hH : w.Held) (hI : w.Issued) (ht : Transition cfg w l w') : w'.Issued := by
  cases ht with
  | exec running issues ran => exact hI.exec running issues ran hH
  | expire => exact ⟨hI.made, hI.once, hI.fresh, hI.rows⟩
  | @invoke call start =>
    have old {o : CallId} {call' : Call} {i : TokenId} {u : UserId}
        (hc : (w.join call).calls[o]? = some call') (hb : call'.brings = some (i, u)) :
        w.calls[o]? = some call' := by
      rcases join_calls hc with hc | rfl
      · exact hc
      · rw [Call.brings_initial start] at hb
        cases hb
    refine ⟨hI.made, hI.once, ?_, ?_⟩
    · intro c call' i u hc hb
      obtain ⟨hlt, hmade, hone⟩ := hI.fresh c call' i u (old hc hb) hb
      refine ⟨hlt, hmade, ?_⟩
      intro c' call'' u' hc' hb'
      exact hone c' call'' u' (old hc' hb') hb'
    · intro i t st hg
      rcases hI.rows i t st hg with hd | ⟨o, prev, user, hst, hc, hu⟩
      · exact Or.inl hd
      · exact Or.inr ⟨o, prev, user, hst, join_old hc, hu⟩

/-- A row of the table was made: rows in the hand of a rotation are not there yet. -/
theorem Issued.committed {t : RefreshToken} (hI : w.Issued)
    (hc : w.db.tokens.committed i = some t) : ∃ c, w.Descends t.userId c i := by
  obtain ⟨st, hg, hst⟩ := Heap.stored_eq_some.mp hc
  rcases hI.rows i t st hg with hd | ⟨o, _, _, ho, _⟩
  · exact hd
  · exact absurd ho (hst o)

end World

/-! ## What logins read -/

/-- A world, and for each login the request and the store its SELECT was run on. -/
structure Sessions where
  world : World
  read : CallId → Option (LoginRequest × Db) := fun _ => none

namespace Sessions

/-- The SELECT of a login is noted, whatever it answers. -/
def reads (s : Sessions) : Label → CallId → Option (LoginRequest × Db)
  | .exec c _ =>
    match s.world.calls[c]? with
    | some (.login (.find request)) => Function.update s.read c (some (request, s.world.db))
    | _ => s.read
  | _ => s.read

def step (cfg : Settings) (s : Sessions) (l : Label) : Option Sessions :=
  (s.world.step cfg l).map fun w => ⟨w, s.reads l⟩

/-- Call `c` is a remember-me login, and its SELECT found the row of `u`, verified and
with a hash that its password matches. -/
def Vouched (cfg : Settings) (s : Sessions) (u : UserId) (c : CallId) : Prop :=
  (∃ q, s.world.calls[c]? = some (.login q)) ∧ ∃ request db user,
    s.read c = some (request, db) ∧ (db.users u).committed = some user ∧
      request.Passed cfg user

/-- What holds between the logins and what they read. -/
structure Vouching (cfg : Settings) (s : Sessions) : Prop where
  unread : ∀ c, s.world.calls.length ≤ c ∨
    (∃ request, s.world.calls[c]? = some (.login (.find request))) → s.read c = none
  reading : ∀ (c : CallId) (call : Call) user, s.world.calls[c]? = some call →
    call.remembers = some user → s.Vouched cfg user.id c
  stored : ∀ u c i, s.world.Made u i (.founder c) → s.Vouched cfg u c

variable {cfg : Settings} {w₀ w : World} {s s' : Sessions} {l : Label} {c : CallId}
  {before : Call} {stmt : Stmt} {input : Input} {k : Except DbErr stmt.Reply → Call}
  {reply : Except DbErr stmt.Reply} {db' : Db} {u : UserId}

theorem vouching_initial (h0 : w₀.Initial) : Vouching cfg ⟨w₀, fun _ => none⟩ where
  unread _ _ := rfl
  reading c call user hc := by rw [h0.calls] at hc; cases hc
  stored u c i h := by
    obtain ⟨t, e, he, _⟩ := h
    rw [h0.trace] at he
    cases he

theorem step_cases (h : s.step cfg l = some s') :
    ∃ w, World.Transition cfg s.world l w ∧ s' = ⟨w, s.reads l⟩ := by
  obtain ⟨w, hw, rfl⟩ := Option.map_eq_some_iff.mp h
  exact ⟨w, World.step_transition hw, rfl⟩

theorem reads_find {request : LoginRequest}
    (running : s.world.calls[c]? = some (.login (.find request))) :
    s.reads (.exec c input) = Function.update s.read c (some (request, s.world.db)) := by
  simp only [reads, running]

theorem reads_other (running : s.world.calls[c]? = some before)
    (hb : ∀ request, before ≠ .login (.find request)) : s.reads (.exec c input) = s.read := by
  simp only [reads, running]
  split
  · rename_i request h
    exact absurd (Option.some.inj h) (hb request)
  · rfl

/-- Only a call that has not read anything yet reads. -/
theorem reads_of_read {o : CallId} {r : LoginRequest × Db} (hV : Vouching cfg s)
    (running : s.world.calls[c]? = some before) (hr : s.read o = some r) :
    s.reads (.exec c input) o = some r := by
  by_cases hb : ∃ request, before = .login (.find request)
  · obtain ⟨request, rfl⟩ := hb
    have ho : o ≠ c := by
      rintro rfl
      rw [hV.unread o (Or.inr ⟨request, running⟩)] at hr
      cases hr
    rw [reads_find running, Function.update_of_ne ho, hr]
  · rw [reads_other running fun request h => hb ⟨request, h⟩, hr]

section
variable (hV : Vouching cfg s) (running : s.world.calls[c]? = some before)
  (issues : before.next cfg (input.env s.world.ticks) = some ⟨stmt, k⟩)
  (ran : s.world.db.exec c input.fails stmt = some (db', reply))
include hV running issues

theorem Vouched.exec {o : CallId} {applied : Bool} (h : s.Vouched cfg u o) :
    Vouched cfg ⟨s.world.after c before applied (k reply) db', s.reads (.exec c input)⟩ u o := by
  obtain ⟨⟨q, hq⟩, request, db, user, hread, hrow, hpass⟩ := h
  have hkept : s.reads (.exec c input) o = some (request, db) := reads_of_read hV running hread
  refine ⟨?_, request, db, user, hkept, hrow, hpass⟩
  by_cases ho : o = c
  · subst ho
    rw [running] at hq
    cases hq
    obtain ⟨q', hk, _⟩ := Call.login_step issues reply
    exact ⟨q', by rw [← hk]; exact World.after_self running⟩
  · exact ⟨q, by rw [World.after_other ho]; exact hq⟩

include ran

/-- The SELECT of a login that passes its checks has found the committed row. -/
theorem Vouching.reading_exec {o : CallId} {call : Call} {user : UserModel}
    (hw : s.world.Sound)
    (hc : (s.world.after c before (stmt.applied reply) (k reply) db').calls[o]? = some call)
    (hr : call.remembers = some user) :
    Vouched cfg ⟨s.world.after c before (stmt.applied reply) (k reply) db',
      s.reads (.exec c input)⟩ user.id o := by
  by_cases ho : o = c
  · subst ho
    rw [World.after_self running] at hc
    cases hc
    rcases Call.remembers_step issues ran hr with hold | ⟨request, rfl, hpass, hpicked⟩
    · exact (hV.reading o before user running hold).exec hV running issues
    · obtain ⟨hrow, _⟩ := hw.selected running issues ran hpicked
      obtain ⟨q', hk, _⟩ := Call.login_step issues reply
      refine ⟨⟨q', by rw [← hk]; exact World.after_self running⟩, request, s.world.db, user, ?_,
        hrow, hpass⟩
      rw [reads_find running]
      exact Function.update_self ..
  · rw [World.after_other ho] at hc
    exact (hV.reading o call user hc hr).exec hV running issues

theorem Vouching.exec (hw : s.world.Sound) :
    Vouching cfg ⟨s.world.after c before (stmt.applied reply) (k reply) db',
      s.reads (.exec c input)⟩ where
  unread o ho := by
    have hoc : o ≠ c := by
      rintro rfl
      rcases ho with hlen | ⟨request, hc⟩
      · have hlt : o < s.world.calls.length := (List.getElem?_eq_some_iff.mp running).1
        rw [World.after, List.length_set] at hlen
        exact absurd hlt (Nat.not_lt.mpr hlen)
      · rw [World.after_self running] at hc
        exact Call.find_never issues (Option.some.inj hc)
    have hnone : s.read o = none := by
      apply hV.unread o
      rcases ho with hlen | ⟨request, hc⟩
      · rw [World.after, List.length_set] at hlen
        exact Or.inl hlen
      · rw [World.after_other hoc] at hc
        exact Or.inr ⟨request, hc⟩
    by_cases hb : ∃ request, before = .login (.find request)
    · obtain ⟨request, rfl⟩ := hb
      rw [reads_find running]
      exact (Function.update_of_ne hoc ..).trans hnone
    · rw [reads_other running fun request h => hb ⟨request, h⟩]
      exact hnone
  reading o call user hc hr := hV.reading_exec running issues ran hw hc hr
  stored u o i h := by
    rcases World.made_after issues ran h with h | ⟨ho, hu, _⟩ | ⟨old, user, ho, _⟩
    · exact (hV.stored u o i h).exec hV running issues
    · cases ho
      obtain ⟨user, hr, rfl⟩ := Option.map_eq_some_iff.mp hu
      exact (hV.reading c before user running hr).exec hV running issues
    · cases ho

end

theorem Vouching.step (hw : s.world.Sound) (hV : Vouching cfg s) (h : s.step cfg l = some s') :
    Vouching cfg s' := by
  obtain ⟨w, ht, rfl⟩ := step_cases h
  cases ht with
  | exec running issues ran => exact hV.exec running issues ran hw
  | expire => exact ⟨hV.unread, hV.reading, hV.stored⟩
  | @invoke call start =>
    have old {u : UserId} {o : CallId} (h : s.Vouched cfg u o) :
        Vouched cfg ⟨s.world.join call, s.read⟩ u o := by
      obtain ⟨⟨q, hq⟩, hread⟩ := h
      exact ⟨⟨q, World.join_old hq⟩, hread⟩
    refine ⟨?_, ?_, ?_⟩
    · intro o ho
      apply hV.unread o
      rcases ho with hlen | ⟨request, hc⟩
      · rw [World.join, List.length_append] at hlen
        exact Or.inl (Nat.le_of_add_right_le hlen)
      · by_cases hlt : o < s.world.calls.length
        · rw [World.join, List.getElem?_append_left hlt] at hc
          exact Or.inr ⟨request, hc⟩
        · exact Or.inl (Nat.not_lt.mp hlt)
    · intro o call' user hc hr
      rcases World.join_calls hc with hc | rfl
      · exact old (hV.reading o call' user hc hr)
      · rw [Call.remembers_initial start] at hr
        cases hr
    · intro u o i h
      exact old (hV.stored u o i h)

/-- The invariant of every run from an empty table. -/
structure Rooted (cfg : Settings) (s : Sessions) : Prop where
  sound : s.world.Sound
  held : s.world.Held
  issued : s.world.Issued
  vouching : Vouching cfg s

theorem Rooted.step (hR : Rooted cfg s) (h : s.step cfg l = some s') : Rooted cfg s' := by
  have hv := hR.vouching.step hR.sound h
  obtain ⟨w, ht, rfl⟩ := step_cases h
  exact ⟨hR.sound.step ht, hR.held.step hR.sound ht, hR.issued.step hR.held ht, hv⟩

/-- Every refresh token descends by rotations from one login, and whatever descends from a
login was founded by a remember-me login that passed its checks on the row of that user. -/
theorem persistent_sessions_from_logins (h0 : w₀.Initial)
    (hnone : ∀ i, w₀.db.tokens.get i = none)
    (hr : Runs.Reaches (step cfg) Runs.Free ⟨w₀, fun _ => none⟩ s) :
    (∀ i t, s.world.db.tokens.committed i = some t → ∃! c, s.world.Descends t.userId c i) ∧
      ∀ u c i, s.world.Descends u c i → s.Vouched cfg u c := by
  have hR : Rooted cfg s := by
    apply hr.invariant (I := Rooted cfg)
    · exact ⟨h0.sound, h0.held, h0.issued hnone, vouching_initial h0⟩
    · intro s l s' hR _ hs
      exact hR.step hs
  constructor
  · intro i t hc
    obtain ⟨c, hd⟩ := hR.issued.committed hc
    apply hd.existsUnique
    intro i o o' h h'
    exact hR.issued.once _ _ i o o' h h'
  · intro u c i hd
    obtain ⟨j, hj⟩ := hd.founded
    exact hR.vouching.stored u c j hj

/-- A remember-me login beside one without, whose token is exchanged. -/
def rememberedOnce : Sessions :=
  (Runs.run (step .plain) Runs.Free ⟨World.account, fun _ => none⟩
    [.invoke (.login (.find ⟨"ada@example.com", "Passw0rd!", true⟩)),
      .invoke (.login (.find ⟨"ada@example.com", "Passw0rd!", false⟩)), .exec 0 {}, .exec 1 {},
      .exec 0 {}, .exec 0 {}, .exec 0 {}, .invoke (.rotate (.lock 3)), .exec 2 {}, .exec 2 {},
      .exec 2 {}, .exec 2 {}, .exec 2 {}]).get (by decide)

theorem persistent_sessions_from_logins_rotated :
    rememberedOnce.world.db.tokens.committed 0 = none ∧
      (∃! c, rememberedOnce.world.Descends 1 c 1) ∧
      ∀ u c i, rememberedOnce.world.Descends u c i → rememberedOnce.Vouched .plain u c := by
  have hr : Runs.Reaches (step .plain) Runs.Free ⟨World.account, fun _ => none⟩ rememberedOnce :=
    Runs.reaches_run_get _
  obtain ⟨hrows, hlogins⟩ := persistent_sessions_from_logins World.initial_account
    (fun _ => rfl) hr
  have hrow : rememberedOnce.world.db.tokens.committed 1 =
      some ⟨1, 9, seconds 7776000, 0⟩ := by decide
  exact ⟨by decide, hrows 1 _ hrow, hlogins⟩

end Sessions

end Webshelf
