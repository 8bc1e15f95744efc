import Webshelf.Server.History

/-!
# Refresh tokens in hand

A rotation holds the token it exchanges from its first statement to its COMMIT,
and has deleted it by then, so a token that was exchanged is gone. A token that
is inserted and not committed belongs to the call that is about to commit it.
-/

namespace Webshelf

namespace Call

/-- The refresh token the call is about to commit. -/
def stores : Call → Option TokenId
  | login (.commit _ _ stored) => some stored
  | rotate (.commit _ new _) => some new
  | _ => none

/-- What a rotation has in hand of the token it exchanges. -/
def Exchanging (c : CallId) (get : TokenId → Option (RefreshToken × Hold CallId)) : Call → Prop
  | rotate (.find oldHash _ _ old record) =>
    record.tokenHash = oldHash ∧ get old = some (record, .locked c)
  | rotate (.delete oldHash _ _ old user) =>
    ∃ t, t.tokenHash = oldHash ∧ t.userId = user.id ∧ get old = some (t, .locked c)
  | rotate (.deleting _ _ old user waiting) => ∃ t s, t.userId = user.id ∧
    get old = some (t, s) ∧ (s = .deleted c ∨ s = .locked c ∧ old ∈ waiting)
  | rotate (.store _ _ old user) | rotate (.commit old _ user) =>
    ∃ t, t.userId = user.id ∧ get old = some (t, .deleted c)
  | _ => True

section
variable {cfg : Settings} {env : Env} {before : Call} {s : Stmt} {c : CallId}
  {k : Except DbErr s.Reply → Call} {reply : Except DbErr s.Reply}
  {h h' : Heap CallId RefreshToken} {i : TokenId}

theorem commits_of_stores (issues : before.next cfg env = some ⟨s, k⟩)
    (hs : before.stores = some i) : s = .commit := by
  cases before with
  | login q =>
    cases q <;> cases hs
    cases issues
    rfl
  | rotate q =>
    cases q <;> cases hs
    cases issues
    rfl
  | _ => cases hs

/-- Two calls insert refresh tokens. -/
inductive Inserts (env : Env) : Call → RefreshToken → (Except DbErr TokenId → Call) → Prop
  | login (user : UserModel) (token : JwtClaims) (hash : TokenHash) (expiresAt : Time)
      {k : Except DbErr TokenId → Call} (stored : ∀ i, k (.ok i) = .login (.commit user token i))
      (failed : ∀ e, k (.error e) = .login (.done (.error .internal))) :
      Inserts env (.login (.store user token hash expiresAt)) ⟨user.id, hash, expiresAt, env.now⟩ k
  | rotate (hash : TokenHash) (expiresAt : Time) (old : TokenId) (user : UserModel)
      {k : Except DbErr TokenId → Call} (stored : ∀ i, k (.ok i) = .rotate (.commit old i user))
      (failed : ∀ e, k (.error e) = .rotate (.done (.error .internal))) :
      Inserts env (.rotate (.store hash expiresAt old user)) ⟨user.id, hash, expiresAt, env.now⟩ k

theorem next_insertToken {token : RefreshToken} {k : Except DbErr TokenId → Call}
    (issues : before.next cfg env = some ⟨.insertToken token, k⟩) :
    before.Inserts env token k := by
  cases before with
  | login q =>
    cases q <;> cases issues
    exact .login _ _ _ _ (fun _ => rfl) fun _ => rfl
  | rotate q =>
    cases q <;> cases issues
    exact .rotate _ _ _ _ (fun _ => rfl) fun _ => rfl
  | createUser q =>
    cases q with
    | insert => rcases insert_issues issues with h | ⟨_, _, h⟩ <;> cases h
    | invalidate | done => cases issues
  | requestReset q | resendCode q | sendVerification q | autoVerify q | verifyEmail q
  | resetPassword q | updateUser q | changePassword q | revokeAll q | wxLogin q | logout q
  | getUser q | setOpenid q | checkTokenVersion q | deleteUser q | modifyBalance q =>
    cases q <;> cases issues

theorem stores_step {token : RefreshToken} {k : Except DbErr TokenId → Call}
    (issues : before.next cfg env = some ⟨.insertToken token, k⟩) :
    (k (.ok i)).stores = some i := by
  cases next_insertToken issues with
  | login _ _ _ _ stored | rotate _ _ _ _ stored =>
    rw [stored]
    rfl

/-- The row a call's transaction has inserted is the one it is about to commit. -/
theorem inserted_step {t : RefreshToken} (issues : before.next cfg env = some ⟨s, k⟩)
    (hs : TokensStep c s reply h h')
    (hi : ∀ t, h.get i = some (t, .inserted c) → before.stores = some i)
    (hg : h'.get i = some (t, .inserted c)) : (k reply).stores = some i := by
  have hstep := hs.toStep i
  rw [hg] at hstep
  generalize hr : h.get i = r at hstep
  cases hstep with
  | stay =>
    -- only its COMMIT is left, and that hands the row over
    cases commits_of_stores issues (hi t hr)
    cases hs with
    | stay other => cases other
    | commit => exact absurd rfl (Heap.commit_released hg)
    | fail => exact absurd rfl (Heap.rollback_released hg)
  | insert =>
    cases hs with
    | insert =>
      by_cases he : i = h.next
      · subst he
        exact stores_step issues
      · rw [Heap.insert_get_of_ne he, hr] at hg
        cases hg
    | stay | missed => rw [hr] at hg; cases hg
    | delete | resume => rw [Heap.deleteScan_gone hr] at hg; cases hg
    | lock | drop | commit | rollback | fail => cases (Heap.mapRows_gone hr).symm.trans hg

theorem Exchanging.frame {get get' : TokenId → Option (RefreshToken × Hold CallId)}
    (hE : before.Exchanging c get)
    (hf : ∀ i t s, get i = some (t, s) → s.owner = some c → get' i = get i) :
    before.Exchanging c get' := by
  cases before with
  | rotate q =>
    cases q with
    | find =>
      obtain ⟨hh, hg⟩ := hE
      exact ⟨hh, (hf _ _ _ hg rfl).trans hg⟩
    | delete =>
      obtain ⟨t, hh, hu, hg⟩ := hE
      exact ⟨t, hh, hu, (hf _ _ _ hg rfl).trans hg⟩
    | deleting =>
      obtain ⟨t, s, hu, hg, hs⟩ := hE
      have own : s.owner = some c := by rcases hs with rfl | ⟨rfl, _⟩ <;> rfl
      exact ⟨t, s, hu, (hf _ _ _ hg own).trans hg, hs⟩
    | store | commit =>
      obtain ⟨t, hu, hg⟩ := hE
      exact ⟨t, hu, (hf _ _ _ hg rfl).trans hg⟩
    | lock | abort | done => exact hE
  | _ => exact hE

/-- The DELETE has deleted the old token or still waits to visit it. -/
theorem Exchanging.scanned {newHash : TokenHash} {expiresAt : Time} {old : TokenId}
    {user : UserModel} {rest : List TokenId} {t : RefreshToken}
    {get : TokenId → Option (RefreshToken × Hold CallId)} (hu : t.userId = user.id)
    (hscan : get old = some (t, .deleted c) ∨ get old = some (t, .locked c) ∧ old ∈ rest) :
    (rotate (deleted (.done (.error .internal)) (.deleting newHash expiresAt old user)
      (.store newHash expiresAt old user) (.ok rest))).Exchanging c get := by
  cases rest with
  | nil =>
    rcases hscan with hd | ⟨_, hw⟩
    · exact ⟨t, hu, hd⟩
    · cases hw
  | cons i is =>
    rcases hscan with hd | ⟨hl, hw⟩
    · exact ⟨t, _, hu, hd, .inl rfl⟩
    · exact ⟨t, _, hu, hl, .inr ⟨rfl, hw⟩⟩

theorem Exchanging.step (issues : before.next cfg env = some ⟨s, k⟩)
    (hE : before.Exchanging c h.get) (hs : TokensStep c s reply h h') (hk : s.Keyed reply)
    (hf : before.stores = none → ∀ i t, h.get i ≠ some (t, .inserted c)) :
    (k reply).Exchanging c h'.get := by
  cases before with
  | rotate q =>
    cases q with
    | lock =>
      cases issues
      cases hs with
      | stay other => cases other
      | missed | fail => trivial
      | lock seen free visible =>
        refine ⟨rfl, Heap.lock_get seen free visible ?_⟩
        intro he
        subst he
        exact hf rfl _ _ seen
    | find =>
      obtain ⟨hh, hg⟩ := hE
      cases issues
      cases hs with
      | fail => trivial
      | @stay _ found =>
        cases found with
        | none => trivial
        | some user => exact ⟨_, hh, hk.symm, hg⟩
    | delete oldHash _ _ old =>
      obtain ⟨t, hh, hu, hg⟩ := hE
      cases issues
      rcases reply with e | rest
      · trivial
      · obtain ⟨rfl, rfl⟩ := hs.swept
        have hmem : old ∈ h.snapshot c fun t => t.tokenHash == oldHash :=
          Heap.mem_snapshot.mpr ⟨t, _, hg, rfl, by simp [hh]⟩
        exact .scanned hu (Heap.deleteScan_locked hg hmem)
    | deleting _ _ old _ waiting =>
      obtain ⟨t, s, hu, hg, hst⟩ := hE
      cases issues
      rcases reply with e | rest
      · trivial
      · obtain ⟨rfl, rfl⟩ := hs.resumed
        rcases hst with rfl | ⟨rfl, hw⟩
        · exact .scanned hu (.inl (Heap.deleteScan_deleted hg))
        · exact .scanned hu (Heap.deleteScan_locked hg hw)
    | store _ _ old =>
      obtain ⟨t, hu, hg⟩ := hE
      cases issues
      cases hs with
      | stay other => cases other
      | fail => trivial
      | insert =>
        have hne : old ≠ h.next := Nat.ne_of_lt (Heap.lt_next hg)
        exact ⟨t, hu, (Heap.insert_get_of_ne hne).trans hg⟩
    | commit | abort =>
      cases issues
      dsimp only
      (repeat' split) <;> trivial
    | done => cases issues
  | requestReset q | resendCode q | sendVerification q | modifyBalance q | updateUser q
  | changePassword q | autoVerify q | verifyEmail q | resetPassword q | login q | wxLogin q
  | revokeAll q | logout q | getUser q | setOpenid q | checkTokenVersion q | createUser q
  | deleteUser q =>
    obtain ⟨k', _, rfl⟩ := Next.map_some issues
    trivial

end

end Call

namespace World

/-- What holds between the refresh tokens and the calls in every state of every run. -/
structure Held (w : World) : Prop where
  inserted : ∀ i t o, w.db.tokens.get i = some (t, .inserted o) → ∃ call,
    w.calls[o]? = some call ∧ call.stores = some i
  exchanging : ∀ (c : CallId) (call : Call), w.calls[c]? = some call →
    call.Exchanging c w.db.tokens.get
  rotated : ∀ t c old new u role tv, (t, Event.tokenRotated c old new u role tv) ∈ w.trace →
    w.db.tokens.get old = none ∧ old < w.db.tokens.next

variable {cfg : Settings} {w w' : World} {l : Label} {c : CallId} {before : Call} {s : Stmt}
  {input : Input} {applied : Bool} {k : Except DbErr s.Reply → Call}
  {reply : Except DbErr s.Reply} {db' : Db} {i : TokenId}

theorem Initial.held (h0 : w.Initial) : w.Held where
  inserted i t o hg := by cases h0.tokens i t _ hg
  exchanging c call hc := by rw [h0.calls] at hc; cases hc
  rotated t c old new u role tv he := by rw [h0.trace] at he; cases he

/-- The row another call has in hand is left alone. -/
theorem token_other {o : CallId} {t : RefreshToken} {st : Hold CallId}
    (ran : w.db.exec c input.fails s = some (db', reply))
    (hg : w.db.tokens.get i = some (t, st)) (ho : st.owner = some o) (hne : o ≠ c) :
    db'.tokens.get i = some (t, st) :=
  (((Db.exec_tokens ran).toStep i).other hg ho hne).trans hg

/-- A rotation commits the exchange of a row it has deleted, for the user it has read. -/
theorem exchanged_after {t : Nat} {c' : CallId} {call : Call} {old new : TokenId} {u : UserId}
    {role : String} {v : Int} (hH : w.Held) (running : w.calls[c]? = some before)
    (hmem : (t, Event.tokenRotated c' old new u role v) ∈
      (w.after c before applied call db').trace) :
    (t, Event.tokenRotated c' old new u role v) ∈ w.trace ∨ c' = c ∧ applied = true ∧
      (∃ user, before = .rotate (.commit old new user) ∧ user.id = u ∧ user.tokenVersion = v) ∧
      ∃ token, token.userId = u ∧ w.db.tokens.get old = some (token, .deleted c) := by
  rcases mem_after.mp hmem with he | ⟨_, he⟩
  · exact Or.inl he
  · obtain ⟨ok, hl⟩ := logged_of_observe he nofun nofun nofun
    cases hl
    obtain ⟨token, hu, hg⟩ := hH.exchanging c _ running
    exact Or.inr ⟨rfl, ok, ⟨_, rfl, rfl, rfl⟩, token, hu, hg⟩

theorem Held.exec (hw : w.Sound) (hH : w.Held) (running : w.calls[c]? = some before)
    (issues : before.next cfg (input.env w.ticks) = some ⟨s, k⟩)
    (ran : w.db.exec c input.fails s = some (db', reply)) :
    (w.after c before (s.applied reply) (k reply) db').Held where
  inserted i t o hg := by
    change db'.tokens.get i = some (t, .inserted o) at hg
    by_cases ho : o = c
    · subst ho
      refine ⟨_, after_self running, ?_⟩
      refine Call.inserted_step issues (Db.exec_tokens ran) (fun t hg => ?_) hg
      obtain ⟨call, hc, hs⟩ := hH.inserted i t o hg
      rw [running] at hc
      cases hc
      exact hs
    · have hold := ((Db.exec_tokens ran).toStep i).owner_other hg rfl ho
      rw [after_other ho]
      exact hH.inserted i t o hold
  exchanging o call hc := by
    by_cases ho : o = c
    · subst ho
      rw [after_self running] at hc
      cases hc
      refine (hH.exchanging o before running).step issues (Db.exec_tokens ran)
        (hw.keyed_reply running issues ran) ?_
      intro hn i t hg
      obtain ⟨call, hc, hs⟩ := hH.inserted i t o hg
      rw [running] at hc
      cases hc
      rw [hn] at hs
      cases hs
    · rw [after_other ho] at hc
      refine (hH.exchanging o call hc).frame ?_
      intro i t s hg hown
      exact (token_other ran hg hown ho).trans hg.symm
  rotated t c' old new u role tv hmem := by
    rcases mem_after.mp hmem with he | ⟨rfl, he⟩
    · obtain ⟨hg, hlt⟩ := hH.rotated t c' old new u role tv he
      exact ⟨(Db.exec_tokens ran).gone hg hlt,
        Nat.lt_of_lt_of_le hlt (Db.exec_tokens ran).next_le⟩
    · obtain ⟨ok, hl⟩ := logged_of_observe he nofun nofun nofun
      generalize k reply = call' at hl
      cases hl
      cases issues
      obtain ⟨token, _, hg⟩ := hH.exchanging c _ running
      have hs := Db.exec_tokens ran
      have hle := hs.next_le
      refine ⟨?_, Nat.lt_of_lt_of_le (Heap.lt_next hg) hle⟩
      change db'.tokens.get old = none
      generalize db'.tokens = h' at hs
      cases hs with
      | stay other => cases other
      | fail => cases ok
      | commit => exact Heap.commit_dead fun a s hs => by rw [hg] at hs; cases hs; rfl

/-- A row that is inserted and not committed after the step was so before it, by another call. -/
theorem Held.inserted_before {t : RefreshToken} {o : CallId} (hH : w.Held)
    (running : w.calls[c]? = some before)
    (issues : before.next cfg (input.env w.ticks) = some ⟨s, k⟩)
    (ran : w.db.exec c input.fails s = some (db', reply)) (hlt : i < w.db.tokens.next)
    (hg : db'.tokens.get i = some (t, .inserted o)) :
    o ≠ c ∧ w.db.tokens.get i = some (t, .inserted o) := by
  have hs := Db.exec_tokens ran
  by_cases ho : o = c
  · subst ho
    exfalso
    have hstep := hs.toStep i
    rw [hg] at hstep
    generalize hr : w.db.tokens.get i = r at hstep
    cases hstep with
    | stay =>
      obtain ⟨call, hc, hst⟩ := hH.inserted i t o hr
      rw [running] at hc
      cases hc
      cases Call.commits_of_stores issues hst
      generalize db'.tokens = h' at hs hg
      cases hs with
      | stay other => cases other
      | commit => exact absurd rfl (Heap.commit_released hg)
      | fail => exact absurd rfl (Heap.rollback_released hg)
    | insert =>
      rw [hs.gone hr hlt] at hg
      cases hg
  · exact ⟨ho, (hs.toStep i).owner_other hg rfl ho⟩

theorem Held.step (hw : w.Sound) (hH : w.Held) (ht : Transition cfg w l w') : w'.Held := by
  cases ht with
  | exec running issues ran => exact hH.exec hw running issues ran
  | expire => exact ⟨hH.inserted, hH.exchanging, hH.rotated⟩
  | @invoke call start =>
    refine ⟨?_, ?_, hH.rotated⟩
    · intro i t o hg
      obtain ⟨call, hc, hs⟩ := hH.inserted i t o hg
      exact ⟨call, join_old hc, hs⟩
    · intro c call' hc
      rcases join_calls hc with hc | rfl
      · exact hH.exchanging c call' hc
      · cases call' <;> rename_i q <;> cases q <;> trivial

/-- An account with one refresh token. -/
def signedIn : World :=
  .ofRows [.registered 1 "ada@example.com" "Passw0rd!" "user"] [⟨1, 0, minutes 10, 0⟩] 1

theorem initial_signedIn : signedIn.Initial :=
  initial_ofRow UserModel.proper_registered

end World

end Webshelf
