import Webshelf.Lib.Distinct
import Webshelf.Sessions.Tokens

/-!
# The constraints of the schema

`001_init.sql` declares `users.email` and `users.wx_openid` UNIQUE and
`refresh_tokens.user_id` a foreign key. Whatever the calls do at the same time,
no two users have a version of their row with one address in any case of its
letters, or with one openid, and every refresh token has the row of its user.
-/

namespace Webshelf

/-- The address is kept as `to_lowercase` returns it. -/
def UserModel.Lowered (cfg : Settings) (m : UserModel) : Prop := cfg.toLowercase m.email = m.email

theorem UserModel.clashes_symm {m m' : UserModel} (h : m.clashes m' = true) :
    m'.clashes m = true := by
  unfold clashes at h ⊢
  rw [Bool.or_eq_true, Bool.and_eq_true, beq_iff_eq, beq_iff_eq] at h ⊢
  rcases h with h | ⟨hs, h⟩
  · exact Or.inl h.symm
  · exact Or.inr ⟨h ▸ hs, h.symm⟩

namespace Db

variable {db db' : Db} {c : CallId} {s : Stmt} {fails : Bool} {u : UserId} {m : UserModel}

/-- The indexes had nothing against the row of an UPDATE that found its row. -/
theorem updateUser_clears {conn : Conn} {p : UserModel → Bool} {set : UserModel → UserModel}
    (h : db.updateUser c conn u p set = some (.ok (db', some m))) : db.clashing u m = [] := by
  unfold updateUser at h
  split at h
  · cases h
  · split at h
    · cases h
    · split at h
      · cases h
      · split at h
        · cases h
        · split at h
          · rename_i hclear
            cases h
            exact hclear
          · split at h <;> cases h

theorem insertUser_clears (h : db.insertUser m = some (.ok (db', m))) :
    db.clashing m.id m = [] := by
  unfold insertUser at h
  split at h
  · cases h
  · split at h
    · cases h
    · split at h
      · rename_i hclear
        exact hclear
      · split at h <;> cases h

/-- A row of another user has no version that an empty `clashing` would have found. -/
theorem not_clashes {u' : UserId} {v : UserModel} (h : db.clashing u m = []) (hid : u' ∈ db.ids)
    (hne : u' ≠ u) (hv : (db.users u').Has v) : ¬ m.clashes v = true := by
  intro hc
  have hmem : u' ∈ db.clashing u m := by
    refine List.mem_filter.mpr ⟨hid, ?_⟩
    rw [decide_eq_true hne, Bool.true_and, Bool.or_eq_true, Option.any_eq_true, Option.any_eq_true]
    rcases hv with hv | ⟨o, hv⟩
    · exact Or.inl ⟨v, hv, hc⟩
    · exact Or.inr ⟨(o, v), hv, hc⟩
  rw [h] at hmem
  cases hmem

/-- The statement makes no version of a row, or one the indexes have cleared. -/
theorem exec_versions {reply : Except DbErr s.Reply} (h : db.exec c fails s = some (db', reply)) :
    (∀ u v, (db'.users u).Has v → (db.users u).Has v) ∨
      ∃ u m, db.clashing u m = [] ∧
        ∀ u' v, (db'.users u').Has v → (db.users u').Has v ∨ u' = u ∧ v = m := by
  rcases exec_cases h with ⟨e, rfl, rfl⟩ | ⟨reply, rfl, _, h⟩
  · exact Or.inl fun _ _ hv => hv.rollback
  · cases s with
    | selectUser | selectUserById | deleteTokens | redisGet | redisExists | redisSetEx | redisDel
    | skip =>
      cases h
      exact Or.inl fun _ _ hv => hv
    | commit =>
      cases h
      exact Or.inl fun _ _ hv => hv.commit
    | rollback =>
      cases h
      exact Or.inl fun _ _ hv => hv.rollback
    | selectUserForUpdate u =>
      rcases selectUserForUpdate_ok h with ⟨rfl, rfl⟩ | ⟨m, hs, _, rfl, rfl⟩
      · exact Or.inl fun _ _ hv => hv
      · left
        intro u' v hv
        by_cases he : u' = u
        · subst he
          simp only [storeUser, setUser_self] at hv
          rcases hv.write with hv | rfl
          · exact hv
          · exact .view hs
        · simpa only [storeUser, setUser_ne he] using hv
    | updateUser conn u p set =>
      rcases updateUser_ok h with ⟨rfl, rfl, _⟩ | ⟨m, hs, _, _, _, hdb, rfl⟩
      · exact Or.inl fun _ _ hv => hv
      · refine Or.inr ⟨u, set m, updateUser_clears h, ?_⟩
        intro u' v hv
        rw [hdb] at hv
        by_cases he : u' = u
        · subst he
          cases conn with
          | txn =>
            simp only [storeUser, setUser_self] at hv
            exact hv.write.imp_right fun hv => ⟨rfl, hv⟩
          | auto =>
            simp only [storeUser, setUser_self] at hv
            cases Versioned.has_put.mp hv
            exact Or.inr ⟨rfl, rfl⟩
        · left
          simpa only [storeUser, setUser_ne he] using hv
    | insertUser m =>
      obtain ⟨rfl, _, _, _, hdb⟩ := insertUser_ok h
      refine Or.inr ⟨m.id, m, insertUser_clears h, ?_⟩
      intro u' v hv
      rw [hdb] at hv
      by_cases he : u' = m.id
      · subst he
        simp only [setUser_self] at hv
        cases Versioned.has_put.mp hv
        exact Or.inr ⟨rfl, rfl⟩
      · left
        simpa only [setUser_ne he] using hv
    | deleteUser u p =>
      rcases deleteUser_ok h with ⟨rfl, rfl⟩ | ⟨m, _, _, _, rfl, rfl⟩
      · exact Or.inl fun _ _ hv => hv
      · left
        intro u' v hv
        by_cases he : u' = u
        · subst he
          simp only [setUser_self] at hv
          cases Versioned.has_put.mp hv
        · simpa only [setUser_ne he] using hv
    | lockToken hash now =>
      rcases lockToken_ok h with ⟨rfl, rfl⟩ | ⟨i, t, st, _, _, _, _, _, rfl, rfl⟩
      · exact Or.inl fun _ _ hv => hv
      · exact Or.inl fun _ _ hv => hv
    | resumeDelete waiting =>
      cases resumeDelete_ok h
      exact Or.inl fun _ _ hv => hv
    | insertToken token =>
      obtain ⟨rfl, rfl⟩ := insertToken_ok h
      exact Or.inl fun _ _ hv => hv

/-- A DELETE that goes through finds none of the user's tokens in hand. -/
theorem deleteUser_free {p : UserModel → Bool} {n : Nat}
    (h : db.deleteUser u p = some (.ok (db', n + 1))) : db.tokenInHand u = false := by
  unfold deleteUser at h
  split at h
  · cases h
  · split at h
    · cases h
    · split at h
      · cases h
      · rename_i hb
        rw [Bool.or_eq_true, not_or] at hb
        exact Bool.eq_false_iff.mpr hb.2

theorem live_of_free {i : TokenId} {t : RefreshToken} {s : Hold CallId}
    (h : db.tokenInHand t.userId = false) (hg : db.tokens.get i = some (t, s)) : s = .live := by
  have hany := List.any_eq_false.mp h i (List.mem_range.mpr (Heap.lt_next hg))
  rw [hg] at hany
  cases s with
  | live => rfl
  | inserted | locked | deleted => exact absurd (by simp [Hold.owner]) hany

end Db

namespace Call

variable {cfg : Settings} {env : Env} {before : Call} {s : Stmt} {c : CallId} {u : UserId}
  {k : Except DbErr s.Reply → Call} {reply : Except DbErr s.Reply}
  {r r' : Versioned CallId UserModel} {m v : UserModel}

/-- An UPDATE keeps the address, or stores one it has lowered. -/
theorem Writes.lowered {now : Time} {conn : Conn} {p : UserModel → Bool}
    {set : UserModel → UserModel}
    (idem : ∀ e, cfg.toLowercase (cfg.toLowercase e) = cfg.toLowercase e)
    (h : Writes cfg now before (.updateUser conn u p set)) (hm : m.Lowered cfg) :
    (set m).Lowered cfg := by
  cases h with
  | @updateRole _ user input sent | @updateUser _ user input sent =>
    unfold UserModel.Lowered
    change cfg.toLowercase (((updateModel cfg user input sent).email).write m.email) =
      ((updateModel cfg user input sent).email).write m.email
    unfold updateModel
    cases input.email with
    | none => exact hm
    | some e => exact idem e
  | requestReset | resendCode | claimVerification | claimReset | sendVerification | autoVerify
  | verifyEmail | resetPassword | bumpRole | bumpPassword | changePassword | bumpAll
  | modifyBalance | setOpenid => exact hm

/-- Where a version of a row comes from that a step leaves. -/
theorem version_step (issues : before.next cfg env = some ⟨s, k⟩) (hs : UserStep c u s reply r r')
    (hv : r'.Has v) : r.Has v ∨
      (∃ m conn p set, r.Has m ∧ Writes cfg env.now before (.updateUser conn u p set) ∧
        v = set m) ∨ ∃ input role, v = newUser cfg env input role := by
  cases hs with
  | stay | miss => exact Or.inl hv
  | lock free seen =>
    rcases hv.write with hv | rfl
    · exact Or.inl hv
    · exact Or.inl (.view seen)
  | write free seen =>
    rcases hv.write with hv | rfl
    · exact Or.inl hv
    · exact Or.inr (.inl ⟨_, _, _, _, .view seen, next_writes issues, rfl⟩)
  | put free seen =>
    cases Versioned.has_put.mp hv
    exact Or.inr (.inl ⟨_, _, _, _, .committed seen, next_writes issues, rfl⟩)
  | insert =>
    cases Versioned.has_put.mp hv
    obtain ⟨input, _, role, _, _, rfl⟩ := next_insertUser issues
    exact Or.inr (.inr ⟨input, role, rfl⟩)
  | delete => cases Versioned.has_put.mp hv
  | commit => exact Or.inl hv.commit
  | rollback | fail => exact Or.inl hv.rollback

end Call

namespace World

/-- What the UNIQUE indexes and the services keep of the users table. -/
structure Apart (cfg : Settings) (w : World) : Prop where
  distinct : Versioned.Distinct (fun m m' => UserModel.clashes m m' = true) w.db.users
  lowered : ∀ u m, (w.db.users u).Has m → m.Lowered cfg

/-- Every refresh token has the row of its user. -/
def Owned (w : World) : Prop :=
  ∀ i t s, w.db.tokens.get i = some (t, s) → ∃ m, (w.db.users t.userId).committed = some m

variable {cfg : Settings} {w₀ w w' : World} {l : Label} {c : CallId} {before : Call} {s : Stmt}
  {env : Env} {fails : Bool} {k : Except DbErr s.Reply → Call} {reply : Except DbErr s.Reply}
  {db' : Db} {u u' : UserId} {m m' : UserModel}

theorem Sound.listed_of_has (hw : w.Sound) (h : (w.db.users u).Has m) : u ∈ w.db.ids := by
  rcases h with h | ⟨o, h⟩
  · exact hw.listed u m h
  · obtain ⟨m', _, hm, _⟩ := hw.working u o m h
    exact hw.listed u m' hm

theorem Sound.committed_of_view (hw : w.Sound) (h : (w.db.users u).view c = some m) :
    ∃ m', (w.db.users u).committed = some m' := by
  rcases Versioned.Has.view h with h | ⟨o, h⟩
  · exact ⟨m, h⟩
  · obtain ⟨m', _, hm, _⟩ := hw.working u o m h
    exact ⟨m', hm⟩

theorem Apart.exec (idem : ∀ e, cfg.toLowercase (cfg.toLowercase e) = cfg.toLowercase e)
    (hw : w.Sound) (hA : w.Apart cfg) (issues : before.next cfg env = some ⟨s, k⟩)
    (ran : w.db.exec c fails s = some (db', reply)) :
    Versioned.Distinct (fun m m' => UserModel.clashes m m' = true) db'.users ∧
      ∀ u m, (db'.users u).Has m → m.Lowered cfg := by
  constructor
  · rcases Db.exec_versions ran with old | ⟨u, m, clear, old⟩
    · exact hA.distinct.keep old
    · apply hA.distinct.add (fun _ _ h => UserModel.clashes_symm h) old
      intro u' v hne hv
      exact Db.not_clashes clear (hw.listed_of_has hv) hne hv
  · intro u v hv
    rcases Call.version_step issues (Db.exec_user ran u) hv with
      hv | ⟨m, conn, p, set, hm, writes, rfl⟩ | ⟨input, role, rfl⟩
    · exact hA.lowered u v hv
    · exact writes.lowered idem (hA.lowered u m hm)
    · exact idem input.email

theorem Apart.step (idem : ∀ e, cfg.toLowercase (cfg.toLowercase e) = cfg.toLowercase e)
    (hw : w.Sound) (hA : w.Apart cfg) (ht : Transition cfg w l w') : w'.Apart cfg := by
  cases ht with
  | invoke => exact ⟨hA.distinct, hA.lowered⟩
  | expire => exact ⟨hA.distinct, hA.lowered⟩
  | exec running issues ran =>
    obtain ⟨distinct, lowered⟩ := hA.exec idem hw issues ran
    exact ⟨distinct, lowered⟩

/-- A step keeps the row of a user who has a token. -/
theorem Owned.exec (hw : w.Sound) (hO : w.Owned)
    (ran : w.db.exec c fails s = some (db', reply)) {i : TokenId} {t : RefreshToken}
    {st : Hold CallId} (hg : db'.tokens.get i = some (t, st)) :
    ∃ m, (db'.users t.userId).committed = some m := by
  have hrow : ∃ m, (w.db.users t.userId).committed = some m := by
    rcases (Db.exec_tokens ran).row hg with ⟨st', hold⟩ | ⟨rfl, rfl⟩
    · exact hO i t st' hold
    · cases reply with
      | ok i =>
        obtain ⟨⟨m, hm⟩, _, _⟩ := Db.exec_insertToken ran
        exact hw.committed_of_view hm
      | error e =>
        have hgone := (Db.exec_tokens ran).toStep w.db.tokens.next
        rw [hg, w.db.tokens.fresh _ (Nat.le_refl _)] at hgone
        cases hgone with
        | insert =>
          rcases Db.exec_cases ran with ⟨_, _, hdb⟩ | ⟨_, he, _⟩
          · rw [hdb] at hg
            cases (Heap.mapRows_gone (w.db.tokens.fresh _ (Nat.le_refl _))).symm.trans hg
          · cases he
  obtain ⟨m, hm⟩ := hrow
  have hs := Db.exec_user ran t.userId
  generalize hr : w.db.users t.userId = r at hs hm
  generalize hr' : db'.users t.userId = r' at hs
  cases hs with
  | stay | miss | lock | write => exact ⟨m, hm⟩
  | put => exact ⟨_, rfl⟩
  | insert _ absent =>
    rw [absent] at hm
    cases hm
  | rollback | fail => exact ⟨m, Versioned.rollback_committed.trans hm⟩
  | commit =>
    cases hp : r.pending with
    | none => exact ⟨m, by rw [Versioned.commit_free hp]; exact hm⟩
    | some q =>
      obtain ⟨o, v⟩ := q
      by_cases ho : o = c
      · subst ho
        exact ⟨v, by rw [Versioned.commit_own hp]; rfl⟩
      · exact ⟨m, by rw [Versioned.commit_other hp ho]; exact hm⟩
  | @delete _ _ p n =>
    -- the user's tokens went with the row
    exfalso
    rcases Db.exec_cases ran with ⟨_, he, _⟩ | ⟨reply, he, _, ran⟩
    · cases he
    · cases he
      have hfree := Db.deleteUser_free ran
      rcases Db.deleteUser_ok ran with ⟨_, he⟩ | ⟨_, _, _, _, _, hdb⟩
      · cases he
      · rw [hdb] at hg
        change (w.db.tokens.drop fun t' => t'.userId == t.userId).get i = some (t, st) at hg
        have hold := Heap.drop_get hg
        cases Db.live_of_free hfree hold
        simp [Heap.drop, Heap.mapRows_get, hold] at hg

theorem Owned.step (hw : w.Sound) (hO : w.Owned) (ht : Transition cfg w l w') : w'.Owned := by
  cases ht with
  | invoke => exact hO
  | expire => exact hO
  | exec running issues ran => exact fun i t st hg => hO.exec hw ran hg

/-- Two users never share an address, in whatever case it is written, nor an openid. A version
that is not committed yet counts as well. -/
theorem accounts_apart (idem : ∀ e, cfg.toLowercase (cfg.toLowercase e) = cfg.toLowercase e)
    (h0 : w₀.Initial) (hA : w₀.Apart cfg) (h : Runs.Reaches (World.step cfg) Runs.Free w₀ w)
    (hne : u ≠ u') (hm : (w.db.users u).Has m) (hm' : (w.db.users u').Has m') :
    cfg.toLowercase m.email ≠ cfg.toLowercase m'.email ∧
      ∀ openid, m.wxOpenid = some openid → m'.wxOpenid ≠ some openid := by
  have hA : w.Apart cfg := by
    refine h.invariant_of hA ?_
    intro a l b hr hA _ hstep
    exact hA.step idem (h0.sound.reached hr) (step_transition hstep)
  have hclash : ¬ m.clashes m' = true := hA.distinct u u' hne m m' hm hm'
  rw [UserModel.clashes, Bool.or_eq_true, Bool.and_eq_true, beq_iff_eq, beq_iff_eq, not_or]
    at hclash
  obtain ⟨hemail, hopenid⟩ := hclash
  constructor
  · rw [hA.lowered u m hm, hA.lowered u' m' hm']
    exact hemail
  · intro openid ho ho'
    exact hopenid ⟨by rw [ho]; rfl, ho.trans ho'.symm⟩

theorem apart_ofRows {users : List UserModel} {tokens : List RefreshToken} {ticks : Nat}
    (hd : ∀ m ∈ users, ∀ m' ∈ users, m.id ≠ m'.id → m.clashes m' = false)
    (hl : ∀ m ∈ users, m.Lowered cfg) : (ofRows users tokens ticks).Apart cfg := by
  have hrow {u : UserId} {m : UserModel} (h : ((ofRows users tokens ticks).db.users u).Has m) :
      m ∈ users ∧ m.id = u := by
    have hfind : users.find? (fun m => m.id == u) = some m := (Versioned.has_of_free rfl).mp h
    exact ⟨List.mem_of_find?_eq_some hfind, by simpa using List.find?_some hfind⟩
  constructor
  · intro u u' hne m m' hm hm' hc
    obtain ⟨hmem, rfl⟩ := hrow hm
    obtain ⟨hmem', rfl⟩ := hrow hm'
    rw [hd m hmem m' hmem' hne] at hc
    cases hc
  · exact fun u m hm => hl m (hrow hm).1

/-- Two accounts, the second of them with an openid. -/
def neighbours : World :=
  .ofRows [.registered 1 "ada@example.com" "Passw0rd!" "user",
    { UserModel.registered 2 "bob@example.com" "Secret-1" "user" with wxOpenid := some "oBob" }]
    [] 1

theorem initial_neighbours : neighbours.Initial := by
  apply initial_ofRows
  intro m hm
  rcases List.mem_cons.mp hm with rfl | hm
  · exact UserModel.proper_registered
  · cases List.mem_singleton.mp hm
    exact ⟨Int64.le_refl 0, fun kind => by cases kind <;> exact Int.le_refl 0,
      fun kind h hh => by cases kind <;> cases hh⟩

/-- The first account is given another address, in a transaction that is still open. -/
def addressChange : List Label :=
  [.invoke (.updateUser (.find 1 ⟨some "eve@example.com", none, some "admin"⟩ "system")),
    .exec 0 {}, .exec 0 {}, .exec 0 {}]

theorem accounts_apart_open :
    let w := (Runs.run (World.step .plain) Runs.Free neighbours addressChange).get (by decide)
    ∀ m m', (w.db.users 1).pending = some (0, m) → (w.db.users 2).committed = some m' →
      Settings.plain.toLowercase m.email ≠ Settings.plain.toLowercase m'.email ∧
        ∀ openid, m.wxOpenid = some openid → m'.wxOpenid ≠ some openid :=
  fun _ _ hm hm' => accounts_apart (fun _ => rfl) initial_neighbours
    (apart_ofRows (by decide) fun _ _ => rfl) (Runs.reaches_run_get _) (by decide)
    (Or.inr ⟨0, hm⟩) (.committed hm')

/-- Every refresh token has its user in every state, so a rotation that has locked its token
finds the user: of its `Ok(None)` answers the one for a missing user is never given. -/
theorem refresh_tokens_owned (h0 : w₀.Initial) (hO : w₀.Owned)
    (h : Runs.Reaches (World.step cfg) Runs.Free w₀ w) :
    w.Owned ∧ ∀ (c : CallId) oldHash newHash expiresAt old record input w',
      w.calls[c]? = some (.rotate (.find oldHash newHash expiresAt old record)) →
      w.step cfg (.exec c input) = some w' → w'.calls[c]? ≠ some (.rotate .abort) := by
  have hO : w.Owned := by
    refine h.invariant_of hO ?_
    intro a l b hr hO _ hstep
    exact hO.step (h0.sound.reached hr) (step_transition hstep)
  refine ⟨hO, ?_⟩
  intro c oldHash newHash expiresAt old record input w' running hstep
  have hH : w.Held := by
    refine h.invariant_of h0.held ?_
    intro a l b hr hH _ hstep
    exact hH.step (h0.sound.reached hr) (step_transition hstep)
  obtain ⟨_, hg⟩ := hH.exchanging c _ running
  obtain ⟨m, hm⟩ := hO old record _ hg
  cases step_transition hstep with
  | @exec _ _ before stmt k db' reply hb issues ran =>
    rw [running] at hb
    cases hb
    cases issues
    rw [after_self running]
    intro habort
    cases reply with
    | error e => cases habort
    | ok found =>
      cases found with
      | some user => cases habort
      | none =>
        obtain ⟨_, hnone⟩ := Db.exec_selectUserById_none ran
        rw [hm] at hnone
        cases hnone

/-- The token of the signed-in account is being rotated. -/
def exchanging : List Label := [.invoke (.rotate (.lock 0)), .exec 0 {}]

theorem refresh_tokens_owned_exchanging :
    let w := (Runs.run (World.step .plain) Runs.Free signedIn exchanging).get (by decide)
    w.Owned ∧ ∀ (c : CallId) oldHash newHash expiresAt old record input w',
      w.calls[c]? = some (.rotate (.find oldHash newHash expiresAt old record)) →
      w.step .plain (.exec c input) = some w' → w'.calls[c]? ≠ some (.rotate .abort) := by
  apply refresh_tokens_owned initial_signedIn
  · intro i t st hg
    obtain ⟨t', ht, he⟩ := Option.map_eq_some_iff.mp hg
    cases he
    cases i with
    | zero =>
      cases ht
      exact ⟨_, rfl⟩
    | succ i => cases ht
  · exact Runs.reaches_run_get _

end World

end Webshelf
