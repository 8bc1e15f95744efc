import Webshelf.Store.Statement

/-!
# What a statement does to one row

`Db.exec_user` says once what any statement can do to the row of one user, by
statement and reply, and `Db.exec_tokens` what it can do to the refresh tokens.
The results about runs are proved from these, not from the statements.
-/

namespace Webshelf

/-- The row a statement locked or wrote, or tried to. -/
def Stmt.hit : (s : Stmt) → s.Reply → Option UserId
  | .selectUserForUpdate id, some _ => some id
  | .updateUser _ id _ _, _ => some id
  | .insertUser m, _ => some m.id
  | .deleteUser id _, _ + 1 => some id
  | _, _ => none

/-- A row read by id stands under that id. -/
def Stmt.Keyed : (s : Stmt) → Except DbErr s.Reply → Prop
  | .selectUserById id, .ok (some m) | .selectUserForUpdate id, .ok (some m) => m.id = id
  | _, _ => True

/-- The row a plain SELECT by id found. -/
def Stmt.found : (s : Stmt) → Except DbErr s.Reply → Option UserId
  | .selectUserById id, .ok (some _) => some id
  | _, _ => none

/-- The row a plain SELECT by id returned. -/
def Stmt.got : (s : Stmt) → Except DbErr s.Reply → Option UserModel
  | .selectUserById _, .ok found => found
  | _, _ => none

/-- The row the lookup by email found. -/
def Stmt.picked : (s : Stmt) → Except DbErr s.Reply → Option UserModel
  | .selectUser _, .ok found => found
  | _, _ => none

/-- The statement leaves its call's transaction open, if it has one. -/
def Stmt.staysOpen : Stmt → Bool
  | .commit | .rollback => false
  | _ => true

/-- What a statement of call `c` can do to the row of `id`. -/
inductive UserStep (c : CallId) (id : UserId) : (s : Stmt) → Except DbErr s.Reply →
    Versioned CallId UserModel → Versioned CallId UserModel → Prop
  | stay {s : Stmt} {reply : s.Reply} {r : Versioned CallId UserModel}
      (live : s.staysOpen = true) (missed : s.hit reply ≠ some id) :
      UserStep c id s (.ok reply) r r
  | miss {r : Versioned CallId UserModel} {conn : Conn} {p : UserModel → Bool}
      {set : UserModel → UserModel} (unseen : ∀ m, conn.sees c r = some m → p m = false) :
      UserStep c id (.updateUser conn id p set) (.ok none) r r
  | lock {r : Versioned CallId UserModel} {m : UserModel} (free : r.heldByOther c = false)
      (seen : r.view c = some m) :
      UserStep c id (.selectUserForUpdate id) (.ok (some m)) r (r.write c m)
  | write {r : Versioned CallId UserModel} {m : UserModel} {p : UserModel → Bool}
      {set : UserModel → UserModel} (free : r.heldByOther c = false)
      (seen : r.view c = some m) (hp : p m = true) (range : (set m).inRange = true) :
      UserStep c id (.updateUser .txn id p set) (.ok (some (set m))) r (r.write c (set m))
  | put {r : Versioned CallId UserModel} {m : UserModel} {p : UserModel → Bool}
      {set : UserModel → UserModel} (free : r.pending = none)
      (seen : r.committed = some m) (hp : p m = true) (range : (set m).inRange = true) :
      UserStep c id (.updateUser .auto id p set) (.ok (some (set m))) r (.put (some (set m)))
  | insert {r : Versioned CallId UserModel} {m : UserModel} (hid : m.id = id)
      (absent : r.committed = none) (free : r.pending = none) :
      UserStep c id (.insertUser m) (.ok m) r (.put (some m))
  | delete {r : Versioned CallId UserModel} {m : UserModel} {p : UserModel → Bool} {n : Nat}
      (free : r.pending = none) (seen : r.committed = some m) (hp : p m = true) :
      UserStep c id (.deleteUser id p) (.ok (n + 1)) r (.put none)
  | commit {r : Versioned CallId UserModel} : UserStep c id .commit (.ok ()) r (r.commit c)
  | rollback {r : Versioned CallId UserModel} : UserStep c id .rollback (.ok ()) r (r.rollback c)
  | fail {s : Stmt} {e : DbErr} {r : Versioned CallId UserModel} :
      UserStep c id s (.error e) r (r.rollback c)

section
variable {c : CallId} {id : UserId} {s : Stmt} {reply : Except DbErr s.Reply}
  {r r' : Versioned CallId UserModel}

theorem UserStep.toStep (h : UserStep c id s reply r r') :
    Versioned.Step c (fun _ _ => True) (fun _ => True) True r r' := by
  cases h with
  | stay | miss => exact .stay
  | lock free seen => exact .lock free seen
  | write free seen => exact .write free seen trivial
  | put free seen => exact .put free seen trivial
  | insert _ absent free => exact .insert absent free trivial
  | delete free => exact .delete free trivial
  | commit => exact .commit
  | rollback | fail => exact .rollback

end

/-- Nothing but a COMMIT changes the committed version of a row in hand. -/
theorem UserStep.committed_held {c : CallId} {id : UserId} {s : Stmt}
    {reply : Except DbErr s.Reply} {v : UserModel} {r r' : Versioned CallId UserModel}
    (h : UserStep c id s reply r r') (hp : r.pending = some (c, v)) (hs : s.staysOpen = true) :
    r'.committed = r.committed := by
  cases h with
  | stay | miss | lock | write => rfl
  | rollback | fail => exact Versioned.rollback_committed
  | put free | insert _ _ free | delete free => rw [free] at hp; cases hp
  | commit => cases hs

/-- A statement that did not reach the row, inside a transaction, leaves it as it is. -/
theorem UserStep.unhit {c : CallId} {id : UserId} {s : Stmt} {reply : s.Reply}
    {r r' : Versioned CallId UserModel} (h : UserStep c id s (.ok reply) r r')
    (hs : s.staysOpen = true) (hm : s.hit reply ≠ some id) : r' = r := by
  cases h with
  | stay | miss => rfl
  | lock | write | put | delete => exact absurd rfl hm
  | insert hid => exact absurd (congrArg some hid) hm
  | commit | rollback => cases hs

/-- An UPDATE that found its row has written it. -/
theorem UserStep.updated {c : CallId} {id : UserId} {conn : Conn} {p : UserModel → Bool}
    {set : UserModel → UserModel} {m' : UserModel} {r r' : Versioned CallId UserModel}
    (h : UserStep c id (.updateUser conn id p set) (.ok (some m')) r r') :
    ∃ m, conn.sees c r = some m ∧ p m = true ∧ m' = set m ∧
      ((conn = .txn ∧ r' = r.write c m') ∨
        conn = .auto ∧ r.pending = none ∧ r' = .put (some m')) := by
  cases h with
  | stay _ missed => exact absurd rfl missed
  | write free seen hp => exact ⟨_, seen, hp, rfl, Or.inl ⟨rfl, rfl⟩⟩
  | put free seen hp => exact ⟨_, seen, hp, rfl, Or.inr ⟨rfl, free, rfl⟩⟩

/-- Inside a transaction the row is then in hand. -/
theorem UserStep.held {c : CallId} {id : UserId} {p : UserModel → Bool}
    {set : UserModel → UserModel} {m' : UserModel} {r r' : Versioned CallId UserModel}
    (h : UserStep c id (.updateUser .txn id p set) (.ok (some m')) r r') :
    ∃ v, r'.pending = some (c, v) := by
  obtain ⟨_, _, _, _, ⟨_, rfl⟩ | ⟨hauto, _⟩⟩ := h.updated
  · exact ⟨m', rfl⟩
  · cases hauto

theorem UserStep.locked {c : CallId} {id : UserId} {m : UserModel}
    {r r' : Versioned CallId UserModel}
    (h : UserStep c id (.selectUserForUpdate id) (.ok (some m)) r r') :
    ∃ v, r'.pending = some (c, v) := by
  cases h with
  | stay _ missed => exact absurd rfl missed
  | lock => exact ⟨m, rfl⟩

/-- An UPDATE of any row there is has the row in hand, or there is none. -/
theorem UserStep.held_or_absent {c : CallId} {id : UserId} {set : UserModel → UserModel}
    {reply : Option UserModel} {r r' : Versioned CallId UserModel}
    (h : UserStep c id (.updateUser .txn id (fun _ => true) set) (.ok reply) r r') :
    (∃ v, r'.pending = some (c, v)) ∨ r'.committed = none := by
  cases reply with
  | some m => exact Or.inl h.held
  | none =>
    cases h with
    | stay _ missed => exact absurd rfl missed
    | miss unseen =>
      right
      apply Versioned.committed_of_unseen
      intro m h
      cases unseen m h

/-- A COMMIT that succeeds makes the version in hand the committed one. -/
theorem UserStep.publishes {c : CallId} {id : UserId} {v : UserModel}
    {r r' : Versioned CallId UserModel} (h : UserStep c id .commit (.ok ()) r r')
    (hp : r.pending = some (c, v)) : r'.committed = some v := by
  cases h with
  | stay live => cases live
  | commit =>
    rw [Versioned.commit_own hp]
    rfl

/-- The statement reads or changes refresh tokens itself, or ends a transaction. -/
def Stmt.onTokens : Stmt → Bool
  | .lockToken _ _ | .deleteTokens _ | .resumeDelete _ | .insertToken _ | .commit
  | .rollback => true
  | _ => false

/-- What a statement of call `c` can do to the table of refresh tokens. -/
inductive TokensStep (c : CallId) : (s : Stmt) → Except DbErr s.Reply →
    Heap CallId RefreshToken → Heap CallId RefreshToken → Prop
  | stay {s : Stmt} {reply : s.Reply} {h : Heap CallId RefreshToken} (other : s.onTokens = false) :
      TokensStep c s (.ok reply) h h
  | missed {hash : TokenHash} {now : Time} {h : Heap CallId RefreshToken} :
      TokensStep c (.lockToken hash now) (.ok none) h h
  | lock {now : Time} {i : TokenId} {t : RefreshToken} {s : Hold CallId}
      {h : Heap CallId RefreshToken} (seen : h.get i = some (t, s))
      (free : s.heldByOther c = false) (visible : s.visible c = true) :
      TokensStep c (.lockToken t.tokenHash now) (.ok (some (i, t))) h (h.lock c i)
  | delete {p : RefreshToken → Bool} {h : Heap CallId RefreshToken} :
      TokensStep c (.deleteTokens p) (.ok (h.deleteScan c (h.snapshot c p)).1) h
        (h.deleteScan c (h.snapshot c p)).2
  | resume {waiting : List TokenId} {h : Heap CallId RefreshToken} :
      TokensStep c (.resumeDelete waiting) (.ok (h.deleteScan c waiting).1) h
        (h.deleteScan c waiting).2
  | insert {token : RefreshToken} {h : Heap CallId RefreshToken} :
      TokensStep c (.insertToken token) (.ok h.next) h (h.insert c token)
  | drop {id : UserId} {p : UserModel → Bool} {n : Nat} {h : Heap CallId RefreshToken} :
      TokensStep c (.deleteUser id p) (.ok n) h (h.drop fun t => t.userId == id)
  | commit {h : Heap CallId RefreshToken} : TokensStep c .commit (.ok ()) h (h.commit c)
  | rollback {h : Heap CallId RefreshToken} : TokensStep c .rollback (.ok ()) h (h.rollback c)
  | fail {s : Stmt} {e : DbErr} {h : Heap CallId RefreshToken} :
      TokensStep c s (.error e) h (h.rollback c)

section
variable {c : CallId} {s : Stmt} {reply : Except DbErr s.Reply}
  {h h' : Heap CallId RefreshToken}

theorem TokensStep.toStep (hs : TokensStep c s reply h h') (i : TokenId) :
    Heap.Step c (h.get i) (h'.get i) := by
  cases hs with
  | stay | missed => exact .stay
  | lock => exact Heap.step_lock
  | delete | resume => exact Heap.step_deleteScan
  | insert => exact Heap.step_insert
  | drop => exact Heap.step_drop
  | commit => exact Heap.step_commit
  | rollback | fail => exact Heap.step_rollback

theorem TokensStep.next_le (hs : TokensStep c s reply h h') : h.next ≤ h'.next := by
  cases hs with
  | delete | resume =>
    exact Nat.le_of_eq Heap.deleteScan_next.symm
  | insert => exact Nat.le_succ _
  | stay | missed | lock | drop | commit | rollback | fail => exact Nat.le_refl _

/-- A DELETE that got somewhere has visited the rows of its snapshot up to those left. -/
theorem TokensStep.swept {p : RefreshToken → Bool} {rest : List TokenId}
    (hs : TokensStep c (.deleteTokens p) (.ok rest) h h') :
    rest = (h.deleteScan c (h.snapshot c p)).1 ∧ h' = (h.deleteScan c (h.snapshot c p)).2 := by
  cases hs with
  | stay other => cases other
  | delete => exact ⟨rfl, rfl⟩

theorem TokensStep.resumed {waiting rest : List TokenId}
    (hs : TokensStep c (.resumeDelete waiting) (.ok rest) h h') :
    rest = (h.deleteScan c waiting).1 ∧ h' = (h.deleteScan c waiting).2 := by
  cases hs with
  | stay other => cases other
  | resume => exact ⟨rfl, rfl⟩

/-- A number that was given out and has no row any more never gets one again. -/
theorem TokensStep.gone {i : TokenId} (hs : TokensStep c s reply h h') (hg : h.get i = none)
    (hi : i < h.next) : h'.get i = none := by
  cases hs with
  | stay | missed => exact hg
  | delete | resume => exact Heap.deleteScan_gone hg
  | insert => exact (Heap.insert_get_of_ne (Nat.ne_of_lt hi)).trans hg
  | lock | drop | commit | rollback | fail => exact Heap.mapRows_gone hg

/-- A row keeps its contents; a new one is the token of the INSERT. -/
theorem TokensStep.row {i : TokenId} {t : RefreshToken} {st : Hold CallId}
    (hs : TokensStep c s reply h h') (hg : h'.get i = some (t, st)) :
    (∃ st', h.get i = some (t, st')) ∨ s = .insertToken t ∧ i = h.next := by
  by_cases hi : h.get i = none
  · right
    cases hs with
    | stay | missed => rw [hi] at hg; cases hg
    | delete | resume => rw [Heap.deleteScan_gone hi] at hg; cases hg
    | lock | drop | commit | rollback | fail => cases (Heap.mapRows_gone hi).symm.trans hg
    | @insert token =>
      by_cases he : i = h.next
      · subst he
        rw [Heap.insert_get_next] at hg
        cases hg
        exact ⟨rfl, rfl⟩
      · rw [Heap.insert_get_of_ne he, hi] at hg
        cases hg
  · obtain ⟨⟨t', st'⟩, hr⟩ := Option.ne_none_iff_exists'.mp hi
    cases (hs.toStep i).val hr hg
    exact Or.inl ⟨st', hr⟩

/-- The rows a call has deleted are those of its DELETEs. -/
theorem TokensStep.deleted {i : TokenId} {t : RefreshToken} (hs : TokensStep c s reply h h')
    (hg : h'.get i = some (t, .deleted c)) : h.get i = some (t, .deleted c) ∨
      (∃ p, s = .deleteTokens p ∧ i ∈ h.snapshot c p) ∨
      ∃ waiting, s = .resumeDelete waiting ∧ i ∈ waiting := by
  cases hs with
  | stay | missed => exact Or.inl hg
  | @delete p =>
    by_cases hi : i ∈ h.snapshot c p
    · exact Or.inr (.inl ⟨p, rfl, hi⟩)
    · exact Or.inl ((Heap.deleteScan_other hi).symm.trans hg)
  | @resume waiting =>
    by_cases hi : i ∈ waiting
    · exact Or.inr (.inr ⟨waiting, rfl, hi⟩)
    · exact Or.inl ((Heap.deleteScan_other hi).symm.trans hg)
  | commit => exact absurd rfl (Heap.commit_released hg)
  | rollback | fail => exact absurd rfl (Heap.rollback_released hg)
  | @insert token =>
    left
    by_cases he : i = h.next
    · subst he
      rw [Heap.insert_get_next] at hg
      cases hg
    · exact (Heap.insert_get_of_ne he).symm.trans hg
  | lock => exact Or.inl (Heap.lock_deleted hg)
  | drop => exact Or.inl (Heap.drop_get hg)

/-- The committed rows change at a COMMIT, and when a user is deleted. -/
theorem TokensStep.committed_eq (hs : TokensStep c s reply h h') (i : TokenId)
    (hc : s ≠ .commit ∨ ∃ e, reply = .error e) (hd : ∀ id p, s ≠ .deleteUser id p) :
    h'.committed i = h.committed i := by
  cases hs with
  | stay | missed => rfl
  | lock => exact Heap.committed_lock
  | delete | resume => exact Heap.committed_deleteScan
  | insert => exact Heap.committed_insert
  | drop => exact absurd rfl (hd _ _)
  | commit => rcases hc with h | ⟨_, h⟩ <;> first | exact absurd rfl h | cases h
  | rollback | fail => exact Heap.committed_rollback

/-- Outside a COMMIT no committed row appears. -/
theorem TokensStep.committed_le {i : TokenId} {t : RefreshToken} (hs : TokensStep c s reply h h')
    (hc : s ≠ .commit ∨ ∃ e, reply = .error e) (hg : h'.committed i = some t) :
    h.committed i = some t := by
  by_cases hd : ∃ id p, s = .deleteUser id p
  · obtain ⟨id, p, rfl⟩ := hd
    cases hs with
    | stay | fail => exact (by simpa [Heap.committed_rollback] using hg)
    | drop =>
      rcases Heap.committed_drop (h := h) (i := i) (p := fun t => t.userId == id) with e | e
      · rw [e] at hg
        cases hg
      · exact e.symm.trans hg
  · rw [← hs.committed_eq i hc fun id p he => hd ⟨id, p, he⟩]
    exact hg

end

namespace Db

variable {db db' : Db} {c : CallId} {id : UserId} {s : Stmt} {fails : Bool}

theorem exec_cases {r : Except DbErr s.Reply} (h : db.exec c fails s = some (db', r)) :
    (∃ e, r = .error e ∧ db' = db.rollback c) ∨
      ∃ reply, r = .ok reply ∧ fails = false ∧ db.eval c s = some (.ok (db', reply)) := by
  unfold exec at h
  split at h
  · cases h
    exact Or.inl ⟨_, rfl, rfl⟩
  · rename_i hf
    cases he : db.eval c s with
    | none =>
      rw [he] at h
      cases h
    | some res =>
      rw [he] at h
      cases res with
      | error e =>
        cases h
        exact Or.inl ⟨_, rfl, rfl⟩
      | ok p =>
        cases h
        exact Or.inr ⟨_, rfl, by simpa using hf, rfl⟩

@[simp] theorem setUser_self {r : Versioned CallId UserModel} :
    (db.setUser id r).users id = r := by
  simp [setUser]

theorem setUser_ne {id' : UserId} {r : Versioned CallId UserModel} (h : id' ≠ id) :
    (db.setUser id r).users id' = db.users id' := by
  simp [setUser, Function.update_of_ne h]

@[simp] theorem scanTokens_users {is : List TokenId} :
    (db.scanTokens c is).1.users = db.users := rfl

theorem updateUser_ok {conn : Conn} {p : UserModel → Bool} {set : UserModel → UserModel}
    {reply : Option UserModel} (h : db.updateUser c conn id p set = some (.ok (db', reply))) :
    (db' = db ∧ reply = none ∧ ∀ m, db.seen c conn id = some m → p m = false) ∨
      ∃ m, db.seen c conn id = some m ∧ p m = true ∧ db.blocked c conn id = false ∧
        (set m).inRange = true ∧ db' = db.storeUser c conn id (set m) ∧
        reply = some (set m) := by
  unfold updateUser at h
  split at h
  · rename_i hm
    cases h
    exact Or.inl ⟨rfl, rfl, fun m h => by rw [hm] at h; cases h⟩
  · rename_i m hm
    split at h
    · rename_i hp
      cases h
      exact Or.inl ⟨rfl, rfl, fun m' h => by rw [hm] at h; cases h; exact hp⟩
    · rename_i hp
      split at h
      · cases h
      · rename_i hb
        split at h
        · cases h
        · rename_i hr
          split at h
          · cases h
            exact Or.inr ⟨m, hm, by simpa using hp, by simpa using hb, by simpa using hr, rfl, rfl⟩
          · split at h <;> cases h

theorem selectUserForUpdate_ok {reply : Option UserModel}
    (h : db.selectUserForUpdate c id = some (.ok (db', reply))) :
    (db' = db ∧ reply = none) ∨
      ∃ m, db.seen c .txn id = some m ∧ db.blocked c .txn id = false ∧
        db' = db.storeUser c .txn id m ∧ reply = some m := by
  unfold selectUserForUpdate at h
  split at h
  · cases h
    exact Or.inl ⟨rfl, rfl⟩
  · rename_i m hm
    split at h
    · cases h
    · rename_i hb
      cases h
      exact Or.inr ⟨m, hm, by simpa using hb, rfl, rfl⟩

theorem insertUser_ok {m m' : UserModel} (h : db.insertUser m = some (.ok (db', m'))) :
    m = m' ∧ m.id ∉ db.ids ∧ (db.users m.id).committed = none ∧
      (db.users m.id).pending = none ∧
      db' = { db.setUser m.id (.put (some m)) with ids := db.ids ++ [m.id] } := by
  unfold insertUser at h
  split at h
  · cases h
  · rename_i hi
    split at h
    · cases h
    · rename_i hb
      simp only [Bool.or_eq_true, not_or, Option.not_isSome_iff_eq_none] at hb
      split at h
      · cases h
        exact ⟨rfl, hi, hb.1, hb.2, rfl⟩
      · split at h <;> cases h

theorem deleteUser_ok {p : UserModel → Bool} {n : Nat}
    (h : db.deleteUser id p = some (.ok (db', n))) :
    (db' = db ∧ n = 0) ∨
      ∃ m, (db.users id).committed = some m ∧ p m = true ∧ (db.users id).pending = none ∧
        n = 1 ∧ db' = { db.setUser id (.put none) with
          tokens := db.tokens.drop fun t => t.userId == id } := by
  unfold deleteUser at h
  split at h
  · cases h
    exact Or.inl ⟨rfl, rfl⟩
  · rename_i m hm
    split at h
    · cases h
      exact Or.inl ⟨rfl, rfl⟩
    · rename_i hp
      split at h
      · cases h
      · rename_i hb
        cases h
        simp only [Bool.or_eq_true, not_or, Option.not_isSome_iff_eq_none] at hb
        exact Or.inr ⟨m, hm, by simpa using hp, hb.1, rfl, rfl⟩

theorem lockToken_ok {hash : TokenHash} {now : Time} {reply : Option (TokenId × RefreshToken)}
    (h : db.lockToken c hash now = some (.ok (db', reply))) :
    (db' = db ∧ reply = none) ∨
      ∃ i t s, db.tokens.get i = some (t, s) ∧ s.heldByOther c = false ∧ s.visible c = true ∧
        t.tokenHash = hash ∧ now < t.expiresAt ∧
        db' = { db with tokens := db.tokens.lock c i } ∧ reply = some (i, t) := by
  unfold lockToken at h
  split at h
  · cases h
    exact Or.inl ⟨rfl, rfl⟩
  · rename_i i hi
    obtain ⟨t, s, hg, hv, hp⟩ := Heap.mem_snapshot.mp (List.mem_of_head? hi)
    rw [hg] at h
    simp only at h
    split at h
    · cases h
    · rename_i hb
      cases h
      simp only [Bool.and_eq_true, beq_iff_eq, decide_eq_true_eq] at hp
      exact Or.inr ⟨i, t, s, hg, by simpa using hb, hv, hp.1, hp.2, rfl, rfl⟩

theorem resumeDelete_ok {waiting rest : List TokenId}
    (h : db.resumeDelete c waiting = some (.ok (db', rest))) :
    (db', rest) = db.scanTokens c waiting := by
  unfold resumeDelete at h
  split at h <;> cases h
  rfl

theorem insertToken_ok {token : RefreshToken} {i : TokenId}
    (h : db.insertToken c token = some (.ok (db', i))) :
    i = db.tokens.next ∧ db' = { db with tokens := db.tokens.insert c token } := by
  unfold insertToken at h
  split at h
  · cases h
  · split at h
    · split at h <;> cases h
    · cases h
      exact ⟨rfl, rfl⟩

/-- What any statement does to the row of a user. -/
theorem exec_user {reply : Except DbErr s.Reply} (h : db.exec c fails s = some (db', reply))
    (id : UserId) : UserStep c id s reply (db.users id) (db'.users id) := by
  rcases exec_cases h with ⟨e, rfl, rfl⟩ | ⟨reply, rfl, _, h⟩
  · exact .fail
  · cases s with
    | selectUser | selectUserById | deleteTokens | redisGet | redisExists | redisSetEx | redisDel
    | skip =>
      cases h
      exact .stay rfl nofun
    | selectUserForUpdate id' =>
      rcases selectUserForUpdate_ok h with ⟨rfl, rfl⟩ | ⟨m, hs, hb, rfl, rfl⟩
      · exact .stay rfl nofun
      · by_cases he : id' = id
        · subst he
          simp only [storeUser, setUser_self]
          exact .lock hb hs
        · simp only [storeUser, setUser_ne (Ne.symm he)]
          exact .stay rfl (by simpa [Stmt.hit] using he)
    | updateUser conn id' p set =>
      rcases updateUser_ok h with ⟨rfl, rfl, hu⟩ | ⟨m, hs, hp, hb, hr, rfl, rfl⟩
      · by_cases he : id' = id
        · subst he
          exact .miss hu
        · exact .stay rfl (by simpa [Stmt.hit] using he)
      · by_cases he : id' = id
        · subst he
          cases conn with
          | txn =>
            simp only [storeUser, setUser_self]
            exact .write hb hs hp hr
          | auto =>
            simp only [storeUser, setUser_self]
            exact .put (by simpa [blocked] using hb) hs hp hr
        · simp only [storeUser, setUser_ne (Ne.symm he)]
          exact .stay rfl (by simpa [Stmt.hit] using he)
    | insertUser m =>
      obtain ⟨rfl, _, ha, hf, rfl⟩ := insertUser_ok h
      by_cases he : m.id = id
      · subst he
        simp only [setUser_self]
        exact .insert rfl ha hf
      · simp only [setUser_ne (Ne.symm he)]
        exact .stay rfl (by simpa [Stmt.hit] using he)
    | deleteUser id' p =>
      rcases deleteUser_ok h with ⟨rfl, rfl⟩ | ⟨m, hs, hp, hf, rfl, rfl⟩
      · exact .stay rfl nofun
      · by_cases he : id' = id
        · subst he
          simp only [setUser_self]
          exact .delete hf hs hp
        · simp only [setUser_ne (Ne.symm he)]
          exact .stay rfl (by simpa [Stmt.hit] using he)
    | lockToken hash now =>
      rcases lockToken_ok h with ⟨rfl, rfl⟩ | ⟨i, t, s, _, _, _, _, _, rfl, rfl⟩
      · exact .stay rfl nofun
      · exact .stay rfl nofun
    | resumeDelete waiting =>
      cases resumeDelete_ok h
      exact .stay rfl nofun
    | insertToken token =>
      obtain ⟨rfl, rfl⟩ := insertToken_ok h
      exact .stay rfl nofun
    | commit =>
      cases h
      exact .commit
    | rollback =>
      cases h
      exact .rollback

/-- A refresh token is stored for a user whose row is there. -/
theorem exec_insertToken {token : RefreshToken} {i : TokenId}
    (h : db.exec c fails (.insertToken token) = some (db', .ok i)) :
    (∃ m, (db.users token.userId).view c = some m) ∧ i = db.tokens.next ∧
      db'.tokens = db.tokens.insert c token := by
  rcases exec_cases h with ⟨e, he, _⟩ | ⟨reply, he, _, h⟩
  · cases he
  · cases he
    obtain ⟨hi, hdb⟩ := insertToken_ok h
    refine ⟨?_, hi, by rw [hdb]⟩
    simp only [eval, insertToken] at h
    split at h
    · cases h
    · rename_i hs
      exact Option.ne_none_iff_exists'.mp (by simpa [seen, Conn.sees] using hs)

/-- The row the lookup by email found has that email. -/
theorem exec_selectUser {p : UserModel → Bool} {m : UserModel}
    (h : db.exec c fails (.selectUser p) = some (db', .ok (some m))) : p m = true := by
  rcases exec_cases h with ⟨e, he, _⟩ | ⟨reply, he, _, h⟩
  · cases he
  · cases he
    have hf : db.findUser c p = some m := by
      simp only [eval, Option.some.injEq, Except.ok.injEq, Prod.mk.injEq] at h
      exact h.2
    obtain ⟨id, _, hid⟩ := List.exists_of_findSome?_eq_some hf
    exact (Option.filter_eq_some_iff.mp hid).2

theorem exec_selectUserById {found : Option UserModel}
    (h : db.exec c fails (.selectUserById id) = some (db', .ok found)) :
    db' = db ∧ found = (db.users id).view c := by
  rcases exec_cases h with ⟨e, he, _⟩ | ⟨reply, he, _, h⟩
  · cases he
  · cases he
    cases h
    exact ⟨rfl, rfl⟩

/-- A SELECT by id that finds nothing, although it sees its own writes. -/
theorem exec_selectUserById_none (h : db.exec c fails (.selectUserById id) = some (db', .ok none)) :
    db' = db ∧ (db.users id).committed = none := by
  obtain ⟨rfl, hview⟩ := exec_selectUserById h
  refine ⟨rfl, ?_⟩
  apply Versioned.committed_of_unseen (t := c)
  intro m hm
  rw [hm] at hview
  cases hview

theorem exec_redisGet {key : CacheKey} {found : Option CacheValue}
    (h : db.exec c fails (.redisGet key) = some (db', .ok found)) : found = db.redis key := by
  rcases exec_cases h with ⟨e, he, _⟩ | ⟨reply, he, _, h⟩
  · cases he
  · cases he
    cases h
    rfl

theorem exec_redisExists {key : CacheKey} {found : Bool}
    (h : db.exec c fails (.redisExists key) = some (db', .ok found)) :
    found = (db.redis key).isSome := by
  rcases exec_cases h with ⟨e, he, _⟩ | ⟨reply, he, _, h⟩
  · cases he
  · cases he
    cases h
    rfl

theorem exec_lockToken {hash : TokenHash} {now : Time} {i : TokenId} {t : RefreshToken}
    (h : db.exec c fails (.lockToken hash now) = some (db', .ok (some (i, t)))) :
    now < t.expiresAt := by
  rcases exec_cases h with ⟨e, he, _⟩ | ⟨reply, he, _, h⟩
  · cases he
  · cases he
    rcases lockToken_ok h with ⟨_, he⟩ | ⟨i', t', st, _, _, _, _, hlt, _, he⟩
    · cases he
    · cases he
      exact hlt

theorem fails_of_selectUserById {e : DbErr}
    (h : db.exec c fails (.selectUserById id) = some (db', .error e)) : fails = true := by
  cases fails with
  | true => rfl
  | false => cases h

/-- Of the statements that succeed only the INSERT of a user adds an id, and only SETEX and DEL
change a Redis key. -/
theorem eval_rest {reply : s.Reply} (h : db.eval c s = some (.ok (db', reply)))
    (insert : ∀ m, s ≠ .insertUser m) (setEx : ∀ key ttl v, s ≠ .redisSetEx key ttl v)
    (del : ∀ keys, s ≠ .redisDel keys) : db'.ids = db.ids ∧ db'.redis = db.redis := by
  cases s with
  | selectUser | selectUserById | deleteTokens | redisGet | redisExists | skip | commit
  | rollback =>
    cases h
    exact ⟨rfl, rfl⟩
  | selectUserForUpdate id' =>
    rcases selectUserForUpdate_ok h with ⟨rfl, rfl⟩ | ⟨m, hs, hb, rfl, rfl⟩
    · exact ⟨rfl, rfl⟩
    · exact ⟨rfl, rfl⟩
  | updateUser conn id' p set =>
    rcases updateUser_ok h with ⟨rfl, rfl, _⟩ | ⟨m, hs, hp, hb, hr, rfl, rfl⟩
    · exact ⟨rfl, rfl⟩
    · exact ⟨rfl, rfl⟩
  | deleteUser id' p =>
    rcases deleteUser_ok h with ⟨rfl, rfl⟩ | ⟨m, hs, hp, hf, rfl, rfl⟩
    · exact ⟨rfl, rfl⟩
    · exact ⟨rfl, rfl⟩
  | lockToken hash now =>
    rcases lockToken_ok h with ⟨rfl, rfl⟩ | ⟨i, t, s, _, _, _, _, _, rfl, rfl⟩
    · exact ⟨rfl, rfl⟩
    · exact ⟨rfl, rfl⟩
  | resumeDelete waiting =>
    cases resumeDelete_ok h
    exact ⟨rfl, rfl⟩
  | insertToken token =>
    obtain ⟨rfl, rfl⟩ := insertToken_ok h
    exact ⟨rfl, rfl⟩
  | insertUser m => exact absurd rfl (insert m)
  | redisSetEx key ttl v => exact absurd rfl (setEx key ttl v)
  | redisDel keys => exact absurd rfl (del keys)

theorem exec_ids {reply : Except DbErr s.Reply} (h : db.exec c fails s = some (db', reply)) :
    db'.ids = db.ids ∨ ∃ m, s = .insertUser m ∧ m.id ∉ db.ids ∧ db'.ids = db.ids ++ [m.id] := by
  rcases exec_cases h with ⟨e, rfl, rfl⟩ | ⟨reply, rfl, _, h⟩
  · exact Or.inl rfl
  · cases s with
    | insertUser m =>
      obtain ⟨rfl, hi, _, _, rfl⟩ := insertUser_ok h
      exact Or.inr ⟨_, rfl, hi, rfl⟩
    | redisSetEx | redisDel =>
      cases h
      exact Or.inl rfl
    | _ => exact Or.inl (eval_rest h (by simp) (by simp) (by simp)).1

theorem mem_ids {reply : Except DbErr s.Reply} (h : db.exec c fails s = some (db', reply))
    (hi : id ∈ db.ids) : id ∈ db'.ids := by
  rcases exec_ids h with e | ⟨m, _, _, e⟩
  · rw [e]; exact hi
  · rw [e]; exact List.mem_append_left _ hi

theorem exec_insertUser {m m' : UserModel}
    (h : db.exec c fails (.insertUser m) = some (db', .ok m')) :
    m.id ∉ db.ids ∧ m.id ∈ db'.ids := by
  rcases exec_cases h with ⟨e, he, _⟩ | ⟨reply, _, _, h⟩
  · cases he
  · obtain ⟨_, hi, _, _, rfl⟩ := insertUser_ok h
    exact ⟨hi, by simp⟩

/-- A row that was absent is there only after an INSERT under a new id. -/
theorem appeared {reply : Except DbErr s.Reply} {m : UserModel}
    (h : db.exec c fails s = some (db', reply)) (ha : (db.users id).committed = none)
    (hp : ∀ v, (db.users id).pending ≠ some (c, v)) (hm : (db'.users id).committed = some m) :
    id ∉ db.ids ∧ id ∈ db'.ids := by
  have hs := exec_user h id
  generalize db.users id = r at hs ha hp
  generalize hr : db'.users id = r' at hs
  rw [hr] at hm
  cases hs with
  | stay | miss | lock | write => rw [show r.committed = some m from hm] at ha; cases ha
  | rollback | fail => rw [Versioned.rollback_committed, ha] at hm; cases hm
  | put _ seen => rw [seen] at ha; cases ha
  | delete _ seen => rw [seen] at ha; cases ha
  | commit =>
    rw [Versioned.commit_of_not_own hp, ha] at hm
    cases hm
  | insert hid =>
    subst hid
    exact exec_insertUser h

/-- What any statement does to the refresh tokens. -/
theorem exec_tokens {reply : Except DbErr s.Reply} (h : db.exec c fails s = some (db', reply)) :
    TokensStep c s reply db.tokens db'.tokens := by
  rcases exec_cases h with ⟨e, rfl, rfl⟩ | ⟨reply, rfl, _, h⟩
  · exact .fail
  · cases s with
    | selectUser | selectUserById | redisGet | redisExists | redisSetEx | redisDel | skip =>
      cases h
      exact .stay rfl
    | selectUserForUpdate id' =>
      rcases selectUserForUpdate_ok h with ⟨rfl, rfl⟩ | ⟨m, hs, hb, rfl, rfl⟩
      · exact .stay rfl
      · exact .stay rfl
    | updateUser conn id' p set =>
      rcases updateUser_ok h with ⟨rfl, rfl, _⟩ | ⟨m, hs, hp, hb, hr, rfl, rfl⟩
      · exact .stay rfl
      · exact .stay rfl
    | insertUser m =>
      obtain ⟨rfl, _, _, _, rfl⟩ := insertUser_ok h
      exact .stay rfl
    | deleteUser id' p =>
      rcases deleteUser_ok h with ⟨rfl, rfl⟩ | ⟨m, hs, hp, hf, rfl, rfl⟩
      · exact .stay rfl
      · exact .drop
    | lockToken hash now =>
      rcases lockToken_ok h with ⟨rfl, rfl⟩ | ⟨i, t, s, hg, free, visible, rfl, _, rfl, rfl⟩
      · exact .missed
      · exact .lock hg free visible
    | deleteTokens p =>
      cases h
      exact .delete
    | resumeDelete waiting =>
      cases resumeDelete_ok h
      exact .resume
    | insertToken token =>
      obtain ⟨rfl, rfl⟩ := insertToken_ok h
      exact .insert
    | commit =>
      cases h
      exact .commit
    | rollback =>
      cases h
      exact .rollback

/-- What any statement does to a Redis key. -/
theorem exec_redis {reply : Except DbErr s.Reply} (h : db.exec c fails s = some (db', reply))
    (key : CacheKey) : db'.redis key = db.redis key ∨
      (∃ keys, s = .redisDel keys ∧ db'.redis key = none) ∨
      ∃ ttl v, s = .redisSetEx key ttl v ∧ db'.redis key = some v := by
  rcases exec_cases h with ⟨e, rfl, rfl⟩ | ⟨reply, rfl, _, h⟩
  · exact Or.inl rfl
  · cases s with
    | insertUser m =>
      obtain ⟨rfl, _, _, _, rfl⟩ := insertUser_ok h
      exact Or.inl rfl
    | redisSetEx key' ttl v =>
      cases h
      by_cases hk : key = key'
      · subst hk
        exact Or.inr (Or.inr ⟨ttl, v, rfl, Function.update_self _ _ _⟩)
      · exact Or.inl (Function.update_of_ne hk _ _)
    | redisDel keys =>
      cases h
      by_cases hk : key ∈ keys
      · exact Or.inr (Or.inl ⟨keys, rfl, if_pos hk⟩)
      · exact Or.inl (if_neg hk)
    | _ => exact Or.inl (congrFun (eval_rest h (by simp) (by simp) (by simp)).2 key)

/-- An expired key has lost its value, the others have kept theirs. -/
theorem redis_of_expire {key key' : CacheKey} {v : CacheValue}
    (h : (db.expire key').redis key = some v) : db.redis key = some v := by
  simp only [expire, Function.update_apply] at h
  split at h
  · cases h
  · exact h

theorem exec_redisDel {keys : List CacheKey} {key : CacheKey} {reply : Except DbErr Unit}
    (h : db.exec c false (.redisDel keys) = some (db', reply)) (hk : key ∈ keys) :
    db'.redis key = none := by
  cases h
  exact if_pos hk

end Db

end Webshelf
