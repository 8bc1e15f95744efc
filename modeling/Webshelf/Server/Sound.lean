import Webshelf.Server.Transactions

/-!
# Sound worlds

`World.Sound` holds in every state of every run: a locked row belongs to a call
that is at a place where it works on that row. `World.Sound.row_step` says once
what a step can do to the committed row of a user; the results about columns of
the users table start from it.
-/

namespace Webshelf

namespace Call

section
variable {cfg : Settings} {env : Env} {before : Call} {s : Stmt} {u : UserId} {c : CallId}
  {k : Except DbErr s.Reply → Call} {reply : Except DbErr s.Reply}
  {r r' : Versioned CallId UserModel}

theorem Writes.id_eq {now : Time} {conn : Conn} {p : UserModel → Bool}
    {set : UserModel → UserModel} {m : UserModel}
    (h : Writes cfg now before (.updateUser conn u p set)) : (set m).id = m.id := by
  cases h <;> rfl

theorem not_working_of_selectUser {p : UserModel → Bool} {m v : UserModel}
    {k : Except DbErr (Option UserModel) → Call}
    (h : before.next cfg env = some ⟨.selectUser p, k⟩) : ¬ before.Working u m v := by
  intro hW
  cases before with
  | resetPassword q => cases q <;> first | exact hW | cases h
  | updateUser q => cases q <;> first | exact hW | cases h
  | changePassword q => cases q <;> first | exact hW | cases h
  | revokeAll q => cases q <;> first | exact hW | cases h
  | modifyBalance q => cases q <;> first | exact hW | cases h
  | _ => exact hW

/-- Everything a step of a call can do to the committed row of `u`. -/
inductive RowStep (cfg : Settings) (env : Env) (u : UserId) (before : Call) (applied : Bool) :
    Option UserModel → Option UserModel → Prop
  | same {o : Option UserModel} : RowStep cfg env u before applied o o
  | write {m : UserModel} {p : UserModel → Bool} {set : UserModel → UserModel}
      (ok : applied = true) (update : Writes cfg env.now before (.updateUser .auto u p set))
      (hp : p m = true) : RowStep cfg env u before applied (some m) (some (set m))
  | commit {m v : UserModel} {k : Except DbErr Unit → Call} (ok : applied = true)
      (issues : before.next cfg env = some ⟨.commit, k⟩) (work : before.Working u m v) :
      RowStep cfg env u before applied (some m) (some v)
  | insert {input : CreateUserInput} {actorRole role : String} (ok : applied = true)
      (hid : env.newId = u) (create : before = .createUser (.insert input actorRole))
      (hr : roleForNewUser actorRole input.role = .ok role) :
      RowStep cfg env u before applied none (some (newUser cfg env input role))
  | delete {m : UserModel} {actorRole : String} (ok : applied = true)
      (delete : before = .deleteUser (.delete u actorRole)) :
      RowStep cfg env u before applied (some m) none

/-- A statement that failed, or found no row, leaves every row as it was. -/
theorem RowStep.eq_of_failed {o o' : Option UserModel} (h : RowStep cfg env u before false o o') :
    o' = o := by
  cases h with
  | same => rfl
  | write ok | commit ok | insert ok | delete ok => cases ok

theorem row_step (issues : before.next cfg env = some ⟨s, k⟩)
    (hs : UserStep c u s reply r r')
    (hw : ∀ v, r.pending = some (c, v) → ∃ m, r.committed = some m ∧ before.Working u m v) :
    RowStep cfg env u before (s.applied reply) r.committed r'.committed := by
  cases hs with
  | stay | miss | lock | write => exact .same
  | rollback | fail =>
    rw [Versioned.rollback_committed]
    exact .same
  | put _ seen hp =>
    rw [seen]
    exact .write rfl (next_writes issues) hp
  | insert hid absent =>
    obtain ⟨input, actorRole, role, rfl, hr, rfl⟩ := next_insertUser issues
    rw [absent]
    exact .insert rfl hid rfl hr
  | delete _ seen =>
    obtain ⟨role, rfl⟩ := next_deleteUser issues
    rw [seen]
    exact .delete rfl rfl
  | commit =>
    cases hp : r.pending with
    | none =>
      rw [Versioned.commit_free hp]
      exact .same
    | some q =>
      obtain ⟨o, v⟩ := q
      by_cases ho : o = c
      · subst ho
        obtain ⟨m, hm, h⟩ := hw v hp
        rw [Versioned.commit_own hp, hm]
        exact .commit rfl issues h
      · rw [Versioned.commit_other hp ho]
        exact .same

end

end Call

/-- What holds between the rows and the calls in every state of every run. -/
structure World.Sound (w : World) : Prop where
  keyed : ∀ u m, (w.db.users u).committed = some m → m.id = u
  listed : ∀ u m, (w.db.users u).committed = some m → u ∈ w.db.ids
  working : ∀ u o v, (w.db.users u).pending = some (o, v) → ∃ m call,
    (w.db.users u).committed = some m ∧ w.calls[o]? = some call ∧ call.Working u m v
  locked : ∀ (c : CallId) (call : Call) u, w.calls[c]? = some call → call.locks = some u →
    ∃ v, (w.db.users u).pending = some (c, v)
  bumped : ∀ (c : CallId) (call : Call) u, w.calls[c]? = some call → call.bumps = some u →
    (∃ v, (w.db.users u).pending = some (c, v)) ∨ (w.db.users u).committed = none
  known : ∀ (c : CallId) (call : Call) u, w.calls[c]? = some call → call.reads = some u →
    u ∈ w.db.ids
  calls : ∀ (c : CallId) (call : Call), w.calls[c]? = some call → call.Keyed

/-- What the defaults and checks of `001_init.sql` and the services give every stored row. -/
structure UserModel.Proper (ticks : Nat) (m : UserModel) : Prop where
  balance : 0 ≤ m.balance
  attempts : ∀ kind, 0 ≤ (m.code kind).failedAttempts
  salts : ∀ kind h, (m.code kind).hash = some h → h.salt < ticks

/-- A world in which nothing has happened yet: any rows, none of them in hand. -/
structure World.Initial (w : World) : Prop where
  calls : w.calls = []
  trace : w.trace = []
  users : ∀ u, (w.db.users u).pending = none
  tokens : ∀ i t s, w.db.tokens.get i = some (t, s) → s = .live
  keyed : ∀ u m, (w.db.users u).committed = some m → m.id = u
  listed : ∀ u m, (w.db.users u).committed = some m → u ∈ w.db.ids
  proper : ∀ u m, (w.db.users u).committed = some m → m.Proper w.ticks

/-- The world that holds the given rows and an empty Redis. -/
def World.ofRows (users : List UserModel) (tokens : List RefreshToken) (ticks : Nat) : World where
  db := {
    users := fun id => { committed := users.find? fun m => m.id == id }
    ids := users.map UserModel.id
    tokens := .ofList tokens
    redis := fun _ => none }
  ticks := ticks

theorem World.initial_ofRows {users : List UserModel} {tokens : List RefreshToken} {ticks : Nat}
    (h : ∀ m ∈ users, m.Proper ticks) : (ofRows users tokens ticks).Initial where
  calls := rfl
  trace := rfl
  users _ := rfl
  tokens _ _ _ hg := Heap.ofList_live hg
  keyed u m hm := by simpa using List.find?_some hm
  listed u m hm := by
    have hid : m.id = u := by simpa using List.find?_some hm
    exact hid ▸ List.mem_map_of_mem (List.mem_of_find?_eq_some hm)
  proper u m hm := h m (List.mem_of_find?_eq_some hm)

theorem World.initial_ofRow {m : UserModel} {tokens : List RefreshToken} {ticks : Nat}
    (h : m.Proper ticks) : (ofRows [m] tokens ticks).Initial := by
  apply initial_ofRows
  intro m' hm
  rw [List.mem_singleton.mp hm]
  exact h

namespace World

variable {cfg : Settings} {w w' : World} {l : Label} {c : CallId} {before : Call} {s : Stmt}
  {env : Env} {fails applied : Bool} {k : Except DbErr s.Reply → Call}
  {reply : Except DbErr s.Reply} {db' : Db} {u : UserId} {m : UserModel}

theorem Initial.sound (h : w.Initial) : w.Sound where
  keyed := h.keyed
  listed := h.listed
  working u o v hp := by rw [h.users u] at hp; cases hp
  locked c call u hc := by rw [h.calls] at hc; cases hc
  bumped c call u hc := by rw [h.calls] at hc; cases hc
  known c call u hc := by rw [h.calls] at hc; cases hc
  calls c call hc := by rw [h.calls] at hc; cases hc

theorem set_running {calls : List Call} {call : Call} (running : calls[c]? = some before) :
    (calls.set c call)[c]? = some call := by
  have hlt : c < calls.length := (List.getElem?_eq_some_iff.mp running).1
  exact List.getElem?_set_self hlt

theorem after_self {call : Call} (running : w.calls[c]? = some before) :
    (w.after c before applied call db').calls[c]? = some call :=
  set_running running

theorem after_other {call : Call} {o : CallId} (h : o ≠ c) :
    (w.after c before applied call db').calls[o]? = w.calls[o]? :=
  List.getElem?_set_ne (Ne.symm h)

theorem join_old {call call' : Call} {o : CallId} (h : w.calls[o]? = some call) :
    (w.join call').calls[o]? = some call := by
  have hlt : o < w.calls.length := (List.getElem?_eq_some_iff.mp h).1
  simpa [join, List.getElem?_append_left hlt] using h

theorem join_calls {call call' : Call} {o : CallId} (h : (w.join call).calls[o]? = some call') :
    w.calls[o]? = some call' ∨ call' = call := by
  simp only [join] at h
  rw [List.getElem?_append] at h
  split at h
  · exact Or.inl h
  · rw [List.getElem?_singleton] at h
    split at h
    · cases h
      exact Or.inr rfl
    · cases h

theorem Sound.not_pending {o : CallId} (hw : w.Sound) (h : (w.db.users u).committed = none)
    (v : UserModel) : (w.db.users u).pending ≠ some (o, v) := by
  intro hp
  obtain ⟨m, _, hm, _⟩ := hw.working u o v hp
  rw [h] at hm
  cases hm

section
variable (hw : w.Sound) (running : w.calls[c]? = some before)
  (issues : before.next cfg env = some ⟨s, k⟩) (ran : w.db.exec c fails s = some (db', reply))
include hw running

theorem Sound.own (v : UserModel) (hp : (w.db.users u).pending = some (c, v)) :
    ∃ m, (w.db.users u).committed = some m ∧ before.Working u m v := by
  obtain ⟨m, call, hm, hc, h⟩ := hw.working u c v hp
  rw [running] at hc
  cases hc
  exact ⟨m, hm, h⟩

/-- A row the call sees stands under its id. -/
theorem Sound.view_id (h : (w.db.users u).view c = some m) : m.id = u := by
  cases hp : (w.db.users u).pending with
  | none => exact hw.keyed u m (Versioned.view_free hp ▸ h)
  | some q =>
    obtain ⟨o, v⟩ := q
    by_cases ho : o = c
    · subst ho
      rw [Versioned.view_own hp] at h
      cases h
      obtain ⟨m', hm, hW⟩ := hw.own running m hp
      exact hW.id_eq.trans (hw.keyed u m' hm)
    · have hv : (w.db.users u).view c = (w.db.users u).committed := by
        simp [Versioned.view, hp, ho]
      exact hw.keyed u m (hv ▸ h)

include issues ran

theorem Sound.row_step (u : UserId) :
    Call.RowStep cfg env u before (s.applied reply) (w.db.users u).committed
      (db'.users u).committed :=
  Call.row_step issues (Db.exec_user ran u) (hw.own running)

omit running in
/-- An id is read off a row that is there. -/
theorem Sound.found (h : s.found reply = some u) : u ∈ w.db.ids := by
  rcases Db.exec_cases ran with ⟨e, rfl, _⟩ | ⟨reply, rfl, _, he⟩
  · cases s <;> cases h
  · cases s with
    | selectUserById id =>
      cases he
      cases hv : w.db.seen c .txn id with
      | none => rw [hv] at h; cases h
      | some m =>
        rw [hv] at h
        cases h
        cases hp : (w.db.users u).pending with
        | none => exact hw.listed u m (Versioned.view_free hp ▸ hv)
        | some q =>
          obtain ⟨m', _, hm, _⟩ := hw.working u q.1 q.2 hp
          exact hw.listed u m' hm
    | _ => cases h

omit issues ran in
/-- A call that has no row in hand reads committed rows. -/
theorem Sound.view_eq (hn : ∀ m v, ¬ before.Working u m v) :
    (w.db.users u).view c = (w.db.users u).committed := by
  cases hp : (w.db.users u).pending with
  | none => exact Versioned.view_free hp
  | some q =>
    obtain ⟨o, v⟩ := q
    by_cases ho : o = c
    · subst ho
      obtain ⟨m, _, hW⟩ := hw.own running v hp
      exact absurd hW (hn m v)
    · simp [Versioned.view, hp, ho]

/-- The lookup by email reads a committed row. -/
theorem Sound.selected (hp : s.picked reply = some m) :
    (w.db.users m.id).committed = some m ∧ db' = w.db := by
  cases s with
  | selectUser p =>
    rcases Db.exec_cases ran with ⟨e, rfl, _⟩ | ⟨reply, rfl, _, h⟩
    · cases hp
    · obtain ⟨rfl, hf⟩ : w.db = db' ∧ w.db.findUser c p = reply := by simpa [Db.eval] using h
      rw [show reply = some m from hp] at hf
      obtain ⟨id, _, hid⟩ := List.exists_of_findSome?_eq_some hf
      obtain ⟨hv, _⟩ := Option.filter_eq_some_iff.mp hid
      have hm := hw.view_id running hv
      rw [hw.view_eq running fun m v => Call.not_working_of_selectUser issues] at hv
      exact ⟨hm ▸ hv, rfl⟩
  | _ => cases hp

omit issues ran in
/-- A COMMIT that succeeds makes the version in hand the committed one. -/
theorem Sound.committed {fails : Bool} {db' : Db} (hl : before.locks = some u)
    (ran : w.db.exec c fails .commit = some (db', .ok ())) :
    ∃ m v, (w.db.users u).committed = some m ∧ before.Working u m v ∧
      (db'.users u).committed = some v := by
  obtain ⟨v, hp⟩ := hw.locked c before u running hl
  obtain ⟨m, hm, h⟩ := hw.own running v hp
  exact ⟨m, v, hm, h, (Db.exec_user ran u).publishes hp⟩

omit issues ran in
/-- The row a COMMIT leaves is the version its transaction had in hand. -/
theorem Sound.pending_committed {reply : Except DbErr Unit}
    {fails : Bool} {db' : Db} {m' : UserModel} (hl : before.locks = some u)
    (ran : w.db.exec c fails .commit = some (db', reply)) (ok : Stmt.commit.applied reply = true)
    (hm' : (db'.users u).committed = some m') : (w.db.users u).pending = some (c, m') := by
  obtain ⟨v, hp⟩ := hw.locked c before u running hl
  rcases reply with e | ⟨⟨⟩⟩
  · cases ok
  · have hv := (Db.exec_user ran u).publishes hp
    rw [hm'] at hv
    cases hv
    exact hp

theorem Sound.keyed_reply : s.Keyed reply := by
  rcases Db.exec_cases ran with ⟨e, rfl, _⟩ | ⟨reply, rfl, _, h⟩
  · cases s <;> trivial
  · cases s with
    | selectUserById id =>
      cases h
      cases hv : w.db.seen c .txn id with
      | none => trivial
      | some m => exact hw.view_id running hv
    | selectUserForUpdate id =>
      rcases Db.selectUserForUpdate_ok h with ⟨_, rfl⟩ | ⟨m, hv, _, _, rfl⟩
      · trivial
      · exact hw.view_id running hv
    | _ => trivial

end

/-- The row another call has in hand is left alone. -/
theorem row_other {o : CallId} {v : UserModel}
    (ran : w.db.exec c fails s = some (db', reply)) (hp : (w.db.users u).pending = some (o, v))
    (ho : o ≠ c) : db'.users u = w.db.users u :=
  (Db.exec_user ran u).toStep.other hp ho

theorem Sound.exec (hw : w.Sound) (running : w.calls[c]? = some before)
    (issues : before.next cfg env = some ⟨s, k⟩) (ran : w.db.exec c fails s = some (db', reply)) :
    (w.after c before applied (k reply) db').Sound where
  keyed u m hm := by
    have hr := hw.row_step running issues ran u
    change (db'.users u).committed = some m at hm
    rw [hm] at hr
    generalize ho : (w.db.users u).committed = o at hr
    cases hr with
    | same => exact hw.keyed u m ho
    | write _ update => exact update.id_eq.trans (hw.keyed u _ ho)
    | commit _ _ work => exact work.id_eq.trans (hw.keyed u _ ho)
    | insert _ hid => exact hid
  listed u m hm := by
    change (db'.users u).committed = some m at hm
    cases ho : (w.db.users u).committed with
    | some m' => exact Db.mem_ids ran (hw.listed u m' ho)
    | none => exact (Db.appeared ran ho (hw.not_pending ho) hm).2
  working u o v hp := by
    change (db'.users u).pending = some (o, v) at hp
    by_cases ho : o = c
    · subst ho
      obtain ⟨m, hm, h⟩ := Call.Working.step issues (hw.calls _ _ running) (Db.exec_user ran u)
        (fun hl => hw.locked _ _ u running hl) (fun hb => hw.bumped _ _ u running hb)
        (hw.own running) v hp
      exact ⟨m, _, hm, after_self running, h⟩
    · have hp' := (Db.exec_user ran u).toStep.pending_other hp ho
      obtain ⟨m, call, hm, hc, h⟩ := hw.working u o v hp'
      refine ⟨m, call, ?_, by rw [after_other ho]; exact hc, h⟩
      change (db'.users u).committed = some m
      rw [row_other ran hp' ho]
      exact hm
  locked o call u hc hl := by
    change ∃ v, (db'.users u).pending = some (o, v)
    by_cases ho : o = c
    · subst ho
      rw [after_self running] at hc
      cases hc
      exact Call.locks_step issues (hw.calls _ _ running) (Db.exec_user ran u)
        (fun hl => hw.locked _ _ u running hl) hl
    · rw [after_other ho] at hc
      obtain ⟨v, hp⟩ := hw.locked o call u hc hl
      exact ⟨v, by rw [row_other ran hp ho]; exact hp⟩
  bumped o call u hc hb := by
    change (∃ v, (db'.users u).pending = some (o, v)) ∨ (db'.users u).committed = none
    by_cases ho : o = c
    · subst ho
      rw [after_self running] at hc
      cases hc
      exact Call.bumps_step issues (Db.exec_user ran u) hb
    · rw [after_other ho] at hc
      rcases hw.bumped o call u hc hb with ⟨v, hp⟩ | hn
      · exact Or.inl ⟨v, by rw [row_other ran hp ho]; exact hp⟩
      · refine Or.inr (Option.eq_none_iff_forall_ne_some.mpr fun m hm => ?_)
        exact (Db.appeared ran hn (hw.not_pending hn) hm).1
          (hw.known o call u hc (Call.reads_of_bumps hb))
  known o call u hc hr := by
    by_cases ho : o = c
    · subst ho
      rw [after_self running] at hc
      cases hc
      rcases Call.reads_step issues hr with hr | hf
      · exact Db.mem_ids ran (hw.known _ _ u running hr)
      · exact Db.mem_ids ran (hw.found issues ran hf)
    · rw [after_other ho] at hc
      exact Db.mem_ids ran (hw.known o call u hc hr)
  calls o call hc := by
    by_cases ho : o = c
    · subst ho
      rw [after_self running] at hc
      cases hc
      exact Call.keyed_step issues (hw.calls _ _ running) (hw.keyed_reply running issues ran)
    · rw [after_other ho] at hc
      exact hw.calls o call hc

theorem Sound.step (h : w.Sound) (ht : Transition cfg w l w') : w'.Sound := by
  cases ht with
  | exec running issues ran => exact h.exec running issues ran
  | expire => exact { h with }
  | invoke start =>
    obtain ⟨hl, hb, hr, hk⟩ := Call.idle start
    exact {
      keyed := h.keyed
      listed := h.listed
      working := fun u o v hp => by
        obtain ⟨m, call, hm, hc, hW⟩ := h.working u o v hp
        exact ⟨m, call, hm, join_old hc, hW⟩
      locked := fun c call u hc hl' => by
        rcases join_calls hc with hc | rfl
        · exact h.locked c call u hc hl'
        · rw [hl] at hl'; cases hl'
      bumped := fun c call u hc hb' => by
        rcases join_calls hc with hc | rfl
        · exact h.bumped c call u hc hb'
        · rw [hb] at hb'; cases hb'
      known := fun c call u hc hr' => by
        rcases join_calls hc with hc | rfl
        · exact h.known c call u hc hr'
        · rw [hr] at hr'; cases hr'
      calls := fun c call hc => by
        rcases join_calls hc with hc | rfl
        · exact h.calls c call hc
        · exact hk }

theorem Sound.reached {ok : World → Label → Prop} (h0 : w.Sound)
    (h : Runs.Reaches (World.step cfg) ok w w') : w'.Sound :=
  h.invariant h0 fun _ _ _ hs _ hstep => hs.step (step_transition hstep)

end World

/-! ## A deployment to run on -/

def Settings.plain : Settings := ⟨fun s => s, 3600, 2592000, 7776000⟩

/-- A registered and verified account, as `create_user` and `auto_verify` leave it. -/
def UserModel.registered (id : UserId) (email password role : String) : UserModel where
  id := id
  email := email
  passwordHash := .hash 0 password
  name := "Ada"
  role := role
  createdAt := 0
  updatedAt := 0
  tokenVersion := 1
  emailVerified := true
  verification := .empty
  passwordReset := .empty
  balance := 0
  wxOpenid := none

theorem UserModel.proper_registered {id : UserId} {email password role : String} {ticks : Nat} :
    (registered id email password role).Proper ticks where
  balance := Int64.le_refl 0
  attempts kind := by cases kind <;> exact Int.le_refl 0
  salts kind h hh := by cases kind <;> cases hh

/-- An account nobody is signed in to. -/
def World.account : World :=
  .ofRows [.registered 1 "ada@example.com" "Passw0rd!" "user"] [] 1

theorem World.initial_account : account.Initial :=
  initial_ofRow UserModel.proper_registered

end Webshelf
