import Webshelf.Handlers.Enumeration
import Webshelf.Server.Integrity
import Webshelf.Server.Progress

/-!
# A forgotten password

In any state in which every call has returned, whatever has gone before, a reset
code that is asked for and presented in time gives the account the new password:
`password_recovered`. The two calls run on their own with every statement
answered. `World.Finishes` is the rule for such a run, statement by statement.
-/

namespace Webshelf

/-! ## The tables at rest -/

/-- The row with a code that a request has drawn. -/
def UserModel.asked (m : UserModel) (salt : Nat) (code : String) (now : Time) : UserModel :=
  { m with passwordReset :=
      ⟨some (.hash salt code), some (now + minutes CODE_EXPIRY_MINUTES), some now, 0⟩ }

/-- The row with one more of its attempts taken. -/
def UserModel.attempted (m : UserModel) : UserModel :=
  m.setCode .passwordReset { m.code .passwordReset with
    failedAttempts := (m.code .passwordReset).failedAttempts + 1 }

/-- The row with the new password. -/
def UserModel.recovered (m : UserModel) (salt : Nat) (newPassword : String) (now : Time) :
    UserModel :=
  { m with
    passwordHash := .hash salt newPassword
    tokenVersion := m.tokenVersion + 1
    passwordReset := .empty
    updatedAt := now }

/-- Nothing is in hand, and the constraints of the schema hold. -/
structure Db.Settled (db : Db) : Prop where
  users : Orderly db.users
  listed : ∀ u m, (db.users u).committed = some m → u ∈ db.ids
  tokens : ∀ i t st, db.tokens.get i = some (t, st) → st = .live

section
variable {m : UserModel} {salt : Nat} {code password newPassword : String} {now t : Time}

/-- The code is good for ten minutes. -/
theorem UserModel.usable_asked (h : t ≤ now + minutes CODE_EXPIRY_MINUTES) :
    usableHash .passwordReset t (m.asked salt code now) = some (.hash salt code) := by
  simp only [usableHash, UserModel.code, UserModel.asked]
  exact if_neg (Int.not_lt.mpr h)

theorem UserModel.verify_recovered :
    Argon2.verify password (m.recovered salt newPassword now).passwordHash = true ↔
      password = newPassword := by
  rw [recovered, Argon2.verify, Argon2.hash, beq_iff_eq, eq_comm]

theorem UserModel.inRange_recovered (h : m.inRange = true) (room : m.tokenVersion < 2147483647) :
    (m.recovered salt newPassword now).inRange = true := by
  simp only [UserModel.inRange, Bool.and_eq_true, decide_eq_true_eq] at h ⊢
  simp only [UserModel.recovered, CodeColumns.empty]
  exact ⟨⟨⟨h.1.1.1, by omega⟩, h.1.2⟩, by decide⟩

end

namespace Db

/-- What a reset leaves of the tables: a new row, and no refresh token of the user. -/
structure Reset (db db' : Db) (u : UserId) (m : UserModel) (newPassword : String) : Prop where
  users : ∃ salt now,
    db'.users = Function.update db.users u (.put (some (m.recovered salt newPassword now)))
  ids : db'.ids = db.ids
  redis : db'.redis = db.redis
  tokens : ∀ i t, db'.tokens.committed i = some t ↔
    db.tokens.committed i = some t ∧ t.userId ≠ u

/-- The transaction of a reset has all its statements but the COMMIT behind it. -/
def resetting (db : Db) (c : CallId) (u : UserId) (updated : UserModel) : Db :=
  { db.storeUser c .txn u updated with
    tokens := (db.tokens.deleteScan c (db.tokens.snapshot c fun t => t.userId == u)).2 }

variable {db db' : Db} {c : CallId} {u : UserId} {m m' : UserModel} {p : UserModel → Bool}
  {set : UserModel → UserModel} {newPassword : String}

/-- A write before the reset that the reset replaces. -/
theorem Reset.of_stored (h : (db.storeUser c .auto u m').Reset db' u m' newPassword)
    (hsame : m'.recovered = m.recovered) : db.Reset db' u m newPassword := by
  obtain ⟨salt, now, husers⟩ := h.users
  refine ⟨⟨salt, now, ?_⟩, h.ids, h.redis, h.tokens⟩
  rw [husers, hsame, storeUser, setUser, Function.update_idem]

theorem own_storeUser : ((db.storeUser c .txn u m).users u).pending = some (c, m) := by
  simp [storeUser, setUser_self]

section
variable (h : db.Settled)
include h

/-- The lookup finds the one row of the address. -/
theorem Settled.findUser (hm : (db.users u).committed = some m) :
    db.findUser c (fun x => x.email == m.email) = some m := by
  have hseen : ((db.users u).view c).filter (fun x => x.email == m.email) = some m := by
    rw [Versioned.view_free (h.users.free u), hm]
    simp
  cases hf : db.findUser c (fun x => x.email == m.email) with
  | none =>
    have hnone := List.findSome?_eq_none_iff.mp hf u (h.listed u m hm)
    rw [hseen] at hnone
    cases hnone
  | some m' =>
    obtain ⟨hm', hemail⟩ := h.users.found hf
    by_cases hid : m'.id = u
    · rw [hid, hm] at hm'
      exact hm'.symm
    · have hapart := h.users.distinct u m'.id m m' hid hm hm'
      simp only [beq_iff_eq] at hemail
      simp [UserModel.clashes, hemail] at hapart

/-- An UPDATE that keeps the id, the address and the openid goes through. -/
theorem Settled.update {conn : Conn} (hm : (db.users u).committed = some m) (hp : p m = true)
    (hemail : (set m).email = m.email) (hopenid : (set m).wxOpenid = m.wxOpenid)
    (hrange : (set m).inRange = true) :
    db.exec c false (.updateUser conn u p set) =
      some (db.storeUser c conn u (set m), .ok (some (set m))) := by
  have hseen : db.seen c conn u = some m := by
    cases conn <;> simp [Db.seen, Conn.sees, Versioned.view_free (h.users.free u), hm]
  have hfree : db.blocked c conn u = false := by
    cases conn <;> simp [Db.blocked, Versioned.heldByOther_free (h.users.free u), h.users.free u]
  have hclear := h.users.clashing hm hemail hopenid
  simp [Db.exec, Db.eval, Db.updateUser, hseen, hp, hfree, hrange, hclear]

theorem Settled.put (hm : (db.users u).committed = some m)
    (hid : m'.id = m.id) (hemail : m'.email = m.email) (hopenid : m'.wxOpenid = m.wxOpenid)
    (hrange : m'.inRange = true) : (db.storeUser c .auto u m').Settled where
  users := h.users.put hm hid hemail hopenid hrange
  listed v x hx := by
    by_cases hv : v = u
    · exact hv ▸ h.listed u m hm
    · rw [storeUser, setUser_ne hv] at hx
      exact h.listed v x hx
  tokens := h.tokens

/-- A DELETE that meets no other transaction visits all its rows. -/
theorem Settled.sweep {q : RefreshToken → Bool} :
    (db.tokens.deleteScan c (db.tokens.snapshot c q)).1 = [] := by
  cases hleft : (db.tokens.deleteScan c (db.tokens.snapshot c q)).1 with
  | nil => rfl
  | cons i rest =>
    obtain ⟨t, st, hg, held⟩ := Heap.deleteScan_held hleft
    rcases Heap.deleteScan_get c (db.tokens.snapshot c q) db.tokens i with e | ⟨e, _⟩
    · rw [e] at hg
      obtain rfl := h.tokens i t st hg
      cases held
    · rw [e] at hg
      cases hg' : db.tokens.get i with
      | none => simp [hg', Heap.afterDelete] at hg
      | some r =>
        obtain ⟨t', st'⟩ := r
        obtain rfl := h.tokens i t' st' hg'
        simp only [hg', Heap.afterDelete, reduceCtorEq, if_false, Option.some.injEq,
          Prod.mk.injEq] at hg
        obtain ⟨-, rfl⟩ := hg
        simp [Hold.heldByOther, Hold.owner] at held

theorem Settled.deleteTokens {db₂ : Db} {q : RefreshToken → Bool}
    (same : db₂.tokens = db.tokens) :
    db₂.exec c false (.deleteTokens q) =
      some ({ db₂ with tokens := (db.tokens.deleteScan c (db.tokens.snapshot c q)).2 },
        .ok []) := by
  simp [Db.exec, Db.eval, Db.scanTokens, same, h.sweep]

/-- What a DELETE leaves once its transaction has committed. -/
theorem Settled.swept {q : RefreshToken → Bool} (i : TokenId) :
    ((db.tokens.deleteScan c (db.tokens.snapshot c q)).2.commit c).committed i =
      (db.tokens.committed i).filter fun t => !q t := by
  cases hg : db.tokens.get i with
  | none =>
    have hgone : ((db.tokens.deleteScan c (db.tokens.snapshot c q)).2.commit c).get i = none :=
      Heap.mapRows_gone (Heap.deleteScan_gone hg)
    simp [Heap.committed, hgone, hg, Heap.stored]
  | some r =>
    obtain ⟨t, st⟩ := r
    obtain rfl := h.tokens i t st hg
    have hthere : db.tokens.committed i = some t := by simp [Heap.committed, hg, Heap.stored]
    cases hq : q t with
    | true =>
      have hi : i ∈ db.tokens.snapshot c q := Heap.mem_snapshot.mpr ⟨t, .live, hg, rfl, hq⟩
      rcases Heap.deleteScan_dead (t := c) (h := db.tokens) hi with hleft | hdead
      · rw [h.sweep] at hleft
        cases hleft
      · rw [hthere, Heap.committed, Heap.commit_dead hdead]
        simp [Heap.stored, Option.filter, hq]
    | false =>
      have hi : i ∉ db.tokens.snapshot c q := by
        intro hi
        obtain ⟨t', st', hg', -, hq'⟩ := Heap.mem_snapshot.mp hi
        rw [hg] at hg'
        cases hg'
        rw [hq] at hq'
        cases hq'
      have hkept := (Heap.deleteScan_other (t := c) hi).trans hg
      rw [Heap.committed_commit_other (by simp [hkept]) (by simp [hkept]),
        Heap.committed_deleteScan, hthere]
      simp [Option.filter, hq]

theorem Settled.reset {salt : Nat} {now : Time} : db.Reset
    ((db.resetting c u (m.recovered salt newPassword now)).commit c) u m newPassword := by
  refine ⟨⟨salt, now, funext fun v => ?_⟩, rfl, rfl, ?_⟩
  · change ((db.storeUser c .txn u (m.recovered salt newPassword now)).users v).commit c = _
    by_cases hv : v = u
    · subst hv
      rw [Versioned.commit_own own_storeUser, Function.update_self]
    · rw [storeUser, setUser_ne hv, Versioned.commit_free (h.users.free v),
        Function.update_of_ne hv]
  · intro i t
    change ((db.tokens.deleteScan c
      (db.tokens.snapshot c fun t => t.userId == u)).2.commit c).committed i = some t ↔ _
    rw [h.swept, Option.filter_eq_some_iff]
    simp

/-- After the reset the lookup finds the new row. -/
theorem Settled.findUser_reset (hm : (db.users u).committed = some m)
    (room : m.tokenVersion < 2147483647) (hreset : db.Reset db' u m newPassword) :
    ∃ salt now, db'.findUser c (fun x => x.email == m.email) =
      some (m.recovered salt newPassword now) := by
  obtain ⟨salt, now, husers⟩ := hreset.users
  have hrange : (m.recovered salt newPassword now).inRange = true :=
    UserModel.inRange_recovered (h.users.range u m hm) room
  have hstored : (db.storeUser c .auto u (m.recovered salt newPassword now)).Settled :=
    h.put hm rfl rfl rfl hrange
  have hrow : ((db.storeUser c .auto u (m.recovered salt newPassword now)).users u).committed =
      some (m.recovered salt newPassword now) := by
    simp [storeUser, setUser_self]
  have hsame := hstored.findUser (c := c) hrow
  refine ⟨salt, now, ?_⟩
  rw [← hsame]
  simp only [Db.findUser, hreset.ids, husers]
  rfl

end

end Db

namespace Call

variable {cfg : Settings} {env : Env} {before : Call} {s : Stmt} {c : CallId} {u : UserId}
  {k : Except DbErr s.Reply → Call} {reply : Except DbErr s.Reply}
  {r r' : Versioned CallId UserModel} {v : UserModel}

theorem inRange_newUser {input : CreateUserInput} {actorRole role : String}
    (h : roleForNewUser actorRole input.role = .ok role) :
    (newUser cfg env input role).inRange = true := by
  rcases role_of_create h with rfl | ⟨rfl, -⟩ <;> rfl

/-- The database lets no version in that is out of range. -/
theorem inRange_step (issues : before.next cfg env = some ⟨s, k⟩)
    (hs : UserStep c u s reply r r') (hr : ∀ m, r.Has m → m.inRange = true) (hv : r'.Has v) :
    v.inRange = true := by
  cases hs with
  | stay | miss => exact hr v hv
  | lock free seen =>
    rcases hv.write with hv | rfl
    · exact hr v hv
    · exact hr v (.view seen)
  | write free seen hp range =>
    rcases hv.write with hv | rfl
    · exact hr v hv
    · exact range
  | put free seen hp range =>
    cases Versioned.has_put.mp hv
    exact range
  | insert =>
    cases Versioned.has_put.mp hv
    obtain ⟨input, _, role, _, hrole, rfl⟩ := next_insertUser issues
    exact inRange_newUser hrole
  | delete => cases Versioned.has_put.mp hv
  | commit => exact hr v hv.commit
  | rollback | fail => exact hr v hv.rollback

end Call

/-! ## A call with every statement answered -/

namespace World

/-- Run on its own with these inputs the call returns, and `Q` holds of the tables it leaves
and of what it returns. -/
def Finishes (cfg : Settings) (c : CallId) (inputs : List Input) (w : World)
    (Q : Db → Call → Prop) : Prop :=
  ∃ w' issued call, alone cfg c inputs w = some (w', issued) ∧ w'.calls[c]? = some call ∧
    Q w'.db call

/-- The call, made in `w` and run on its own, returns `answer` and leaves `w'`. -/
def Answered (cfg : Settings) (start : Call) (inputs : List Input) (w w' : World)
    (answer : Call) : Prop :=
  ∃ issued, callAlone cfg start inputs w = some (w', issued) ∧
    w'.calls[w.calls.length]? = some answer

variable {cfg : Settings} {w w' : World} {c : CallId} {before call start : Call} {s : Stmt}
  {input : Input} {inputs : List Input} {k : Except DbErr s.Reply → Call}
  {Q : Db → Call → Prop}

theorem Finishes.done (running : w.calls[c]? = some call) (hf : call.finished = true)
    (hQ : Q w.db call) : Finishes cfg c inputs w Q :=
  ⟨w, [], call, alone_finished running hf, running, hQ⟩

theorem Finishes.step (reply : Except DbErr s.Reply) (db' : Db) (call : Call)
    (running : w.calls[c]? = some before)
    (issues : before.next cfg (input.env w.ticks) = some ⟨s, k⟩)
    (ran : w.db.exec c input.fails s = some (db', reply)) (next : k reply = call)
    (rest : ∀ w', w'.calls[c]? = some call → w'.db = db' → Finishes cfg c inputs w' Q) :
    Finishes cfg c (input :: inputs) w Q := by
  subst next
  have hf := Call.running_of_issues issues
  have hstep := step_exec running issues ran
  obtain ⟨w', issued, call, hrun, hcall, hQ⟩ :=
    rest (w.after c before (s.applied reply) (k reply) db') (after_self running) rfl
  refine ⟨w', (before, input) :: issued, call, ?_, hcall, hQ⟩
  simp [alone, running, hf, hstep, hrun]

theorem Finishes.answered (hi : start.initial = true)
    (h : ∀ w', w'.calls[w.calls.length]? = some start → w'.db = w.db →
      Finishes cfg w.calls.length inputs w' Q) :
    ∃ w' answer, Answered cfg start inputs w w' answer ∧ Q w'.db answer := by
  have running : (w.join start).calls[w.calls.length]? = some start := by simp [join]
  obtain ⟨w', issued, call, hrun, hcall, hQ⟩ := h _ running rfl
  refine ⟨w', call, ⟨issued, ?_, hcall⟩, hQ⟩
  simp [callAlone, World.step, hi, hrun]

/-! ## The two calls -/

section
variable {db : Db} {u : UserId} {m : UserModel} {email code newPassword : String} {h : Argon2}
  {i₀ i₁ j₀ j₁ j₂ j₃ j₄ j₅ : Input}

/-- `request_reset` stores the code for ten minutes. -/
theorem requestReset_finishes (hdb : db.Settled) (hm : (db.users u).committed = some m)
    (hemail : m.email = cfg.toLowercase email)
    (cooled : ∀ t, m.passwordReset.sentAt = some t →
      t ≤ i₀.now - seconds RESEND_COOLDOWN_SECONDS)
    (configured : i₀.emailConfigured = true) (sent : i₁.sendOk = true)
    (answered₀ : i₀.fails = false) (answered₁ : i₁.fails = false)
    (running : w.calls[c]? = some (.requestReset (.find email))) (hw : w.db = db) :
    Finishes cfg c [i₀, i₁] w fun db' answer => answer = .requestReset (.done (.ok ())) ∧
      ∃ salt, db' = db.storeUser c .auto u (m.asked salt i₀.code i₀.now) := by
  subst hw
  have hid := hdb.users.keyed u m hm
  have hrange := hdb.users.range u m hm
  have hfound := hdb.findUser (c := c) hm
  rw [hemail] at hfound
  refine Finishes.step (.ok (some m)) w.db
    (.requestReset (.store m (cfg.toLowercase email) i₀.code (.hash w.ticks i₀.code) i₀.now))
    running rfl ?_ ?_ ?_
  · rw [answered₀, ← hfound]
    rfl
  · simp [Input.env, configured]
  · intro w₁ running₁ hw₁
    refine Finishes.step (.ok (some (m.asked w.ticks i₀.code i₀.now)))
      (w.db.storeUser c .auto u (m.asked w.ticks i₀.code i₀.now))
      (.requestReset (.done (.ok ()))) running₁ rfl ?_ ?_ ?_
    · rw [answered₁, hw₁, hid]
      exact hdb.update hm (by simpa [UserModel.code, Option.all_eq_true] using cooled) rfl rfl
        (inRange_store .passwordReset hrange)
    · simp [Input.env, sent]
    · intro w₂ running₂ hw₂
      exact .done running₂ rfl ⟨rfl, w.ticks, hw₂⟩

/-- The transaction of `reset_password`. -/
theorem resetPassword_commits {user : UserModel} {salt : Nat} (hdb : db.Settled)
    (hm : (db.users u).committed = some m) (hid : user.id = u)
    (there : m.passwordReset.hash.isSome = true) (room : m.tokenVersion < 2147483647)
    (answered : ∀ input ∈ [j₂, j₃, j₄, j₅], input.fails = false)
    (running : w.calls[c]? = some (.resetPassword (.update user h (.hash salt newPassword))))
    (hw : w.db = db) :
    Finishes cfg c [j₂, j₃, j₄, j₅] w fun db' answer =>
      answer = .resetPassword (.done (.ok
        (generateToken j₅.now u m.role cfg.jwtExpirySeconds false (m.tokenVersion + 1)))) ∧
      db.Reset db' u m newPassword := by
  subst hw
  simp only [List.mem_cons, List.not_mem_nil, or_false, forall_eq_or_imp, forall_eq] at answered
  obtain ⟨a₂, a₃, a₄, a₅⟩ := answered
  have hrange : (m.recovered salt newPassword j₂.now).inRange = true :=
    UserModel.inRange_recovered (hdb.users.range u m hm) room
  have hkeyed : (m.recovered salt newPassword j₂.now).id = u := hdb.users.keyed u m hm
  refine Finishes.step (.ok (some (m.recovered salt newPassword j₂.now)))
    (w.db.storeUser c .txn u (m.recovered salt newPassword j₂.now))
    (.resetPassword (.refetch user h)) running rfl ?_ rfl ?_
  · rw [a₂, hid]
    exact hdb.update hm there rfl rfl hrange
  intro w₃ running₃ hw₃
  refine Finishes.step (.ok (some (m.recovered salt newPassword j₂.now)))
    (w.db.storeUser c .txn u (m.recovered salt newPassword j₂.now))
    (.resetPassword (.revoke user h (m.recovered salt newPassword j₂.now))) running₃ rfl ?_ rfl ?_
  · rw [a₃, hw₃, hid]
    simp [Db.exec, Db.eval, Db.seen, Conn.sees, Versioned.view_own Db.own_storeUser]
  intro w₄ running₄ hw₄
  refine Finishes.step (.ok []) (w.db.resetting c u (m.recovered salt newPassword j₂.now))
    (.resetPassword (.commit user h (m.recovered salt newPassword j₂.now))) running₄ rfl ?_ rfl ?_
  · rw [a₄, hw₄, hkeyed]
    exact hdb.deleteTokens rfl
  intro w₅ running₅ hw₅
  refine Finishes.step (.ok ())
    ((w.db.resetting c u (m.recovered salt newPassword j₂.now)).commit c) _ running₅ rfl ?_ rfl ?_
  · rw [a₅, hw₅]
    rfl
  intro w₆ running₆ hw₆
  refine .done running₆ rfl ⟨?_, ?_⟩
  · rw [hkeyed]
    rfl
  · rw [hw₆]
    exact hdb.reset

/-- `reset_password` with the code of the row. -/
theorem resetPassword_finishes (newPassword : String) (hdb : db.Settled)
    (hm : (db.users u).committed = some m) (hemail : m.email = cfg.toLowercase email)
    (usable : usableHash .passwordReset j₀.now m = some h) (right : Argon2.verify code h = true)
    (few : m.passwordReset.failedAttempts < MAX_FAILED_ATTEMPTS)
    (room : m.tokenVersion < 2147483647)
    (answered : ∀ input ∈ [j₀, j₁, j₂, j₃, j₄, j₅], input.fails = false)
    (running : w.calls[c]? = some (.resetPassword (.find email code newPassword)))
    (hw : w.db = db) :
    Finishes cfg c [j₀, j₁, j₂, j₃, j₄, j₅] w fun db' answer =>
      answer = .resetPassword (.done (.ok
        (generateToken j₅.now u m.role cfg.jwtExpirySeconds false (m.tokenVersion + 1)))) ∧
      db.Reset db' u m newPassword := by
  subst hw
  simp only [List.mem_cons, List.not_mem_nil, or_false, forall_eq_or_imp, forall_eq] at answered
  obtain ⟨a₀, a₁, answered⟩ := answered
  have hid := hdb.users.keyed u m hm
  have hfound := hdb.findUser (c := c) hm
  rw [hemail] at hfound
  have hrange : m.attempted.inRange = true :=
    inRange_attempt .passwordReset (decide_eq_true few) (hdb.users.range u m hm)
  refine Finishes.step (.ok (some m)) w.db (.resetPassword (.claim m h code newPassword))
    running rfl ?_ ?_ ?_
  · rw [a₀, ← hfound]
    rfl
  · simp [Input.env, usable]
  intro w₁ running₁ hw₁
  refine Finishes.step (.ok (some m.attempted)) (w.db.storeUser c .auto u m.attempted)
    (.resetPassword (.update m h (.hash w₁.ticks newPassword))) running₁ rfl ?_ ?_ ?_
  · rw [a₁, hw₁, hid]
    exact hdb.update hm (decide_eq_true few) rfl rfl hrange
  · simp [Input.env, right]
  intro w₂ running₂ hw₂
  have hm₂ : ((w.db.storeUser c .auto u m.attempted).users u).committed = some m.attempted := by
    simp [Db.storeUser, Db.setUser_self]
  have there : m.attempted.passwordReset.hash.isSome = true := by
    have hstored : m.passwordReset.hash = some h := usableHash_stored usable
    simp [UserModel.attempted, UserModel.setCode, UserModel.code, hstored]
  have hclaimed : (w.db.storeUser c .auto u m.attempted).Settled :=
    hdb.put hm rfl rfl rfl hrange
  obtain ⟨w', issued, answer, hrun, hanswer, rfl, hreset⟩ :=
    resetPassword_commits hclaimed hm₂ hid there room (by simpa using answered) running₂ hw₂
  exact ⟨w', issued, _, hrun, hanswer, rfl, hreset.of_stored rfl⟩

/-- `login` without remember-me. -/
theorem login_finishes {k₀ : Input} (password : String)
    (hfound : db.findUser c (fun x => x.email == cfg.toLowercase email) = some m)
    (answered : k₀.fails = false)
    (running : w.calls[c]? = some (.login (.find ⟨email, password, false⟩))) (hw : w.db = db) :
    Finishes cfg c [k₀] w fun _ answer => answer = .login (.done
      (if Argon2.verify password m.passwordHash = true ∧ m.emailVerified = true then
        .ok (generateToken k₀.now m.id m.role cfg.jwtExpirySeconds false m.tokenVersion)
      else .error .invalidCredentials)) := by
  subst hw
  refine Finishes.step (.ok (some m)) w.db _ running rfl ?_ rfl ?_
  · rw [answered, ← hfound]
    rfl
  · intro w₁ running₁ hw₁
    cases hright : Argon2.verify password m.passwordHash <;> cases hverified : m.emailVerified <;>
      simp only [hright, hverified] at running₁ <;> exact .done running₁ rfl (by simp [Input.env])

end

/-! ## From any state at rest -/

/-- Every version of a row is within the CHECK constraints and the range of its columns. -/
def Ranged (w : World) : Prop := ∀ u m, (w.db.users u).Has m → m.inRange = true

section
variable {w₀ : World} {l : Label} {u : UserId} {m : UserModel} {email : String}
  {i₀ i₁ j₀ j₁ j₂ j₃ j₄ j₅ k₀ : Input}

theorem Ranged.step (hR : w.Ranged) (ht : Transition cfg w l w') : w'.Ranged := by
  cases ht with
  | invoke => exact hR
  | expire => exact hR
  | exec running issues ran =>
    intro u v hv
    exact Call.inRange_step issues (Db.exec_user ran u) (hR u) hv

/-- Where every call has returned, the tables are at rest and the schema holds. -/
theorem settled_reached (idem : ∀ e, cfg.toLowercase (cfg.toLowercase e) = cfg.toLowercase e)
    (h0 : w₀.Initial) (hA : w₀.Apart cfg) (hR : w₀.Ranged)
    (h : Runs.Reaches (World.step cfg) Runs.Free w₀ w)
    (returned : ∀ call ∈ w.calls, call.finished = true) : w.db.Settled := by
  have hO := orderly_reached h0 h
  have hrest := rest_of_returned hO returned
  have hkept : w.Apart cfg ∧ w.Ranged := by
    refine h.invariant_of (I := fun w => w.Apart cfg ∧ w.Ranged) ⟨hA, hR⟩ ?_
    rintro a l b hr ⟨hA, hR⟩ - hstep
    have ht := step_transition hstep
    exact ⟨hA.step idem (h0.sound.reached hr) ht, hR.step ht⟩
  obtain ⟨hA, hR⟩ := hkept
  refine ⟨⟨hrest.rows, hO.sound.keyed, ?_, ?_⟩, hO.sound.listed, hrest.tokens⟩
  · intro u m hm
    exact hR u m (.committed hm)
  · intro u u' m m' hne hm hm'
    have hclash := hA.distinct u u' (Ne.symm hne) m m' (.committed hm) (.committed hm')
    simpa using hclash

/-- A forgotten password: the code that a reset request draws sets the new password when it is
presented in time, signs the user out everywhere, and changes nothing else. -/
theorem password_recovered (password newPassword : String)
    (idem : ∀ e, cfg.toLowercase (cfg.toLowercase e) = cfg.toLowercase e)
    (h0 : w₀.Initial) (hA : w₀.Apart cfg) (hR : w₀.Ranged)
    (h : Runs.Reaches (World.step cfg) Runs.Free w₀ w)
    (returned : ∀ call ∈ w.calls, call.finished = true)
    (hm : (w.db.users u).committed = some m) (hemail : m.email = cfg.toLowercase email)
    (cooled : ∀ t, m.passwordReset.sentAt = some t →
      t ≤ i₀.now - seconds RESEND_COOLDOWN_SECONDS)
    (room : m.tokenVersion < 2147483647)
    (configured : i₀.emailConfigured = true) (sent : i₁.sendOk = true)
    (inTime : j₀.now ≤ i₀.now + minutes CODE_EXPIRY_MINUTES)
    (answered : ∀ input ∈ [i₀, i₁, j₀, j₁, j₂, j₃, j₄, j₅, k₀], input.fails = false) :
    ∃ w₁ w₂ w₃,
      Answered cfg (.requestReset (.find email)) [i₀, i₁] w w₁ (.requestReset (.done (.ok ()))) ∧
      Answered cfg (.resetPassword (.find email i₀.code newPassword)) [j₀, j₁, j₂, j₃, j₄, j₅]
        w₁ w₂ (.resetPassword (.done (.ok
          (generateToken j₅.now u m.role cfg.jwtExpirySeconds false (m.tokenVersion + 1))))) ∧
      w.db.Reset w₂.db u m newPassword ∧
      Answered cfg (.login (.find ⟨email, password, false⟩)) [k₀] w₂ w₃ (.login (.done
        (if password = newPassword ∧ m.emailVerified = true then
          .ok (generateToken k₀.now u m.role cfg.jwtExpirySeconds false (m.tokenVersion + 1))
        else .error .invalidCredentials))) := by
  have hdb := settled_reached idem h0 hA hR h returned
  simp only [List.mem_cons, List.not_mem_nil, or_false, forall_eq_or_imp, forall_eq] at answered
  obtain ⟨ai₀, ai₁, aj₀, aj₁, aj₂, aj₃, aj₄, aj₅, ak₀⟩ := answered
  obtain ⟨w₁, _, hrun₁, rfl, salt, hw₁⟩ := Finishes.answered (w := w) rfl fun w' running hw =>
    requestReset_finishes hdb hm hemail cooled configured sent ai₀ ai₁ running hw
  have hasked : (m.asked salt i₀.code i₀.now).inRange = true :=
    inRange_store .passwordReset (hdb.users.range u m hm)
  have hdb₁ : w₁.db.Settled := by
    rw [hw₁]
    exact hdb.put hm rfl rfl rfl hasked
  have hm₁ : (w₁.db.users u).committed = some (m.asked salt i₀.code i₀.now) := by
    simp [hw₁, Db.storeUser, Db.setUser_self]
  have hright : Argon2.verify i₀.code (.hash salt i₀.code) = true := beq_self_eq_true i₀.code
  have hanswered : ∀ input ∈ [j₀, j₁, j₂, j₃, j₄, j₅], input.fails = false := by
    simp [aj₀, aj₁, aj₂, aj₃, aj₄, aj₅]
  have hfew : (m.asked salt i₀.code i₀.now).passwordReset.failedAttempts < MAX_FAILED_ATTEMPTS := by
    simp [UserModel.asked, MAX_FAILED_ATTEMPTS]
  obtain ⟨w₂, _, hrun₂, rfl, hreset⟩ := Finishes.answered (w := w₁) rfl fun w' running hw =>
    resetPassword_finishes newPassword hdb₁ hm₁ hemail (UserModel.usable_asked inTime) hright
      hfew room hanswered running hw
  rw [hw₁] at hreset
  have hreset := hreset.of_stored (m := m) rfl
  obtain ⟨salt₂, now, hfound⟩ := hdb.findUser_reset (c := w₂.calls.length) hm room hreset
  rw [hemail] at hfound
  obtain ⟨w₃, _, hrun₃, rfl⟩ := Finishes.answered (w := w₂) rfl fun w' running hw =>
    login_finishes password hfound ak₀ running hw
  refine ⟨w₁, w₂, w₃, hrun₁, hrun₂, hreset, ?_⟩
  simp only [UserModel.verify_recovered] at hrun₃
  rw [← hdb.users.keyed u m hm]
  exact hrun₃

theorem ranged_ofRows {users : List UserModel} {tokens : List RefreshToken} {ticks : Nat}
    (hr : ∀ m ∈ users, m.inRange = true) : (ofRows users tokens ticks).Ranged := by
  intro u m hm
  exact hr m (List.mem_of_find?_eq_some ((Versioned.has_of_free rfl).mp hm))

/-- A rotation whose second statement has failed. -/
def brokenOff : World :=
  (Runs.run (step .plain) Runs.Free signedIn
    [.invoke (.rotate (.lock 0)), .exec 0 {}, .exec 0 { fails := true }]).get (by decide)

theorem password_recovered_brokenOff : ∃ w₁ w₂ w₃,
    Answered .plain (.requestReset (.find "ada@example.com")) [{ code := "271828" }, {}]
      brokenOff w₁ (.requestReset (.done (.ok ()))) ∧
    Answered .plain (.resetPassword (.find "ada@example.com" "271828" "N3w-Secret"))
      [{}, {}, {}, {}, {}, {}] w₁ w₂
      (.resetPassword (.done (.ok (generateToken 0 1 "user" 3600 false 2)))) ∧
    brokenOff.db.Reset w₂.db 1 (.registered 1 "ada@example.com" "Passw0rd!" "user")
      "N3w-Secret" ∧
    Answered .plain (.login (.find ⟨"ada@example.com", "N3w-Secret", false⟩)) [{}] w₂ w₃
      (.login (.done (.ok (generateToken 0 1 "user" 3600 false 2)))) := by
  have hrow : (brokenOff.db.users 1).committed =
      some (.registered 1 "ada@example.com" "Passw0rd!" "user") := by
    decide
  have hemail : (UserModel.registered 1 "ada@example.com" "Passw0rd!" "user").email =
      Settings.plain.toLowercase "ada@example.com" := rfl
  have hanswered : ∀ input ∈ [({ code := "271828" } : Input), {}, {}, {}, {}, {}, {}, {}, {}],
      input.fails = false := by
    decide
  have hapart : signedIn.Apart .plain := apart_ofRows (by decide) fun _ _ => rfl
  have hreturned : ∀ call ∈ brokenOff.calls, call.finished = true := by decide
  obtain ⟨w₁, w₂, w₃, hrequest, hreset, hleft, hlogin⟩ :=
    password_recovered "N3w-Secret" "N3w-Secret" (fun _ => rfl) initial_signedIn hapart
      (ranged_ofRows (by decide)) (Runs.reaches_run_get _) hreturned hrow hemail
      (by intro t ht; cases ht) (by decide) rfl rfl (by decide) hanswered
  rw [if_pos ⟨rfl, rfl⟩] at hlogin
  exact ⟨w₁, w₂, w₃, hrequest, hreset, hleft, hlogin⟩

end

end World

end Webshelf
