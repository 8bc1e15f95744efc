import Webshelf.Server.Serve

/-!
# Accounts an admin must not see

An account of role admin or system answers an admin as an account that is not
there would: each of the five calls on it ends in `NotFound` or `None`, and
leaves it so that the next one does too, whatever the lookups have cached.
-/

namespace Webshelf

/-- What an admin can ask of another account: `get_user_scoped`, `update_user`, `delete_user`,
`set_balance` and `adjust_balance`. -/
inductive AdminCall where
  | getUserScoped
  | updateUser (input : UpdateUserInput)
  | deleteUser
  | setBalance (balance : Int64)
  | adjustBalance (amount : Int64)

/-- The call by the admin `actor` on the account `t`. -/
def AdminCall.call (t actor : UserId) : AdminCall → Call
  | getUserScoped => .getUser (.get t (some "admin"))
  | updateUser input => .updateUser (.find t input "admin")
  | deleteUser => .deleteUser (.find t "admin" actor)
  | setBalance balance => .modifyBalance (Webshelf.setBalance t balance "admin")
  | adjustBalance amount => .modifyBalance (Webshelf.adjustBalance t amount "admin")

/-- A Redis command. -/
def Stmt.cached : Stmt → Bool
  | .redisGet _ | .redisExists _ | .redisSetEx _ _ _ | .redisDel _ => true
  | _ => false

/-- A Redis command comes back, and leaves the rows nobody has in hand alone. -/
theorem Db.exec_cached {db : Db} {c : CallId} {s : Stmt} (fails : Bool) (hs : s.cached = true) :
    ∃ db' reply, db.exec c fails s = some (db', reply) ∧
      ∀ u, (db.users u).pending = none → db'.users u = db.users u := by
  cases fails with
  | true => exact ⟨db.rollback c, .error .other, rfl, fun u h => Versioned.rollback_free h⟩
  | false => cases s <;> cases hs <;> exact ⟨_, _, rfl, fun _ _ => rfl⟩

theorem Db.exec_lock_absent {db : Db} {c : CallId} {id : UserId}
    (hfree : (db.users id).pending = none) (hm : (db.users id).committed = none) :
    db.exec c false (.selectUserForUpdate id) = some (db, .ok none) := by
  simp [exec, eval, selectUserForUpdate, seen, Conn.sees, Versioned.view_free hfree, hm]

theorem Db.exec_lock {db : Db} {c : CallId} {id : UserId} {m : UserModel}
    (hfree : (db.users id).pending = none) (hm : (db.users id).committed = some m) :
    db.exec c false (.selectUserForUpdate id) = some (db.storeUser c .txn id m, .ok (some m)) := by
  simp [exec, eval, selectUserForUpdate, seen, Conn.sees, Versioned.view_free hfree, hm, blocked,
    Versioned.heldByOther_free hfree]

namespace Call

/-- What the call returns for an account that is not there. -/
def refusal : Call → Call
  | getUser _ => getUser (.done (.ok none))
  | updateUser _ => updateUser (.done (.error .notFound))
  | deleteUser _ => deleteUser (.done (.error .notFound))
  | modifyBalance _ => modifyBalance (.done (.error .notFound))
  | call => call

/-- A call of an admin on the account `t`, on the way to its refusal. -/
def Refusing (t : UserId) : Call → Prop
  | getUser (.get id role) | getUser (.marker id role) | getUser (.find id role) =>
    id = t ∧ role = some "admin"
  | getUser (.set id role user) => id = t ∧ role = some "admin" ∧ user.role ≠ "user"
  | getUser (.setNull id) => id = t
  | getUser (.done r) => r = .ok none
  | updateUser (.find id _ role) => id = t ∧ role = "admin"
  | updateUser (.done r) => r = .error .notFound
  | deleteUser (.find id role actor) => id = t ∧ role = "admin" ∧ actor ≠ t
  | deleteUser (.done r) => r = .error .notFound
  | modifyBalance (.lock id _ role) => id = t ∧ role = "admin"
  | modifyBalance (.abort e) => e = .notFound
  | modifyBalance (.done r) => r = .error .notFound
  | _ => False

/-- The call has locked the row and is about to let go of it. -/
def aborts : Call → Bool
  | modifyBalance (.abort _) => true
  | _ => false

theorem aborts_finished {call : Call} (h : call.finished = true) : call.aborts = false := by
  cases call with
  | modifyBalance q => cases q <;> first | rfl | cases h
  | _ => rfl

theorem eq_refusal {t : UserId} {call : Call} (hr : call.Refusing t)
    (h : call.finished = true) : call = call.refusal := by
  cases call with
  | getUser q | updateUser q | deleteUser q | modifyBalance q =>
    cases q with
    | done r =>
      cases hr
      rfl
    | _ => exact absurd h Bool.false_ne_true
  | _ => exact hr.elim

/-- The statements a call that is refused still has before it. -/
def left : Call → Nat
  | getUser (.get _ _) => 4
  | getUser (.marker _ _) => 3
  | getUser (.find _ _) | modifyBalance (.lock _ _ _) => 2
  | getUser (.set _ _ _) | getUser (.setNull _) | updateUser (.find _ _ _)
  | deleteUser (.find _ _ _) | modifyBalance (.abort _) => 1
  | _ => 0

end Call

namespace World

/-- The account `t` is not there or is an admin or the system account, and Redis has no user
account under its key. -/
structure Hides (w : World) (t : UserId) : Prop where
  row : ∀ m, (w.db.users t).committed = some m → m.role = "admin" ∨ m.role = "system"
  cached : ∀ user, w.db.redis (userCacheKey t) = some (.user user) → user.role ≠ "user"

/-- Call `c` is being refused, and nobody else has the row in hand. -/
structure Refuses (t : UserId) (c : CallId) (w : World) (call : Call) : Prop where
  hides : w.Hides t
  refusing : call.Refusing t
  free : ∀ o v, (w.db.users t).pending = some (o, v) → o = c ∧ call.aborts = true

variable {cfg : Settings} {out : Outside} {w w' : World} {c : CallId} {before call : Call}
  {t actor : UserId} {fuel : Nat} {m : UserModel}

theorem Hides.role (h : w.Hides t) (hm : (w.db.users t).committed = some m) : m.role ≠ "user" := by
  rcases h.row m hm with h | h <;> rw [h] <;> decide

theorem Hides.expire (h : w.Hides t) (keys : List CacheKey) : (w.expire keys).Hides t where
  row m hm := h.row m (by simpa using hm)
  cached user hu := h.cached user (expire_redis hu)

theorem Refuses.expire (h : Refuses t c w call) (keys : List CacheKey) :
    Refuses t c (w.expire keys) call where
  hides := h.hides.expire keys
  refusing := h.refusing
  free o v hp := h.free o v (by simpa using hp)

/-- Nobody has the row in hand before the call has locked it. -/
theorem Refuses.pending (h : Refuses t c w before) (ha : before.aborts = false) :
    (w.db.users t).pending = none := by
  cases hp : (w.db.users t).pending with
  | none => rfl
  | some q =>
    have := (h.free q.1 q.2 hp).2
    rw [ha] at this
    cases this

section
variable (h : Refuses t c w before) (running : w.calls[c]? = some before)
include h running

/-- One statement on the way to the refusal. -/
theorem Refuses.go {s : Stmt} {input : Input} {k : Except DbErr s.Reply → Call}
    {reply : Except DbErr s.Reply} {db' : Db}
    (issues : before.next cfg (input.env w.ticks) = some ⟨s, k⟩)
    (ran : w.db.exec c input.fails s = some (db', reply))
    (hrow : (db'.users t).committed = (w.db.users t).committed)
    (hcached : ∀ user, db'.redis (userCacheKey t) = some (.user user) → user.role ≠ "user")
    (hrefusing : (k reply).Refusing t)
    (hfree : ∀ o v, (db'.users t).pending = some (o, v) → o = c ∧ (k reply).aborts = true)
    (hleft : (k reply).left < before.left) (hrefusal : (k reply).refusal = before.refusal) :
    ∃ w' call, w.step cfg (.exec c input) = some w' ∧ w'.calls = w.calls.set c call ∧
      Refuses t c w' call ∧ call.left < before.left ∧ call.refusal = before.refusal :=
  ⟨_, k reply, step_exec running issues ran, rfl,
    ⟨⟨fun m hm => h.hides.row m (hrow ▸ hm), hcached⟩, hrefusing, hfree⟩, hleft, hrefusal⟩

/-- A Redis command on the way to the refusal. -/
theorem Refuses.goRedis {s : Stmt} {input : Input} {k : Except DbErr s.Reply → Call}
    (issues : before.next cfg (input.env w.ticks) = some ⟨s, k⟩) (hs : s.cached = true)
    (ha : before.aborts = false)
    (hcached : ∀ key ttl v user, s = .redisSetEx key ttl v → v = .user user → user.role ≠ "user")
    (hk : ∀ reply db', w.db.exec c input.fails s = some (db', reply) →
      (k reply).Refusing t ∧ (k reply).left < before.left ∧
        (k reply).refusal = before.refusal) :
    ∃ w' call, w.step cfg (.exec c input) = some w' ∧ w'.calls = w.calls.set c call ∧
      Refuses t c w' call ∧ call.left < before.left ∧ call.refusal = before.refusal := by
  have hfree := h.pending ha
  obtain ⟨db', reply, ran, hsame⟩ : ∃ db' reply, w.db.exec c input.fails s = some (db', reply) ∧
      ∀ u, (w.db.users u).pending = none → db'.users u = w.db.users u :=
    Db.exec_cached input.fails hs
  obtain ⟨hrefusing, hleft, hrefusal⟩ := hk reply db' ran
  have hrow := hsame t hfree
  refine h.go running issues ran (by rw [hrow]) ?_ hrefusing ?_ hleft hrefusal
  · intro user hu
    rcases Db.exec_redis ran (userCacheKey t) with he | ⟨_, _, he⟩ | ⟨_, _, rfl, he⟩
    · exact h.hides.cached user (he ▸ hu)
    · rw [he] at hu
      cases hu
    · rw [he] at hu
      cases hu
      exact hcached _ _ _ user rfl rfl
  · intro o v hp
    rw [hrow, hfree] at hp
    cases hp

/-- A SELECT of the row on the way to the refusal. -/
theorem Refuses.goSelect {input : Input} {k : Except DbErr (Option UserModel) → Call}
    (issues : before.next cfg (input.env w.ticks) = some ⟨.selectUserById t, k⟩)
    (hf : input.fails = false) (ha : before.aborts = false)
    (hk : ∀ found, (w.db.users t).committed = found → (k (.ok found)).Refusing t ∧
      (k (.ok found)).left < before.left ∧ (k (.ok found)).refusal = before.refusal) :
    ∃ w' call, w.step cfg (.exec c input) = some w' ∧ w'.calls = w.calls.set c call ∧
      Refuses t c w' call ∧ call.left < before.left ∧ call.refusal = before.refusal := by
  have hfree := h.pending ha
  have ran : w.db.exec c input.fails (.selectUserById t) =
      some (w.db, .ok ((w.db.users t).committed)) := by
    rw [hf, ← Versioned.view_free (t := c) hfree]
    rfl
  obtain ⟨hrefusing, hleft, hrefusal⟩ := hk _ rfl
  refine h.go running issues ran rfl h.hides.cached hrefusing (fun o v hp => ?_) hleft hrefusal
  rw [hfree] at hp
  cases hp

end

theorem Refuses.step (running : w.calls[c]? = some before) (hf : before.finished = false)
    (h : Refuses t c w before) : ∃ w' call,
      w.step cfg (.exec c (w.inputFor out before)) = some w' ∧ w'.calls = w.calls.set c call ∧
      Refuses t c w' call ∧ call.left < before.left ∧ call.refusal = before.refusal := by
  have hdb {call : Call} (hr : call.onRedis = false) : (w.inputFor out call).fails = false := by
    simp [inputFor, hr]
  cases before with
  | getUser q =>
    cases q with
    | get id role =>
      obtain ⟨rfl, rfl⟩ := h.refusing
      refine h.goRedis running rfl rfl rfl (fun _ _ _ _ hs => nomatch hs) ?_
      intro reply db' ran
      rcases reply with e | _ | x
      · exact ⟨⟨rfl, rfl⟩, by simp [Call.left], rfl⟩
      · exact ⟨⟨rfl, rfl⟩, by simp [Call.left], rfl⟩
      · cases x with
        | user user =>
          have hrole := h.hides.cached user (Db.exec_redisGet ran).symm
          refine ⟨?_, by simp [Call.left], rfl⟩
          simp [Call.Refusing, adminScope, hrole]
        | version | count | marker => exact ⟨⟨rfl, rfl⟩, by simp [Call.left], rfl⟩
    | marker id role =>
      obtain ⟨rfl, rfl⟩ := h.refusing
      refine h.goRedis running rfl rfl rfl (fun _ _ _ _ hs => nomatch hs) ?_
      intro reply db' ran
      rcases reply with e | found
      · exact ⟨⟨rfl, rfl⟩, by simp [Call.left], rfl⟩
      · cases found with
        | true => exact ⟨rfl, by simp [Call.left], rfl⟩
        | false => exact ⟨⟨rfl, rfl⟩, by simp [Call.left], rfl⟩
    | find id role =>
      obtain ⟨rfl, rfl⟩ := h.refusing
      refine h.goSelect running rfl (hdb rfl) rfl ?_
      intro found hm
      cases found with
      | none => exact ⟨rfl, by simp [Call.left], rfl⟩
      | some m => exact ⟨⟨rfl, rfl, h.hides.role hm⟩, by simp [Call.left], rfl⟩
    | set id role user =>
      obtain ⟨rfl, rfl, hrole⟩ := h.refusing
      refine h.goRedis running rfl rfl rfl ?_ ?_
      · intro _ _ _ _ hs hv
        cases hs
        cases hv
        exact hrole
      · intro reply db' ran
        refine ⟨?_, by simp [Call.left], rfl⟩
        simp [Call.Refusing, adminScope, hrole]
    | setNull id =>
      cases h.refusing
      refine h.goRedis running rfl rfl rfl (fun _ _ _ _ hs hv => ?_) fun reply db' ran =>
        ⟨rfl, by simp [Call.left], rfl⟩
      cases hs
      cases hv
    | done => cases hf
  | updateUser q =>
    cases q with
    | find id input role =>
      obtain ⟨rfl, rfl⟩ := h.refusing
      refine h.goSelect running rfl (hdb rfl) rfl ?_
      intro found hm
      cases found with
      | none => exact ⟨rfl, by simp [Call.left], rfl⟩
      | some m =>
        have hcheck : checkUpdate m input "admin" = .error .notFound := by
          simp [checkUpdate, h.hides.role hm]
        simp only [hcheck]
        exact ⟨rfl, by simp [Call.left], rfl⟩
    | done => cases hf
    | _ => exact h.refusing.elim
  | deleteUser q =>
    cases q with
    | find id role actor =>
      obtain ⟨rfl, rfl, hactor⟩ := h.refusing
      refine h.goSelect running rfl (hdb rfl) rfl ?_
      intro found hm
      cases found with
      | none => exact ⟨rfl, by simp [Call.left], rfl⟩
      | some m =>
        have hcheck : checkDelete id m "admin" actor = .error .notFound := by
          simp [checkDelete, h.hides.role hm, hactor.symm]
        simp only [hcheck]
        exact ⟨rfl, by simp [Call.left], rfl⟩
    | done => cases hf
    | _ => exact h.refusing.elim
  | modifyBalance q =>
    cases q with
    | lock id op role =>
      obtain ⟨rfl, rfl⟩ := h.refusing
      have hfree := h.pending rfl
      cases hm : (w.db.users id).committed with
      | none =>
        have ran : w.db.exec c (w.inputFor out (.modifyBalance (.lock id op "admin"))).fails
            (.selectUserForUpdate id) = some (w.db, .ok none) := by
          rw [hdb rfl]
          exact Db.exec_lock_absent hfree hm
        refine h.go running rfl ran rfl h.hides.cached rfl (fun o v hp => ?_)
          (by simp [Call.left]) rfl
        rw [hfree] at hp
        cases hp
      | some m =>
        have ran : w.db.exec c (w.inputFor out (.modifyBalance (.lock id op "admin"))).fails
            (.selectUserForUpdate id) = some (w.db.storeUser c .txn id m, .ok (some m)) := by
          rw [hdb rfl]
          exact Db.exec_lock hfree hm
        have hcheck : checkBalanceRbac m "admin" = .error .notFound := by
          simp [checkBalanceRbac, h.hides.role hm]
        refine h.go running rfl ran ?_ h.hides.cached ?_ (fun o v hp => ?_) ?_ ?_
        · simp [Db.storeUser, Db.setUser]
        all_goals simp only [hcheck]
        · exact rfl
        · simp only [Db.storeUser, Db.setUser, Function.update_self, Versioned.write_pending,
            Option.some.injEq, Prod.mk.injEq] at hp
          exact ⟨hp.1.symm, rfl⟩
        · simp [Call.left]
        · rfl
    | abort e =>
      cases h.refusing
      have ran : w.db.exec c (w.inputFor out (.modifyBalance (.abort .notFound))).fails .rollback =
          some (w.db.rollback c, .ok ()) := by
        rw [hdb rfl]
        rfl
      refine h.go running rfl ran Versioned.rollback_committed h.hides.cached rfl
        (fun o v hp => ?_) (by simp [Call.left]) rfl
      change ((w.db.users t).rollback c).pending = some (o, v) at hp
      cases hq : (w.db.users t).pending with
      | none =>
        rw [Versioned.rollback_free hq, hq] at hp
        cases hp
      | some q =>
        obtain ⟨rfl, _⟩ := h.free q.1 q.2 hq
        rw [Versioned.rollback_own hq] at hp
        cases hp
    | done => cases hf
    | _ => exact h.refusing.elim
  | _ => exact h.refusing.elim

/-- Every call of an admin on a hidden account is refused. -/
theorem refused_serve (hides : w.Hides t) (hfree : (w.db.users t).pending = none)
    (hactor : actor ≠ t) (hfuel : 4 ≤ fuel) (calls : List AdminCall) :
    ∃ w', serve cfg out fuel (calls.map (AdminCall.call t actor)) w = some w' ∧
      w'.calls = w.calls ++ (calls.map (AdminCall.call t actor)).map Call.refusal := by
  refine serve_of_steps (I := fun w => w.Hides t ∧ (w.db.users t).pending = none)
    (P := fun call => ∃ q, call = AdminCall.call t actor q) (R := Refuses t)
    (fun c w call keys h => h.expire keys) (fun c w before running hf h => h.step running hf)
    ?_ ?_ ?_ ⟨hides, hfree⟩
  · intro w call hI hP
    obtain ⟨q, rfl⟩ := hP
    have hstart (hr : (AdminCall.call t actor q).Refusing t) :
        Refuses t w.calls.length (w.join (AdminCall.call t actor q)) (AdminCall.call t actor q) :=
      ⟨⟨hI.1.row, hI.1.cached⟩, hr, fun o v hp => by cases hI.2.symm.trans hp⟩
    cases q with
    | getUserScoped => exact ⟨rfl, hstart ⟨rfl, rfl⟩, hfuel⟩
    | updateUser => exact ⟨rfl, hstart ⟨rfl, rfl⟩, Nat.le_trans (show 1 ≤ 4 by decide) hfuel⟩
    | deleteUser =>
      exact ⟨rfl, hstart ⟨rfl, rfl, hactor⟩, Nat.le_trans (show 1 ≤ 4 by decide) hfuel⟩
    | setBalance | adjustBalance =>
      exact ⟨rfl, hstart ⟨rfl, rfl⟩, Nat.le_trans (show 2 ≤ 4 by decide) hfuel⟩
  · intro c w call h hf
    exact ⟨⟨h.hides, h.pending (Call.aborts_finished hf)⟩, Call.eq_refusal h.refusing hf⟩
  · intro call hmem
    obtain ⟨q, _, rfl⟩ := List.mem_map.mp hmem
    exact ⟨q, rfl⟩

/-- The results of the calls of an admin on an account are the same in any two worlds that
hide it, and every call returns. -/
theorem hidden_accounts_alike {w₁ w₂ : World} {out₁ out₂ : Outside} (h₁ : w₁.Initial)
    (h₂ : w₂.Initial) (hides₁ : w₁.Hides t) (hides₂ : w₂.Hides t) (hactor : actor ≠ t)
    (hfuel : 4 ≤ fuel) (calls : List AdminCall) :
    ∃ w₁' w₂', serve cfg out₁ fuel (calls.map (AdminCall.call t actor)) w₁ = some w₁' ∧
      serve cfg out₂ fuel (calls.map (AdminCall.call t actor)) w₂ = some w₂' ∧
      w₁'.calls = w₂'.calls := by
  obtain ⟨w₁', hs₁, hc₁⟩ :
      ∃ w', serve cfg out₁ fuel (calls.map (AdminCall.call t actor)) w₁ = some w' ∧ w'.calls = _ :=
    refused_serve hides₁ (h₁.users t) hactor hfuel calls
  obtain ⟨w₂', hs₂, hc₂⟩ :
      ∃ w', serve cfg out₂ fuel (calls.map (AdminCall.call t actor)) w₂ = some w' ∧ w'.calls = _ :=
    refused_serve hides₂ (h₂.users t) hactor hfuel calls
  exact ⟨w₁', w₂', hs₁, hs₂, by rw [hc₁, hc₂, h₁.calls, h₂.calls]⟩

/-- An account of role admin, and a table without it. -/
def adminAccount : World := .ofRows [.registered 2 "root@example.com" "Passw0rd!" "admin"] [] 1

def noAccount : World := .ofRows [] [] 1

theorem hidden_accounts_alike_twice : ∃ w₁' w₂',
    serve .plain ⟨fun _ => {}, fun _ => []⟩ 4
      ([.getUserScoped, .getUserScoped, .setBalance (-1), .deleteUser].map
        (AdminCall.call 2 1)) adminAccount = some w₁' ∧
    serve .plain ⟨fun _ => {}, fun _ => []⟩ 4
      ([.getUserScoped, .getUserScoped, .setBalance (-1), .deleteUser].map
        (AdminCall.call 2 1)) noAccount = some w₂' ∧
    w₁'.calls = w₂'.calls :=
  hidden_accounts_alike
    (initial_ofRow UserModel.proper_registered)
    (initial_ofRows fun m hm => absurd hm List.not_mem_nil)
    ⟨fun m hm => by cases hm; exact Or.inl rfl, nofun⟩ ⟨fun m hm => (by cases hm), nofun⟩
    (by decide) (by decide) _

end World

end Webshelf
