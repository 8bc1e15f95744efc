import Mathlib.Data.List.Dedup
import Webshelf.Sessions.VersionCache
import Webshelf.Users.Protected

/-!
# The totals of a listing

`list_users` of `services/user.rs` counts the rows an actor sees and caches the
count under the actor's role. Creating and deleting drop the cached counts,
`update_user` drops none. As long as no `update_user` takes a row into the role
`user` or out of it while the count for admins is cached, every listing between
the calls has the right total.
-/

namespace Webshelf

structure PaginationParams where
  page : Nat
  perPage : Nat

structure PaginatedResponse where
  items : List UserResponse
  total : Nat
  page : Nat
  perPage : Nat
  totalPages : Nat

/-- The scope of an actor: an admin sees the rows of role `user`. -/
def actorSees (actorRole : String) (m : UserModel) : Bool :=
  actorRole != "admin" || m.role == "user"

theorem actorSees_of_ne {actorRole : String} (h : actorRole ≠ "admin") (m : UserModel) :
    actorSees actorRole m = true := by
  rw [actorSees, bne_iff_ne.mpr h, Bool.true_or]

namespace Db

/-- The rows of the users table that an actor sees. -/
def visible (db : Db) (actorRole : String) : List UserModel :=
  (db.ids.dedup.filterMap fun id => (db.users id).committed).filter (actorSees actorRole)

/-- `UserService::list_users`, with Redis working; either of its two queries may fail. -/
def listUsers (db : Db) (params : PaginationParams) (actorRole : String)
    (countFails pageFails : Bool) : Db × Except UserError PaginatedResponse :=
  let page := min (max params.page 1) 1000000
  let perPage := min (max params.perPage 1) 100
  let listed := (db.visible actorRole).mergeSort fun a b => decide (b.createdAt ≤ a.createdAt)
  let fetch (db : Db) (total : Nat) : Db × Except UserError PaginatedResponse :=
    if pageFails then (db, .error .internal)
    else (db, .ok {
      items := ((listed.drop (perPage * (page - 1))).take perPage).map UserResponse.ofModel
      total, page, perPage
      totalPages := (total + perPage - 1) / perPage })
  match db.redis (.userCount actorRole) with
  | some (.count count) => fetch db count
  | _ =>
    if countFails then (db, .error .internal)
    else
      let count := (db.visible actorRole).length
      let cached := Function.update db.redis (.userCount actorRole) (some (.count count))
      fetch { db with redis := cached } count

end Db

/-- A step of a service call, or a listing. -/
inductive ListLabel where
  | service (l : Label)
  | list (params : PaginationParams) (actorRole : String) (countFails pageFails : Bool)

/-- The keys that a call which creates or deletes an account has still to drop. -/
def Call.dropsCounts : Call → List CacheKey
  | createUser (.invalidate _ key rest) | deleteUser (.invalidate key rest) => key :: rest
  | _ => []

namespace World

def listStep (cfg : Settings) (w : World) : ListLabel → Option World
  | .service l => w.step cfg l
  | .list params actorRole countFails pageFails =>
    some { w with db := (w.db.listUsers params actorRole countFails pageFails).1 }

def countCached (w : World) (actorRole : String) : Bool :=
  match w.db.redis (.userCount actorRole) with
  | some (.count _) => true
  | _ => false

/-- Redis works. -/
def redisWorks (w : World) : ListLabel → Bool
  | .service (.exec c input) => (w.calls[c]?).all fun call => !(input.fails && call.onRedis)
  | _ => true

/-- No `update_user` takes a row into the role `user` or out of it while the count of the
listing for admins is cached. -/
def keepsMembers (w : World) : ListLabel → Bool
  | .service (.exec c input) => (w.calls[c]?).all fun call =>
      input.fails || (w.newRole call).all fun (u, role) => !w.countCached "admin" ||
        (w.db.users u).committed.all fun m => (m.role == "user") == (role == "user")
  | _ => true

/-- The cached count of an actor is that of the rows, or a call is about to drop it. -/
def CountsRows (w : World) (actorRole : String) : Prop :=
  ∀ n, w.db.redis (.userCount actorRole) = some (.count n) →
    n = (w.db.visible actorRole).length ∨
      ∃ (c : CallId) (call : Call), w.calls[c]? = some call ∧
        .userCount actorRole ∈ call.dropsCounts

/-- What holds between the cached counts and the rows in every state of a run. -/
structure Listed (w : World) : Prop where
  sound : w.Sound
  counted : ∀ actorRole ∈ ["admin", "user", "system"], w.CountsRows actorRole

end World

namespace Db

variable {db db' : Db} {actorRole : String}

theorem length_visible : (db.visible actorRole).length =
    db.ids.dedup.countP fun id => (db.users id).committed.any (actorSees actorRole) := by
  unfold visible
  induction db.ids.dedup with
  | nil => rfl
  | cons id ids ih =>
    rw [List.countP_cons, ← ih, List.filterMap_cons]
    cases (db.users id).committed with
    | none => simp
    | some m =>
      rw [List.filter_cons]
      by_cases hs : actorSees actorRole m = true <;> simp [hs]

/-- A count depends on who is there and which of them the actor sees. -/
theorem length_visible_congr (hids : db'.ids = db.ids)
    (hrows : ∀ id, (db'.users id).committed.any (actorSees actorRole) =
      (db.users id).committed.any (actorSees actorRole)) :
    (db'.visible actorRole).length = (db.visible actorRole).length := by
  rw [length_visible, length_visible, hids]
  exact List.countP_congr fun id _ => by rw [hrows id]

/-- A listing changes nothing but the cached count of its actor. -/
theorem listUsers_db (db : Db) (params : PaginationParams) (actorRole : String)
    (countFails pageFails : Bool) :
    (db.listUsers params actorRole countFails pageFails).1 = db ∨
      (db.listUsers params actorRole countFails pageFails).1 = { db with
        redis := Function.update db.redis (.userCount actorRole)
          (some (.count (db.visible actorRole).length)) } := by
  unfold listUsers
  dsimp only
  (repeat' split) <;> first | exact Or.inl rfl | exact Or.inr rfl

/-- The total of a listing is the cached count, or the number of rows it sees. -/
theorem listUsers_total {params : PaginationParams} {countFails pageFails : Bool}
    {resp : PaginatedResponse}
    (h : (db.listUsers params actorRole countFails pageFails).2 = .ok resp) :
    db.redis (.userCount actorRole) = some (.count resp.total) ∨
      resp.total = (db.visible actorRole).length := by
  unfold listUsers at h
  dsimp only at h
  split at h
  · rename_i count hc
    split at h
    · cases h
    · cases h
      exact Or.inl hc
  · split at h
    · cases h
    · split at h
      · cases h
      · cases h
        exact Or.inr rfl

end Db

namespace Call

variable {cfg : Settings} {env : Env} {before : Call} {s : Stmt}
  {k : Except DbErr s.Reply → Call} {reply : Except DbErr s.Reply} {key : CacheKey}

/-- What a call has to drop it drops now, or later. -/
theorem dropsCounts_step (issues : before.next cfg env = some ⟨s, k⟩)
    (hd : key ∈ before.dropsCounts) (reply : Except DbErr s.Reply) :
    (before.onRedis = true ∧ ∃ rest, s = .redisDel (key :: rest)) ∨
      key ∈ (k reply).dropsCounts := by
  cases before with
  | createUser q | deleteUser q =>
    cases q with
    | invalidate =>
      cases issues
      rcases List.mem_cons.mp hd with rfl | hrest
      · exact Or.inl ⟨rfl, _, rfl⟩
      · right
        dsimp only
        split
        · cases hrest
        · exact hrest
    | _ => cases hd
  | _ => cases hd

theorem dropsCounts_finished (h : before.finished = true) : before.dropsCounts = [] := by
  cases before with
  | createUser q | deleteUser q => cases q <;> first | rfl | cases h
  | _ => rfl

/-- A call that has inserted a row is going to drop the cached counts. -/
theorem dropsCounts_insert {m : UserModel} {k : Except DbErr UserModel → Call} {user : UserModel}
    (issues : before.next cfg env = some ⟨.insertUser m, k⟩) :
    (k (.ok user)).dropsCounts = [.userCount "admin", .userCount "user", .userCount "system"] := by
  obtain ⟨input, actorRole, role, rfl, hrole, rfl⟩ := next_insertUser issues
  simp only [next, Webshelf.createUser, hrole] at issues
  split at issues <;> cases issues
  rfl

/-- So is one that has deleted a row. -/
theorem dropsCounts_delete {u : UserId} {p : UserModel → Bool} {k : Except DbErr Nat → Call}
    {n : Nat} (issues : before.next cfg env = some ⟨.deleteUser u p, k⟩) (hn : n ≠ 0) :
    (k (.ok n)).dropsCounts = [userCacheKey u, tokenVersionKey u, .userCount "admin",
      .userCount "user", .userCount "system"] := by
  obtain ⟨role, rfl⟩ := next_deleteUser issues
  cases issues
  cases n with
  | zero => exact absurd rfl hn
  | succ n => rfl

end Call

namespace World

variable {cfg : Settings} {w₀ w w' : World} {l : ListLabel} {c : CallId} {before : Call} {s : Stmt}
  {input : Input} {k : Except DbErr s.Reply → Call} {reply : Except DbErr s.Reply} {db' : Db}
  {actorRole : String} {u : UserId}

section
variable (hw : w.Sound) (running : w.calls[c]? = some before)
  (issues : before.next cfg (input.env w.ticks) = some ⟨s, k⟩)
  (ran : w.db.exec c input.fails s = some (db', reply))
  (hkeep : w.keepsMembers (.service (.exec c input)) = true)
include hw running issues ran hkeep

/-- Where no row is inserted or deleted, an actor sees the rows it saw, or its count is the
one for admins and is not cached. -/
theorem sees_after (hids : db'.ids = w.db.ids) (hd : ∀ id p, s ≠ .deleteUser id p) (u : UserId) :
    (db'.users u).committed.any (actorSees actorRole) =
        (w.db.users u).committed.any (actorSees actorRole) ∨
      actorRole = "admin" ∧ w.countCached "admin" = false := by
  cases hm : (w.db.users u).committed with
  | none =>
    cases hm' : (db'.users u).committed with
    | none => exact Or.inl rfl
    | some m' =>
      obtain ⟨hnew, hin⟩ := Db.appeared ran hm (hw.not_pending hm) hm'
      exact absurd (hids ▸ hin) hnew
  | some m =>
    cases hm' : (db'.users u).committed with
    | none =>
      have hrow := hw.row_step running issues ran u
      rw [hm, hm'] at hrow
      cases hrow with
      | delete _ hdel =>
        subst hdel
        cases issues
        exact absurd rfl (hd _ _)
    | some m' =>
      by_cases hadmin : actorRole = "admin"
      · rcases role_moves hw running issues ran hm hm' with hrole | ⟨ok, hnew⟩
        · exact Or.inl (by simp [actorSees, hrole])
        · have hfails : input.fails = false := Db.applied_of_exec ran ok
          simp only [keepsMembers, running, Option.all_some, hfails, Bool.false_or, hnew, hm,
            Bool.or_eq_true, Bool.not_eq_true', beq_iff_eq] at hkeep
          rcases hkeep with hcold | hsame
          · exact Or.inr ⟨hadmin, hcold⟩
          · exact Or.inl (by simp [actorSees, hadmin, hsame])
      · exact Or.inl (by simp [actorSees_of_ne hadmin])

/-- A count changes only where the call is going to drop it, or where it is not cached. -/
theorem count_after (hrole : actorRole ∈ ["admin", "user", "system"]) :
    (db'.visible actorRole).length = (w.db.visible actorRole).length ∨
      .userCount actorRole ∈ (k reply).dropsCounts ∨
      actorRole = "admin" ∧ w.countCached "admin" = false := by
  have hstay (hids : db'.ids = w.db.ids) (hd : ∀ id p, s ≠ .deleteUser id p) :
      (db'.visible actorRole).length = (w.db.visible actorRole).length ∨
        actorRole = "admin" ∧ w.countCached "admin" = false := by
    by_cases hcold : actorRole = "admin" ∧ w.countCached "admin" = false
    · exact Or.inr hcold
    · left
      apply Db.length_visible_congr hids
      intro u
      exact (sees_after hw running issues ran hkeep hids hd u).resolve_right hcold
  rcases Db.exec_cases ran with ⟨e, rfl, rfl⟩ | ⟨reply, rfl, _, h⟩
  · left
    refine Db.length_visible_congr rfl ?_
    intro u
    exact congrArg _ Versioned.rollback_committed
  · by_cases hd : ∃ id p, s = .deleteUser id p
    · obtain ⟨id, p, rfl⟩ := hd
      rcases Db.deleteUser_ok h with ⟨rfl, rfl⟩ | ⟨_, _, _, _, hn, _⟩
      · exact Or.inl rfl
      · right
        left
        rw [Call.dropsCounts_delete issues (by rw [hn]; exact Nat.one_ne_zero)]
        exact List.mem_cons_of_mem _ (List.mem_cons_of_mem _ (by simpa using hrole))
    · rcases Db.exec_ids ran with hids | ⟨m, rfl, _⟩
      · have hother : ∀ id p, s ≠ .deleteUser id p := by
          intro id p he
          exact hd ⟨id, p, he⟩
        rcases hstay hids hother with h | h
        · exact Or.inl h
        · exact Or.inr (.inr h)
      · right
        left
        rw [Call.dropsCounts_insert issues]
        simpa using hrole

omit hw running hkeep in
/-- A cached count after the step was cached before it. -/
theorem cached_before {n : Nat} (h : db'.redis (.userCount actorRole) = some (.count n)) :
    w.db.redis (.userCount actorRole) = some (.count n) := by
  rcases Db.exec_redis ran (.userCount actorRole) with hsame | ⟨_, _, hnone⟩ | ⟨ttl, v, rfl, hset⟩
  · exact hsame ▸ h
  · cases hnone.symm.trans h
  · cases hset.symm.trans h
    rcases Call.next_redisSetEx issues with ⟨_, _, _, _, hkey, _⟩ | ⟨_, _, _, _, hkey, _⟩ |
      ⟨_, _, hkey, _⟩ <;> cases hkey

theorem CountsRows.exec (hup : w.redisWorks (.service (.exec c input)) = true)
    (hC : w.CountsRows actorRole) (hrole : actorRole ∈ ["admin", "user", "system"]) :
    (w.after c before (s.applied reply) (k reply) db').CountsRows actorRole := by
  intro n hn
  change db'.redis _ = _ at hn
  have hold := cached_before issues ran hn
  rcases hC n hold with hcount | ⟨o, call, hc, hd⟩
  · rcases count_after hw running issues ran hkeep hrole with hsame | hd | ⟨rfl, hcold⟩
    · exact Or.inl (hcount.trans hsame.symm)
    · exact Or.inr ⟨c, k reply, after_self running, hd⟩
    · simp [countCached, hold] at hcold
  · right
    by_cases ho : o = c
    · subst ho
      rw [running] at hc
      cases hc
      rcases Call.dropsCounts_step issues hd reply with ⟨hred, rest, rfl⟩ | hd
      · have hfails : input.fails = false := by
          simpa [redisWorks, running, hred] using hup
        rw [hfails] at ran
        cases (Db.exec_redisDel ran List.mem_cons_self).symm.trans hn
      · exact ⟨o, k reply, after_self running, hd⟩
    · exact ⟨o, call, by rw [after_other ho]; exact hc, hd⟩

end

theorem Listed.list (hL : w.Listed) (params : PaginationParams) (actorRole : String)
    (countFails pageFails : Bool) :
    Listed { w with db := (w.db.listUsers params actorRole countFails pageFails).1 } := by
  rcases w.db.listUsers_db params actorRole countFails pageFails with h | h <;> rw [h]
  · exact hL
  · obtain ⟨hw, hC⟩ := hL
    refine ⟨⟨hw.keyed, hw.listed, hw.working, hw.locked, hw.bumped, hw.known, hw.calls⟩, ?_⟩
    intro role hrole n hn
    by_cases he : role = actorRole
    · subst he
      left
      cases (Function.update_self ..).symm.trans hn
      rfl
    · exact hC role hrole n ((Function.update_of_ne (by simpa using he) ..).symm.trans hn)

theorem Listed.step (hL : w.Listed) (hup : w.redisWorks l = true)
    (hkeep : w.keepsMembers l = true) (h : w.listStep cfg l = some w') : w'.Listed := by
  cases l with
  | list params actorRole countFails pageFails =>
    cases h
    exact hL.list params actorRole countFails pageFails
  | service l =>
    have ht := step_transition h
    refine ⟨hL.sound.step ht, ?_⟩
    intro actorRole hrole
    have hC := hL.counted actorRole hrole
    cases ht with
    | exec running issues ran =>
      exact hC.exec hL.sound running issues ran hkeep hup hrole
    | expire =>
      intro n hn
      exact hC n (Db.redis_of_expire hn)
    | invoke =>
      intro n hn
      rcases hC n hn with h | ⟨c, call, hc, hd⟩
      · exact Or.inl h
      · exact Or.inr ⟨c, call, join_old hc, hd⟩

/-- When every call has returned, a listing for an admin or for the system account has the
number of rows that the actor sees as its total. -/
def TotalsRight (w : World) : Prop :=
  ∀ params actorRole countFails pageFails resp, actorRole = "admin" ∨ actorRole = "system" →
    (w.db.listUsers params actorRole countFails pageFails).2 = .ok resp →
    resp.total = (w.db.visible actorRole).length

/-- The totals are right in every run in which no `update_user` takes a row into the role
`user` or out of it while the count for admins is cached. -/
theorem list_totals (h0 : w₀.Initial)
    (hcached : ∀ actorRole n, w₀.db.redis (.userCount actorRole) = some (.count n) →
      n = (w₀.db.visible actorRole).length)
    (hr : Runs.Reaches (listStep cfg) (fun w l => w.redisWorks l = true ∧ w.keepsMembers l = true)
      w₀ w) (hdone : w.calls.all Call.finished = true) : w.TotalsRight := by
  have hL : w.Listed := by
    apply hr.invariant (I := Listed)
    · refine ⟨h0.sound, ?_⟩
      intro actorRole _ n hn
      exact Or.inl (hcached actorRole n hn)
    · rintro w l w' hL ⟨hup, hkeep⟩ hs
      exact hL.step hup hkeep hs
  intro params actorRole countFails pageFails resp hrole hresp
  rcases Db.listUsers_total hresp with hcached | htotal
  · have hin : actorRole ∈ ["admin", "user", "system"] := by
      rcases hrole with rfl | rfl <;> decide
    rcases hL.counted actorRole hin resp.total hcached with h | ⟨c, call, hc, hd⟩
    · exact h
    · have hfin := List.all_eq_true.mp hdone call (List.mem_of_getElem? hc)
      rw [Call.dropsCounts_finished hfin] at hd
      cases hd
  · exact htotal

/-- One operation after the other. -/
def inSequence (w : World) : ListLabel → Bool
  | .service l => w.oneByOne l
  | .list _ _ _ _ => w.calls.all Call.finished

def listForAdmin : ListLabel := .list ⟨1, 20⟩ "admin" false false

/-- An admin lists the accounts, deletes one and lists them again. -/
def listedAndDeleted : List ListLabel :=
  [listForAdmin, .service (.invoke (.deleteUser (.find 1 "admin" 7)))] ++
    List.replicate 7 (.service (.exec 0 {})) ++ [listForAdmin]

theorem list_totals_deleted :
    ((Runs.run (listStep .plain) (fun w l => w.redisWorks l = true ∧ w.keepsMembers l = true)
      account listedAndDeleted).get (by decide)).TotalsRight :=
  list_totals initial_account (fun _ _ h => by cases h) (Runs.reaches_run_get _) (by decide)

/-- After a listing for an admin the system account promotes the only user. -/
def promotedWhileCached : List ListLabel :=
  [listForAdmin, .service (.invoke (.updateUser (.find 1 ⟨none, none, some "admin"⟩ "system")))] ++
    List.replicate 7 (.service (.exec 0 {}))

theorem list_total_stale : ∃ w,
    Runs.Reaches (listStep .plain) (fun w l => w.redisWorks l = true ∧ w.inSequence l = true)
      account w ∧ w.calls.all Call.finished = true ∧ ¬ w.TotalsRight := by
  let w := (Runs.run (listStep .plain)
    (fun w l => w.redisWorks l = true ∧ w.inSequence l = true) account
    promotedWhileCached).get (by decide)
  refine ⟨w, Runs.reaches_run_get _, by decide, ?_⟩
  intro h
  have hcached : w.db.redis (.userCount "admin") = some (.count 1) := by decide
  have hnone : (w.db.visible "admin").length = 0 := by decide
  have hresp : ∃ resp, (w.db.listUsers ⟨1, 20⟩ "admin" false false).2 = .ok resp ∧
      resp.total = 1 := by
    unfold Db.listUsers
    rw [hcached]
    exact ⟨_, rfl, rfl⟩
  obtain ⟨resp, hok, htotal⟩ := hresp
  have hright := h _ _ _ _ resp (Or.inl rfl) hok
  omega

end World

end Webshelf
