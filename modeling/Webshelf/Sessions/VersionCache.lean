import Webshelf.Server.Sequential
import Webshelf.Users.Versions

/-!
# The cached token version

`check_token_version` trusts the Redis key `user:token_version:{id}`. Operations
that follow one another keep it coherent with the column as long as each that
bumps the version, or removes the row, invalidates the key afterwards, which
`reset_password` does not: the cached version must not be there when it commits.
-/

namespace Webshelf

/-- The user whose cached token version is among the keys. -/
def owed (keys : List CacheKey) : Option UserId :=
  keys.findSome? fun
    | .tokenVersion id => some id
    | _ => none

theorem owed_cons {key : CacheKey} {rest : List CacheKey} {u : UserId}
    (h : owed (key :: rest) = some u) : key = tokenVersionKey u ∨ owed rest = some u := by
  unfold owed at h
  rw [List.findSome?_cons] at h
  split at h
  · rename_i hk
    cases h
    left
    split at hk
    · cases hk
      rfl
    · cases hk
  · exact Or.inr h

namespace Call

/-- The user whose cached token version the call is going to invalidate. -/
def owes : Call → Option UserId
  | updateUser (.refetch id) | changePassword (.refetch id _)
  | revokeAll (.invalidate id) => some id
  | updateUser (.invalidate _ key rest) | changePassword (.invalidate _ _ key rest)
  | deleteUser (.invalidate key rest) => owed (key :: rest)
  | _ => none

/-- The user whose row the call is going to read back after its COMMIT. -/
def rereads : Call → Option UserId
  | updateUser (.refetch id) | changePassword (.refetch id _) => some id
  | _ => none

section
variable {cfg : Settings} {env : Env} {before : Call} {s : Stmt} {u : UserId}
  {k : Except DbErr s.Reply → Call} {reply : Except DbErr s.Reply}

theorem finished_idle (h : before.finished = true) :
    before.owes = none ∧ before.rereads = none := by
  cases before <;> rename_i q <;> cases q <;> first | exact ⟨rfl, rfl⟩ | cases h

theorem not_working_of_rereads {m v : UserModel} (hr : before.rereads = some u) :
    ¬ before.Working u m v := by
  cases before with
  | updateUser q | changePassword q =>
    cases q <;> cases hr
    exact fun h => h
  | _ => cases hr

theorem initial_idle (h : before.initial = true) :
    before.owes = none ∧ before.rereads = none := by
  cases before <;> rename_i q <;> cases q <;> first | exact ⟨rfl, rfl⟩ | cases h

/-- Only the two functions that read through the cache fill it. -/
theorem next_redisSetEx {key : CacheKey} {ttl : Int} {v : CacheValue}
    {k : Except DbErr Unit → Call}
    (issues : before.next cfg env = some ⟨.redisSetEx key ttl v, k⟩) :
    (∃ u v' current, before = checkTokenVersion (.set u v' current) ∧ key = tokenVersionKey u ∧
      v = .version current) ∨
    (∃ id actorRole user, before = getUser (.set id actorRole user) ∧ key = userCacheKey id ∧
      v = .user user) ∨
    ∃ id, before = getUser (.setNull id) ∧ key = .null (userCacheKey id) ∧ v = .marker := by
  cases before with
  | checkTokenVersion q =>
    cases q <;> cases issues
    exact Or.inl ⟨_, _, _, rfl, rfl, rfl⟩
  | getUser q =>
    cases q <;> cases issues
    · exact Or.inr (.inl ⟨_, _, _, rfl, rfl, rfl⟩)
    · exact Or.inr (.inr ⟨_, rfl, rfl, rfl⟩)
  | createUser q =>
    cases q with
    | insert => rcases insert_issues issues with h | ⟨_, _, h⟩ <;> cases h
    | invalidate | done => cases issues
  | requestReset q | resendCode q | sendVerification q | autoVerify q | verifyEmail q
  | resetPassword q | updateUser q | changePassword q | revokeAll q | login q | wxLogin q
  | rotate q | logout q | setOpenid q | deleteUser q | modifyBalance q => cases q <;> cases issues

/-- A call owes the invalidation until it has made it. -/
theorem owes_step (issues : before.next cfg env = some ⟨s, k⟩) (ho : before.owes = some u)
    (hn : (k reply).owes ≠ some u) :
    (before.onRedis = true ∧ ∃ keys, s = .redisDel keys ∧ tokenVersionKey u ∈ keys) ∨
      before.rereads = some u ∧ s = .selectUserById u ∧ s.got reply = none := by
  cases before with
  | updateUser q =>
    cases q with
    | refetch id =>
      cases issues
      cases ho
      rcases reply with e | _ | m
      · exact Or.inr ⟨rfl, rfl, rfl⟩
      · exact Or.inr ⟨rfl, rfl, rfl⟩
      · exact absurd rfl hn
    | invalidate _ key rest =>
      cases issues
      rcases owed_cons ho with rfl | hr
      · exact Or.inl ⟨rfl, _, rfl, List.mem_cons_self⟩
      · cases rest with
        | nil => cases hr
        | cons => exact absurd hr hn
    | find | bump | updateBumped | commit | update | abort | done => cases ho
  | changePassword q =>
    cases q with
    | refetch id =>
      cases issues
      cases ho
      rcases reply with e | _ | m
      · exact Or.inr ⟨rfl, rfl, rfl⟩
      · exact Or.inr ⟨rfl, rfl, rfl⟩
      · exact absurd rfl hn
    | invalidate _ _ key rest =>
      cases issues
      rcases owed_cons ho with rfl | hr
      · exact Or.inl ⟨rfl, _, rfl, List.mem_cons_self⟩
      · cases rest with
        | nil => cases hr
        | cons => exact absurd hr hn
    | find | bump | update | revoke | revoking | commit | abort | done => cases ho
  | revokeAll q =>
    cases q with
    | invalidate =>
      cases issues
      cases ho
      exact Or.inl ⟨rfl, _, rfl, List.mem_cons_self⟩
    | revoke | revoking | bump | commit | done => cases ho
  | deleteUser q =>
    cases q with
    | invalidate key rest =>
      cases issues
      rcases owed_cons ho with rfl | hr
      · exact Or.inl ⟨rfl, _, rfl, List.mem_cons_self⟩
      · cases rest with
        | nil => cases hr
        | cons => exact absurd hr hn
    | find | delete | done => cases ho
  | _ => cases ho

/-- A call that commits another version owes the invalidation, or is a reset. -/
theorem owes_commit {k : Except DbErr Unit → Call} {m v : UserModel}
    (issues : before.next cfg env = some ⟨.commit, k⟩) (work : before.Working u m v) :
    (k (.ok ())).owes = some u ∨ v.tokenVersion = m.tokenVersion ∨
      ∃ user h updated, before = resetPassword (.commit user h updated) ∧ user.id = u := by
  cases work.commits issues with
  | @resetPassword user updated h => exact Or.inr (.inr ⟨user, h, updated, rfl, rfl⟩)
  | modifyBalance => exact Or.inr (.inl rfl)
  | updateUser | changePassword | revokeAll =>
    cases issues
    exact Or.inl rfl

/-- A row is read back right after the COMMIT of the transaction that wrote it. -/
theorem rereads_step (issues : before.next cfg env = some ⟨s, k⟩)
    (hn : (k reply).rereads = some u) :
    s = .commit ∧ s.applied reply = true ∧ before.locks = some u := by
  cases before with
  | updateUser q =>
    cases q with
    | commit =>
      cases issues
      dsimp only at hn
      split at hn <;> cases hn
      exact ⟨rfl, rfl, rfl⟩
    | find | bump | updateBumped | refetch | update | abort | invalidate =>
      cases issues
      dsimp only at hn
      (repeat' split at hn) <;> cases hn
    | done => cases issues
  | changePassword q =>
    cases q with
    | commit =>
      cases issues
      dsimp only at hn
      split at hn <;> cases hn
      exact ⟨rfl, rfl, rfl⟩
    | find | bump | update | revoke | revoking | refetch | abort | invalidate =>
      cases issues
      dsimp only [deleted] at hn
      (repeat' split at hn) <;> cases hn
    | done => cases issues
  | requestReset q | resendCode q | sendVerification q | modifyBalance q | resetPassword q
  | autoVerify q | verifyEmail q | login q | wxLogin q | rotate q | revokeAll q | logout q
  | getUser q | setOpenid q | checkTokenVersion q | createUser q | deleteUser q =>
    obtain ⟨k', _, rfl⟩ := Next.map_some issues
    cases hn

end

end Call

namespace World

/-- The cached version of the user, if there is one, is the current one. -/
def Coherent (w : World) (u : UserId) : Prop :=
  ∀ x, w.db.redis (tokenVersionKey u) = some x →
    ∃ m, (w.db.users u).committed = some m ∧ x = .version m.tokenVersion

/-- A reset commits only while the version is not cached; reading the row back fails
only while it is not; and a check that has missed the cache fails to read the row only
if its version is not the current one. -/
def invalidates (w : World) : Label → Bool
  | .exec c input =>
    match w.calls[c]? with
    | some (.resetPassword (.commit user _ _)) =>
      input.fails || (w.db.redis (tokenVersionKey user.id)).isNone
    | some (.checkTokenVersion (.find u v)) =>
      !input.fails || decide (w.db.tokenVersion u ≠ some v)
    | some call => call.rereads.all fun u =>
      !input.fails || (w.db.redis (tokenVersionKey u)).isNone
    | none => true
  | _ => true

structure Cached (w : World) : Prop where
  serial : ∀ (c c' : CallId) (call call' : Call), w.calls[c]? = some call →
    w.calls[c']? = some call' → call.finished = false → call'.finished = false → c = c'
  coherent : ∀ u, (∀ (c : CallId) (call : Call), w.calls[c]? = some call → call.owes ≠ some u) →
    w.Coherent u
  looked : ∀ (c : CallId) u v current, w.calls[c]? = some (.checkTokenVersion (.set u v current)) →
    ∃ m, (w.db.users u).committed = some m ∧ m.tokenVersion = current
  present : ∀ (c : CallId) (call : Call) u, w.calls[c]? = some call → call.rereads = some u →
    (w.db.users u).committed ≠ none
  checked : ∀ t c u v ok current, (t, Event.versionChecked c u v ok current) ∈ w.trace →
    (ok = true ↔ current = some v)

variable {cfg : Settings} {w₀ w w' : World} {l : Label} {c c' : CallId} {before : Call} {s : Stmt}
  {input : Input} {applied : Bool} {k : Except DbErr s.Reply → Call}
  {reply : Except DbErr s.Reply} {db' : Db} {u : UserId}

section
variable (hw : w.Sound) (hC : w.Cached) (running : w.calls[c]? = some before)
  (issues : before.next cfg (input.env w.ticks) = some ⟨s, k⟩)
  (ran : w.db.exec c input.fails s = some (db', reply))
  (hone : w.oneByOne (.exec c input) = true) (hok : w.invalidates (.exec c input) = true)
include hw running issues ran

/-- The row is there when it is read back. -/
theorem Sound.reread (hr : (k reply).rereads = some u) : (db'.users u).committed ≠ none := by
  obtain ⟨rfl, ok, hl⟩ := Call.rereads_step issues hr
  rcases reply with e | _
  · cases ok
  · obtain ⟨_, v, _, _, hv⟩ := hw.committed running hl ran
    rw [hv]
    exact nofun

/-- Where the calls come one after the other, only the one that moves reads back. -/
theorem rereads_after (hS : w.Serial) {o : CallId} {call : Call} {applied : Bool}
    (hc : (w.after c before applied (k reply) db').calls[o]? = some call)
    (hr : call.rereads = some u) : (db'.users u).committed ≠ none := by
  by_cases ho : o = c
  · subst ho
    rw [after_self running] at hc
    cases hc
    exact hw.reread running issues ran hr
  · rw [after_other ho] at hc
    have hf := hS.others running issues ho hc
    rw [(Call.finished_idle hf).2] at hr
    cases hr

include hok in
/-- A row whose version is cached keeps it, unless its call goes on to invalidate the key. -/
theorem row_after {m : UserModel} {x : CacheValue} (hn : (k reply).owes ≠ some u)
    (hm : (w.db.users u).committed = some m) (hx : w.db.redis (tokenVersionKey u) = some x) :
    ∃ m', (db'.users u).committed = some m' ∧
      CacheValue.version m.tokenVersion = .version m'.tokenVersion := by
  have hr := hw.row_step running issues ran u
  rw [hm] at hr
  generalize ho : some m = o at hr
  generalize ho' : (db'.users u).committed = o' at hr ⊢
  cases hr with
  | same => exact ⟨m, ho.symm, rfl⟩
  | write _ update =>
    cases ho
    exact ⟨_, rfl, by rw [update.tokenVersion]⟩
  | @commit _ v k' ok issues' work =>
    cases ho
    cases issues.symm.trans issues'
    rcases reply with e | _
    · cases ok
    · rcases Call.owes_commit issues work with h | h | ⟨user, h, updated, rfl, rfl⟩
      · exact absurd h hn
      · exact ⟨v, rfl, by rw [h]⟩
      · simp only [invalidates, running, Db.applied_of_exec ran ok, Bool.false_or, hx,
          Option.isNone_some] at hok
        cases hok
  | insert => cases ho
  | delete ok delete =>
    subst delete
    cases issues
    have hs := Db.exec_user ran u
    rcases reply with e | n
    · cases ok
    · cases n with
      | zero =>
        generalize db'.users u = r' at hs ho'
        cases hs with
        | stay =>
          rw [hm] at ho'
          cases ho'
      | succ => exact absurd rfl hn

include hC hone hok in
theorem coherent_after
    (hu : ∀ (o : CallId) (call : Call),
      (w.after c before (s.applied reply) (k reply) db').calls[o]? = some call →
      call.owes ≠ some u) :
    (w.after c before (s.applied reply) (k reply) db').Coherent u := by
  have hn : (k reply).owes ≠ some u := hu c _ (after_self running)
  intro x hx
  change db'.redis _ = some x at hx
  by_cases hb : before.owes = some u
  · exfalso
    rcases Call.owes_step issues hb hn with ⟨hred, keys, rfl, hk⟩ | ⟨hre, rfl, hg⟩
    · -- the invalidation
      have hf : input.fails = false := by simpa [oneByOne, running, hred] using hone
      rw [hf] at ran
      rw [Db.exec_redisDel ran hk] at hx
      cases hx
    · -- the row could not be read back
      have hkeep : w.invalidates (.exec c input) =
          (!input.fails || (w.db.redis (tokenVersionKey u)).isNone) := by
        cases before with
        | updateUser q | changePassword q =>
          cases q <;> cases hre
          simp [invalidates, running, Call.rereads]
        | _ => cases hre
      rw [hkeep] at hok
      have hsame : db'.redis (tokenVersionKey u) = w.db.redis (tokenVersionKey u) := by
        rcases Db.exec_redis ran (tokenVersionKey u) with h | ⟨_, h, _⟩ | ⟨_, _, h, _⟩
        · exact h
        · cases h
        · cases h
      rcases reply with e | found
      · rw [Db.fails_of_selectUserById ran] at hok
        rw [hsame, Option.isNone_iff_eq_none.mp hok] at hx
        cases hx
      · cases hg
        obtain ⟨_, hv⟩ := Db.exec_selectUserById ran
        have hview := hw.view_eq (u := u) running fun _ _ => Call.not_working_of_rereads hre
        exact hC.present c before u running hre (hview.symm.trans hv.symm)
  · have hold : w.Coherent u := hC.coherent u fun o call hc => by
      by_cases ho : o = c
      · subst ho
        rw [running] at hc
        cases hc
        exact hb
      · rw [(Call.finished_idle (Serial.others hC.serial running issues ho hc)).1]
        exact nofun
    rcases Db.exec_redis ran (tokenVersionKey u) with hsame | ⟨_, _, hdel⟩ | ⟨_, _, rfl, hset⟩
    · rw [hsame] at hx
      obtain ⟨m, hm, rfl⟩ := hold x hx
      exact row_after hw running issues ran hok hn hm hx
    · rw [hdel] at hx
      cases hx
    · -- the check stores the version it has read
      obtain ⟨u', v', current, rfl, hkey, rfl⟩ | ⟨_, _, _, _, hkey, _⟩ | ⟨_, _, hkey, _⟩ :=
        Call.next_redisSetEx issues
      rotate_left
      · cases hkey
      · cases hkey
      cases hkey
      rw [hset] at hx
      cases hx
      obtain ⟨m, hm, rfl⟩ := hC.looked c u v' current running
      exact ⟨m, (hw.row_looked running issues ran rfl u).trans hm, rfl⟩

include hC hok in
/-- What a check returns is right at the moment it returns. -/
theorem checked_after {t : Nat} {v : Int} {ok : Bool} {current : Option Int}
    (hmem : (t, Event.versionChecked c' u v ok current) ∈
      (w.after c before (s.applied reply) (k reply) db').trace) : ok = true ↔ current = some v := by
  rcases mem_after.mp hmem with he | ⟨_, he⟩
  · exact hC.checked t c' u v ok current he
  obtain ⟨hk, rfl, rfl | rfl | ⟨read, rfl⟩⟩ := checked_of_observe he
  · -- the version is cached
    have hkeep : db'.tokenVersion u = w.db.tokenVersion u := by
      simp only [Db.tokenVersion, hw.row_looked running issues ran rfl]
    have hcoh : w.Coherent u := hC.coherent u fun o call hc => by
      by_cases ho : o = c
      · subst ho
        rw [running] at hc
        cases hc
        exact nofun
      · rw [(Call.finished_idle (Serial.others hC.serial running issues ho hc)).1]
        exact nofun
    rw [hkeep]
    cases issues
    rcases reply with e | _ | x
    · cases hk
    · cases hk
    · have hx : w.db.redis (tokenVersionKey u) = some x := (Db.exec_redisGet ran).symm
      obtain ⟨m, hm, rfl⟩ := hcoh x hx
      cases hk
      simp [Db.tokenVersion, hm]
  · -- the row could not be read, or is not there
    have hkeep : db'.tokenVersion u = w.db.tokenVersion u := by
      simp only [Db.tokenVersion, hw.row_looked running issues ran rfl]
    rw [hkeep]
    cases issues
    rcases reply with e | _ | m
    · cases hk
      have hv : w.db.tokenVersion u ≠ some v := by
        simpa [invalidates, running, Db.fails_of_selectUserById ran] using hok
      simp [hv]
    · cases hk
      obtain ⟨_, hview⟩ := Db.exec_selectUserById ran
      rw [hw.view_eq running fun _ _ h => h] at hview
      simp [Db.tokenVersion, ← hview]
    · cases hk
  · -- the version it has read
    obtain ⟨m, hm, rfl⟩ := hC.looked c u v read running
    have hm' := (hw.row_looked running issues ran rfl u).trans hm
    cases issues
    cases hk
    simp [Db.tokenVersion, hm']

include hC hone hok in
theorem Cached.exec : (w.after c before (s.applied reply) (k reply) db').Cached where
  serial := Serial.exec hC.serial running issues
  coherent u hu := coherent_after hw hC running issues ran hone hok hu
  looked o u v current hc := by
    by_cases ho : o = c
    · subst ho
      rw [after_self running] at hc
      have hk := Option.some.inj hc
      cases before with
      | checkTokenVersion q =>
        change ∃ m, (db'.users u).committed = some m ∧ _
        rw [hw.row_looked running issues ran rfl]
        cases q with
        | find id v' =>
          cases issues
          rcases reply with e | _ | m
          · cases hk
          · cases hk
          · cases hk
            obtain ⟨_, hview⟩ := Db.exec_selectUserById ran
            rw [hw.view_eq running fun _ _ h => h] at hview
            exact ⟨m, hview.symm, rfl⟩
        | get =>
          cases issues
          dsimp only at hk
          split at hk <;> cases hk
        | set =>
          cases issues
          cases hk
        | done => cases issues
      | requestReset q | resendCode q | sendVerification q | modifyBalance q | updateUser q
      | changePassword q | autoVerify q | verifyEmail q | resetPassword q | login q | wxLogin q
      | rotate q | revokeAll q | logout q | getUser q | setOpenid q | createUser q | deleteUser q =>
        obtain ⟨k', _, rfl⟩ := Next.map_some issues
        cases hk
    · rw [after_other ho] at hc
      cases Serial.others hC.serial running issues ho hc
  present _ _ _ hc hr := rereads_after hw running issues ran hC.serial hc hr
  checked t c' u v ok current he := checked_after hw hC running issues ran hok he

end

theorem Cached.step (hw : w.Sound) (hC : w.Cached) (hone : w.oneByOne l = true)
    (hok : w.invalidates l = true) (ht : Transition cfg w l w') : w'.Cached := by
  cases ht with
  | exec running issues ran => exact hC.exec hw running issues ran hone hok
  | @expire key =>
    exact ⟨hC.serial, fun u hu x hx => hC.coherent u hu x (Db.redis_of_expire hx), hC.looked,
      hC.present, hC.checked⟩
  | @invoke call start =>
    have hidle := Call.initial_idle start
    refine ⟨Serial.join hone, fun u hu => hC.coherent u ?_, ?_, ?_, hC.checked⟩
    · intro c call hc
      exact hu c call (join_old hc)
    · intro c u v current hc
      rcases join_calls hc with hc | rfl
      · exact hC.looked c u v current hc
      · cases start
    · intro c call₁ u hc hr
      rcases join_calls hc with hc | rfl
      · exact hC.present c call₁ u hc hr
      · rw [hidle.2] at hr
        cases hr

theorem Initial.cached (h0 : w.Initial) (hr : ∀ u, w.Coherent u) : w.Cached where
  serial c c' call call' hc := by rw [h0.calls] at hc; cases hc
  coherent u _ := hr u
  looked c u v current hc := by rw [h0.calls] at hc; cases hc
  present c call u hc := by rw [h0.calls] at hc; cases hc
  checked t c u v ok current he := by rw [h0.trace] at he; cases he

/-- Each check succeeded if and only if its version was the current one of a user in the table. -/
def ChecksExact (w : World) : Prop :=
  ∀ t c u v ok current, (t, Event.versionChecked c u v ok current) ∈ w.trace →
    (ok = true ↔ current = some v)

theorem version_checks_exact (h0 : w₀.Initial) (hr : ∀ u, w₀.Coherent u)
    (h : Runs.Reaches (World.step cfg)
      (fun w l => w.oneByOne l = true ∧ w.invalidates l = true) w₀ w) :
    w.ChecksExact := by
  have hI : w.Sound ∧ w.Cached :=
    h.invariant (I := fun w => w.Sound ∧ w.Cached) ⟨h0.sound, h0.cached hr⟩
      fun a l b ⟨hs, hC⟩ ⟨hone, hok⟩ hstep =>
        have ht := step_transition hstep
        ⟨hs.step ht, hC.step hs hone hok ht⟩
  exact hI.2.checked

/-! ## A check after a reset -/

/-- An account with a reset code. -/
def resetAsked : World :=
  .ofRows [{ UserModel.registered 1 "ada@example.com" "Passw0rd!" "user" with
    passwordReset := ⟨some (.hash 0 "111111"), some (minutes 10), some 0, 0⟩ }] [] 1

theorem initial_resetAsked : resetAsked.Initial :=
  initial_ofRow {
    balance := Int64.le_refl 0
    attempts := fun kind => by cases kind <;> exact Int.le_refl 0
    salts := fun kind h hh => by cases kind <;> cases hh; exact Nat.zero_lt_one }

def check (v : Int) : Label := .invoke (.checkTokenVersion (.get 1 v))

/-- The version is checked, the password is reset, and the old version is checked again;
`expired` says whether the cached version has run out by the time of the reset. -/
def checkAcrossReset (expired : Bool) : List Label :=
  [check 1, .exec 0 {}, .exec 0 {}, .exec 0 {}] ++
    (if expired then [.expire (tokenVersionKey 1)] else []) ++
    [.invoke (.resetPassword (.find "ada@example.com" "111111" "First-1st")), .exec 1 {},
      .exec 1 {}, .exec 1 {}, .exec 1 {}, .exec 1 {}, .exec 1 {}, check 1, .exec 2 {}] ++
    if expired then [.exec 2 {}, .exec 2 {}] else []

theorem version_checks_exact_expired :
    ((Runs.run (World.step .plain) (fun w l => w.oneByOne l = true ∧ w.invalidates l = true)
      resetAsked (checkAcrossReset true)).get (by decide)).ChecksExact :=
  version_checks_exact initial_resetAsked (fun _ => nofun) (Runs.reaches_run_get _)

theorem version_check_stale : ∃ w,
    Runs.Reaches (World.step .plain) (fun w l => w.oneByOne l = true) resetAsked w ∧
      ¬ w.ChecksExact := by
  let w := (Runs.run (World.step .plain) (fun w l => w.oneByOne l = true) resetAsked
    (checkAcrossReset false)).get (by decide)
  have hchecked : (13, Event.versionChecked 2 1 1 true (some 2)) ∈ w.trace := by decide
  exact ⟨w, Runs.reaches_run_get _, fun h => by
    have := (h 13 2 1 1 true (some 2) hchecked).mp rfl
    cases this⟩

end World

end Webshelf
