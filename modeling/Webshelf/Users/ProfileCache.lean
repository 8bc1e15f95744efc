import Webshelf.Sessions.VersionCache

/-!
# The cached profile

`get_user` answers from the Redis key `user:{id}`, or from its `:null` marker.
Operations that follow one another keep both coherent with the row as long as
each that changes the row invalidates the key afterwards. `reset_password`,
`verify_email`, `auto_verify` and `send_verification_email` do not, and
`create_user` leaves the marker of the new id alone.
-/

namespace Webshelf

/-- The user that `get_user` is asked for, and the role its answer is scoped to. -/
def GetUser.asks : GetUser → Option (UserId × Option String)
  | .get id role | .marker id role | .find id role | .set id role _ => some (id, role)
  | .setNull id => some (id, none)
  | .done _ => none

/-- What Redis keeps of a user. -/
inductive Facet where
  | profile
  | version
  deriving DecidableEq

def Facet.key : Facet → UserId → CacheKey
  | .profile, id => userCacheKey id
  | .version, id => tokenVersionKey id

/-- The column or columns of the row that are kept. -/
def Facet.ofModel : Facet → UserModel → CacheValue
  | .profile, m => .user (.ofModel m)
  | .version, m => .version m.tokenVersion

namespace Call

/-- The keys the call is still going to invalidate after its write. -/
def drops : Call → List CacheKey
  | updateUser (.refetch id) | changePassword (.refetch id _) =>
    [userCacheKey id, tokenVersionKey id]
  | updateUser (.invalidate _ key rest) | changePassword (.invalidate _ _ key rest)
  | createUser (.invalidate _ key rest) | deleteUser (.invalidate key rest) => key :: rest
  | revokeAll (.invalidate id) => [tokenVersionKey id]
  | modifyBalance (.invalidate id _) => [userCacheKey id]
  | _ => []

/-- The user whose profile the call changes with its next statement, for good: it does not
invalidate the key. -/
def unannounced : Call → Option UserId
  | resetPassword (.commit user _ _) | verifyEmail (.update user _ _) | autoVerify (.update user _)
  | sendVerification (.store user _ _ _ _) => some user.id
  | _ => none

/-- The call is about to insert a user. -/
def creates : Call → Bool
  | createUser (.insert _ _) => true
  | _ => false

/-- What the call has read of a row and is going to cache. -/
def fills : Call → Option (Facet × UserId × Option CacheValue)
  | getUser (.set id _ user) => some (.profile, id, some (.user user))
  | getUser (.setNull id) => some (.profile, id, none)
  | checkTokenVersion (.set id _ current) => some (.version, id, some (.version current))
  | _ => none

section
variable {cfg : Settings} {env : Env} {before : Call} {s : Stmt} {u : UserId} {key : CacheKey}
  {k : Except DbErr s.Reply → Call} {reply : Except DbErr s.Reply} {m m' : UserModel}

theorem drops_finished (h : before.finished = true) : before.drops = [] := by
  cases before <;> rename_i q <;> cases q <;> first | rfl | cases h

theorem fills_finished (h : before.finished = true) : before.fills = none := by
  cases before <;> rename_i q <;> cases q <;> first | rfl | cases h

theorem fills_initial (h : before.initial = true) : before.fills = none := by
  cases before <;> rename_i q <;> cases q <;> first | rfl | cases h

/-- A key is on the list until it has been invalidated. -/
theorem drops_step (issues : before.next cfg env = some ⟨s, k⟩) (hd : key ∈ before.drops)
    (hn : key ∉ (k reply).drops) :
    (before.onRedis = true ∧ s = Webshelf.invalidate key) ∨
      ∃ u, before.rereads = some u ∧ s = .selectUserById u ∧ s.got reply = none := by
  cases before with
  | createUser q =>
    cases q with
    | invalidate =>
      cases issues
      rename_i rest
      have hrest : key ∉ rest := by cases rest <;> exact hn
      cases (List.mem_cons.mp hd).resolve_right hrest
      exact Or.inl ⟨rfl, rfl⟩
    | insert | done => cases hd
  | updateUser q =>
    cases q with
    | refetch id =>
      cases issues
      rcases reply with e | _ | m
      · exact Or.inr ⟨id, rfl, rfl, rfl⟩
      · exact Or.inr ⟨id, rfl, rfl, rfl⟩
      · exact absurd hd hn
    | invalidate =>
      cases issues
      rename_i rest
      have hrest : key ∉ rest := by cases rest <;> exact hn
      cases (List.mem_cons.mp hd).resolve_right hrest
      exact Or.inl ⟨rfl, rfl⟩
    | find | bump | updateBumped | commit | update | abort | done => cases hd
  | changePassword q =>
    cases q with
    | refetch id =>
      cases issues
      rcases reply with e | _ | m
      · exact Or.inr ⟨id, rfl, rfl, rfl⟩
      · exact Or.inr ⟨id, rfl, rfl, rfl⟩
      · exact absurd hd hn
    | invalidate =>
      cases issues
      rename_i rest
      have hrest : key ∉ rest := by cases rest <;> exact hn
      cases (List.mem_cons.mp hd).resolve_right hrest
      exact Or.inl ⟨rfl, rfl⟩
    | find | bump | update | revoke | revoking | commit | abort | done => cases hd
  | deleteUser q =>
    cases q with
    | invalidate =>
      cases issues
      rename_i rest
      have hrest : key ∉ rest := by cases rest <;> exact hn
      cases (List.mem_cons.mp hd).resolve_right hrest
      exact Or.inl ⟨rfl, rfl⟩
    | find | delete | done => cases hd
  | revokeAll q =>
    cases q with
    | invalidate =>
      cases issues
      cases List.mem_singleton.mp hd
      exact Or.inl ⟨rfl, rfl⟩
    | revoke | revoking | bump | commit | done => cases hd
  | modifyBalance q =>
    cases q with
    | invalidate =>
      cases issues
      cases List.mem_singleton.mp hd
      exact Or.inl ⟨rfl, rfl⟩
    | lock | update | commit | abort | done => cases hd
  | requestReset q | resendCode q | sendVerification q | autoVerify q | verifyEmail q
  | resetPassword q | login q | wxLogin q | rotate q | logout q | getUser q | setOpenid q
  | checkTokenVersion q =>
    cases hd

theorem rereads_drops {v : UserId} {facet : Facet} (hr : before.rereads = some v)
    (hd : facet.key u ∈ before.drops) : v = u := by
  cases before with
  | updateUser q | changePassword q =>
    cases q <;> cases hr
    cases facet <;> simpa [drops, Facet.key, userCacheKey, tokenVersionKey, eq_comm] using hd
  | _ => cases hr

/-- A row that stays keeps its profile, unless its call goes on to invalidate the key or
never does. -/
theorem RowStep.profile (hr : RowStep cfg env u before (s.applied reply) (some m) (some m'))
    (issues : before.next cfg env = some ⟨s, k⟩) (hk : before.Keyed)
    (hd : userCacheKey u ∉ (k reply).drops) (hu : before.unannounced ≠ some u) :
    UserResponse.ofModel m' = .ofModel m := by
  cases hr with
  | same => rfl
  | write ok update =>
    cases update with
    | sendVerification | autoVerify | verifyEmail => exact absurd rfl hu
    | updateUser =>
      cases issues
      rcases reply with e | _ | m'
      · cases ok
      · cases ok
      · cases hk
        exact absurd List.mem_cons_self hd
    | requestReset | resendCode | claimVerification | claimReset | setOpenid => rfl
  | @commit _ _ k' ok issues' work =>
    cases issues.symm.trans issues'
    rcases reply with e | _
    · cases ok
    cases work.commits issues with
    | resetPassword => exact absurd rfl hu
    | updateUser | changePassword | modifyBalance =>
      cases issues
      exact absurd (by simp [Call.drops]) hd
    | revokeAll => rfl

end

end Call

namespace World

/-- The cached profile of the user, if there is one, is the current one. -/
def Shows (w : World) (u : UserId) : Prop :=
  ∀ x, w.db.redis (userCacheKey u) = some x →
    ∃ m, (w.db.users u).committed = some m ∧ x = .user (.ofModel m)

/-- There is no such user while the marker says so. -/
def Absent (w : World) (u : UserId) : Prop :=
  w.db.redis (.null (userCacheKey u)) ≠ none → (w.db.users u).committed = none

/-- The four writes that leave the key alone go through only while the profile is not
cached, reading the row back fails only while it is not, and no id is drawn whose absence
is cached. -/
def keepsProfile (w : World) : Label → Bool
  | .exec c input => (w.calls[c]?).all fun call =>
    call.unannounced.all (fun u => input.fails || (w.db.redis (userCacheKey u)).isNone) &&
    call.rereads.all (fun u => !input.fails || (w.db.redis (userCacheKey u)).isNone) &&
    (!call.creates || input.fails || (w.db.redis (.null (userCacheKey input.newId))).isNone)
  | _ => true

def profile (w : World) (u : UserId) : Option UserResponse :=
  (w.db.users u).committed.map .ofModel

/-- What a lookup would find in the row. -/
def view (w : World) (facet : Facet) (u : UserId) : Option CacheValue :=
  (w.db.users u).committed.map facet.ofModel

structure Profiled (w : World) : Prop where
  serial : w.Serial
  shows : ∀ u, (∀ (c : CallId) (call : Call), w.calls[c]? = some call →
    userCacheKey u ∉ call.drops) → w.Shows u
  absent : ∀ u, w.Absent u
  held : ∀ (c : CallId) (call : Call) facet u v, w.calls[c]? = some call →
    call.fills = some (facet, u, v) → v = w.view facet u
  present : ∀ (c : CallId) (call : Call) u, w.calls[c]? = some call → call.rereads = some u →
    (w.db.users u).committed ≠ none

variable {cfg : Settings} {w₀ w w' : World} {l : Label} {c c' : CallId} {before : Call} {s : Stmt}
  {input : Input} {applied : Bool} {k : Except DbErr s.Reply → Call}
  {reply : Except DbErr s.Reply} {db' : Db} {u : UserId}

section
variable (hw : w.Sound) (hC : w.Profiled) (running : w.calls[c]? = some before)
  (issues : before.next cfg (input.env w.ticks) = some ⟨s, k⟩)
  (ran : w.db.exec c input.fails s = some (db', reply))
  (hone : w.oneByOne (.exec c input) = true) (hok : w.keepsProfile (.exec c input) = true)
include hw running issues ran

include hok in
/-- A cached row keeps its profile, unless its call goes on to invalidate the key. -/
theorem profile_after {m : UserModel} {x : CacheValue} (hn : userCacheKey u ∉ (k reply).drops)
    (hm : (w.db.users u).committed = some m) (hx : w.db.redis (userCacheKey u) = some x) :
    ∃ m', (db'.users u).committed = some m' ∧ UserResponse.ofModel m' = .ofModel m := by
  have hr := hw.row_step running issues ran u
  rw [hm] at hr
  cases hm' : (db'.users u).committed with
  | some m' =>
    rw [hm'] at hr
    by_cases ha : s.applied reply = true
    · refine ⟨m', rfl, hr.profile issues (hw.calls c before running) hn ?_⟩
      intro hu
      simp [keepsProfile, running, hu, Db.applied_of_exec ran ha, hx] at hok
    · rw [Bool.not_eq_true] at ha
      rw [ha] at hr
      cases hr.eq_of_failed
      exact ⟨m, rfl, rfl⟩
  | none =>
    exfalso
    rw [hm'] at hr
    generalize ha : s.applied reply = applied at hr
    cases hr with
    | delete ok delete =>
      subst delete
      cases issues
      have hs := Db.exec_user ran u
      rcases reply with e | n
      · rw [ok] at ha
        cases ha
      · cases n with
        | zero =>
          generalize db'.users u = r' at hs hm'
          cases hs with
          | stay => rw [hm] at hm'; cases hm'
        | succ => exact hn List.mem_cons_self

include hC hone hok in
theorem shows_after
    (hu : ∀ (o : CallId) (call : Call),
      (w.after c before (s.applied reply) (k reply) db').calls[o]? = some call →
      userCacheKey u ∉ call.drops) :
    (w.after c before (s.applied reply) (k reply) db').Shows u := by
  have hn : userCacheKey u ∉ (k reply).drops := hu c _ (after_self running)
  intro x hx
  change db'.redis _ = some x at hx
  by_cases hb : userCacheKey u ∈ before.drops
  · exfalso
    rcases Call.drops_step issues hb hn with ⟨hred, rfl⟩ | ⟨v, hre, rfl, hg⟩
    · -- the invalidation
      have hf : input.fails = false := by simpa [oneByOne, running, hred] using hone
      rw [hf] at ran
      rw [Db.exec_redisDel ran List.mem_cons_self] at hx
      cases hx
    · -- the row could not be read back
      have hv : v = u := Call.rereads_drops hre (show Facet.profile.key u ∈ _ from hb)
      subst hv
      have hsame : db'.redis (userCacheKey v) = w.db.redis (userCacheKey v) := by
        rcases Db.exec_redis ran (userCacheKey v) with h | ⟨_, h, _⟩ | ⟨_, _, h, _⟩
        · exact h
        · cases h
        · cases h
      rcases reply with e | found
      · have hf := Db.fails_of_selectUserById ran
        rw [hsame] at hx
        simp [keepsProfile, running, hre, hf, hx] at hok
      · cases hg
        obtain ⟨_, hv⟩ := Db.exec_selectUserById ran
        have hview := hw.view_eq (u := v) running fun _ _ => Call.not_working_of_rereads hre
        exact hC.present c before v running hre (hview.symm.trans hv.symm)
  · have hold : w.Shows u := hC.shows u fun o call hc => by
      by_cases ho : o = c
      · subst ho
        rw [running] at hc
        cases hc
        exact hb
      · rw [Call.drops_finished (Serial.others hC.serial running issues ho hc)]
        exact List.not_mem_nil
    rcases Db.exec_redis ran (userCacheKey u) with hsame | ⟨_, _, hdel⟩ | ⟨_, _, rfl, hset⟩
    · rw [hsame] at hx
      obtain ⟨m, hm, rfl⟩ := hold x hx
      obtain ⟨m', hm', he⟩ := profile_after hw running issues ran hok hn hm hx
      exact ⟨m', hm', by rw [he]⟩
    · rw [hdel] at hx
      cases hx
    · -- the lookup stores the profile it has read
      obtain ⟨_, _, _, _, hkey, _⟩ | ⟨id, role, user, rfl, hkey, rfl⟩ | ⟨_, _, hkey, _⟩ :=
        Call.next_redisSetEx issues
      · cases hkey
      · cases hkey
        rw [hset] at hx
        cases hx
        have hp := hC.held c _ _ u _ running rfl
        obtain ⟨m, hm, he⟩ := Option.map_eq_some_iff.mp hp.symm
        cases he
        exact ⟨m, (hw.row_looked running issues ran rfl u).trans hm, rfl⟩
      · cases hkey

include hC hok in
theorem absent_after : (w.after c before (s.applied reply) (k reply) db').Absent u := by
  intro hx
  change db'.redis _ ≠ none at hx
  change (db'.users u).committed = none
  rcases Db.exec_redis ran (.null (userCacheKey u)) with hsame | ⟨_, _, hdel⟩ | ⟨_, _, rfl, _⟩
  · rw [hsame] at hx
    have hm := hC.absent u hx
    have hr := hw.row_step running issues ran u
    rw [hm] at hr
    generalize ho : (db'.users u).committed = o at hr ⊢
    generalize ha : s.applied reply = applied at hr
    cases hr with
    | same => rfl
    | insert ok hid create =>
      subst create
      exfalso
      rw [ok] at ha
      have hf := Db.applied_of_exec ran ha
      have hid' : input.newId = u := hid
      simp only [keepsProfile, running, Call.unannounced, Call.rereads, Call.creates, hf, hid',
        Option.all_some, Option.all_none, Bool.and_self, Bool.not_true, Bool.false_or,
        Bool.true_and, Option.isNone_iff_eq_none] at hok
      exact hx hok
  · rw [hdel] at hx
    exact absurd rfl hx
  · -- the lookup has found no row
    obtain ⟨_, _, _, _, hkey, _⟩ | ⟨_, _, _, _, hkey, _⟩ | ⟨id, rfl, hkey, rfl⟩ :=
      Call.next_redisSetEx issues
    · cases hkey
    · cases hkey
    · cases hkey
      have hp := hC.held c _ _ u _ running rfl
      have hm : (w.db.users u).committed = none := Option.map_eq_none_iff.mp hp.symm
      exact (hw.row_looked running issues ran rfl u).trans hm

/-- What a lookup is going to cache it has just read. -/
theorem fills_after {facet : Facet} {v : Option CacheValue}
    (hl : (k reply).fills = some (facet, u, v)) :
    v = (w.after c before applied (k reply) db').view facet u := by
  have hrow (h : before.looksUp = true) : (db'.users u).committed = (w.db.users u).committed :=
    hw.row_looked running issues ran h u
  change v = (db'.users u).committed.map facet.ofModel
  cases before with
  | getUser q =>
    rw [hrow rfl]
    cases q with
    | find id role =>
      cases issues
      rcases reply with e | _ | m
      · cases hl
      all_goals
        cases hl
        obtain ⟨_, hview⟩ := Db.exec_selectUserById ran
        rw [hw.view_eq running fun _ _ h => h] at hview
        rw [← hview]
        rfl
    | get | marker =>
      cases issues
      dsimp only at hl
      split at hl <;> cases hl
    | set | setNull =>
      cases issues
      cases hl
    | done => cases issues
  | checkTokenVersion q =>
    rw [hrow rfl]
    cases q with
    | find id v' =>
      cases issues
      rcases reply with e | _ | m
      · cases hl
      · cases hl
      · cases hl
        obtain ⟨_, hview⟩ := Db.exec_selectUserById ran
        rw [hw.view_eq running fun _ _ h => h] at hview
        rw [← hview]
        rfl
    | get =>
      cases issues
      dsimp only at hl
      split at hl <;> cases hl
    | set =>
      cases issues
      cases hl
    | done => cases issues
  | requestReset q | resendCode q | sendVerification q | modifyBalance q | updateUser q
  | changePassword q | autoVerify q | verifyEmail q | resetPassword q | login q | wxLogin q
  | rotate q | revokeAll q | logout q | setOpenid q | createUser q | deleteUser q =>
    obtain ⟨k', _, rfl⟩ := Next.map_some issues
    cases hl

include hC hone hok in
theorem Profiled.exec : (w.after c before (s.applied reply) (k reply) db').Profiled where
  serial := Serial.exec hC.serial running issues
  shows u hu := shows_after hw hC running issues ran hone hok hu
  absent u := absent_after hw hC running issues ran hok
  held o call facet u v hc hl := by
    by_cases ho : o = c
    · subst ho
      rw [after_self running] at hc
      cases hc
      exact fills_after hw running issues ran hl
    · rw [after_other ho] at hc
      rw [Call.fills_finished (Serial.others hC.serial running issues ho hc)] at hl
      cases hl
  present _ _ _ hc hr := rereads_after hw running issues ran hC.serial hc hr

end

theorem Profiled.step (hw : w.Sound) (hC : w.Profiled) (hone : w.oneByOne l = true)
    (hok : w.keepsProfile l = true) (ht : Transition cfg w l w') : w'.Profiled := by
  cases ht with
  | exec running issues ran => exact hC.exec hw running issues ran hone hok
  | @expire key =>
    refine ⟨hC.serial, fun u hu x hx => hC.shows u hu x (Db.redis_of_expire hx), fun u hx => ?_,
      hC.held, hC.present⟩
    obtain ⟨x, hx⟩ := Option.ne_none_iff_exists'.mp hx
    exact hC.absent u (Option.ne_none_iff_exists'.mpr ⟨x, Db.redis_of_expire hx⟩)
  | @invoke call start =>
    refine ⟨Serial.join hone, fun u hu => hC.shows u fun c call hc => hu c call (join_old hc),
      hC.absent, ?_, ?_⟩
    · intro c call₁ facet u v hc hl
      rcases join_calls hc with hc | rfl
      · exact hC.held c call₁ facet u v hc hl
      · rw [Call.fills_initial start] at hl
        cases hl
    · intro c call₁ u hc hr
      rcases join_calls hc with hc | rfl
      · exact hC.present c call₁ u hc hr
      · rw [(Call.initial_idle start).2] at hr
        cases hr

theorem Initial.profiled (h0 : w.Initial) (hs : ∀ u, w.Shows u) (ha : ∀ u, w.Absent u) :
    w.Profiled where
  serial := h0.serial
  shows u _ := hs u
  absent := ha
  held c call facet u v hc := by rw [h0.calls] at hc; cases hc
  present c call u hc := by rw [h0.calls] at hc; cases hc

/-- A lookup that returns in this step returns the profile of the row as it is, in the scope
it was asked for; it fails only if its SELECT does. -/
def ReadsRow (w : World) : Label → World → Prop
  | .exec c input, w' => ∀ q u role r, w.calls[c]? = some (.getUser q) →
      q.asks = some (u, role) → w'.calls[c]? = some (.getUser (.done r)) →
      input.fails = true ∨ r = .ok ((w'.profile u).bind (adminScope role))
  | _, _ => True

theorem Profiled.readsRow (hw : w.Sound) (hC : w.Profiled) (hone : w.oneByOne l = true)
    (ht : Transition cfg w l w') : w.ReadsRow l w' := by
  cases ht with
  | @exec c input before s k db' reply running issues ran =>
    intro q u role r hq ha hr
    rw [running] at hq
    cases hq
    rw [after_self running] at hr
    simp only [profile, after, hw.row_looked running issues ran rfl u]
    change _ ∨ r = .ok ((w.profile u).bind (adminScope role))
    have hshow : w.Shows u := hC.shows u fun o call hc => by
      by_cases ho : o = c
      · subst ho
        rw [running] at hc
        cases hc
        exact List.not_mem_nil
      · rw [Call.drops_finished (Serial.others hC.serial running issues ho hc)]
        exact List.not_mem_nil
    have hk := Option.some.inj hr
    cases q with
    | get id role =>
      cases ha
      cases issues
      dsimp only at hk
      split at hk
      · rename_i user
        cases hk
        have hx : w.db.redis (userCacheKey u) = some (.user user) := (Db.exec_redisGet ran).symm
        obtain ⟨m, hm, hu⟩ := hshow _ hx
        cases hu
        simp [profile, hm]
      · cases hk
    | marker id role =>
      cases ha
      cases issues
      dsimp only at hk
      split at hk
      · cases hk
        have hx := Db.exec_redisExists ran
        have hm := hC.absent u (Option.isSome_iff_ne_none.mp hx.symm)
        simp [profile, hm]
      · cases hk
    | find id role =>
      cases issues
      rcases reply with e | _ | m
      · exact Or.inl (Db.fails_of_selectUserById ran)
      · cases hk
      · cases hk
    | set id role user =>
      cases ha
      cases issues
      cases hk
      have hp := hC.held c _ _ u _ running rfl
      obtain ⟨m, hm, he⟩ := Option.map_eq_some_iff.mp hp.symm
      cases he
      simp [profile, hm]
    | setNull id =>
      cases ha
      cases issues
      cases hk
      have hp := hC.held c _ _ u _ running rfl
      have hm : (w.db.users u).committed = none := Option.map_eq_none_iff.mp hp.symm
      simp [profile, hm]
    | done => cases issues
  | expire | invoke => trivial

/-- In every run whose steps meet `ok`, each lookup returns the row as it is. -/
def ReadsExact (cfg : Settings) (ok : World → Label → Prop) (w₀ : World) : Prop :=
  ∀ w l w', Runs.Reaches (World.step cfg) ok w₀ w → ok w l → w.step cfg l = some w' →
    w.ReadsRow l w'

theorem profile_reads_exact (h0 : w₀.Initial) (hs : ∀ u, w₀.Shows u) (ha : ∀ u, w₀.Absent u) :
    w₀.ReadsExact cfg fun w l => w.oneByOne l = true ∧ w.keepsProfile l = true := by
  intro w l w' h ⟨hone, _⟩ hstep
  have hI : w.Sound ∧ w.Profiled :=
    h.invariant (I := fun w => w.Sound ∧ w.Profiled) ⟨h0.sound, h0.profiled hs ha⟩
      fun a l b ⟨hs, hC⟩ ⟨hone, hok⟩ hstep =>
        have ht := step_transition hstep
        ⟨hs.step ht, hC.step hs hone hok ht⟩
  exact hI.2.readsRow hI.1 hone (step_transition hstep)

/-! ## A lookup after a verification -/

/-- An account with a verification code. -/
def codeAwaited : World :=
  .ofRows [{ UserModel.registered 1 "ada@example.com" "Passw0rd!" "user" with
    emailVerified := false
    verification := ⟨some (.hash 0 "222222"), some (minutes 10), some 0, 0⟩ }] [] 1

theorem initial_codeAwaited : codeAwaited.Initial :=
  initial_ofRow {
    balance := Int64.le_refl 0
    attempts := fun kind => by cases kind <;> exact Int.le_refl 0
    salts := fun kind h hh => by cases kind <;> cases hh; exact Nat.zero_lt_one }

def lookup : Label := .invoke (.getUser (.get 1 none))

/-- The profile is looked up, the address is verified, and the profile is looked up again, up
to the last step; `expired` says whether the cached profile has run out by the time of the
verification. -/
def lookupAcrossVerification (expired : Bool) : List Label :=
  [lookup, .exec 0 {}, .exec 0 {}, .exec 0 {}, .exec 0 {}] ++
    (if expired then [.expire (userCacheKey 1)] else []) ++
    [.invoke (.verifyEmail (.find "ada@example.com" "222222")), .exec 1 {}, .exec 1 {},
      .exec 1 {}, lookup] ++
    if expired then [.exec 2 {}, .exec 2 {}, .exec 2 {}] else []

theorem profile_reads_exact_expired :
    let w := (Runs.run (World.step .plain)
      (fun w l => w.oneByOne l = true ∧ w.keepsProfile l = true)
      codeAwaited (lookupAcrossVerification true)).get (by decide)
    w.ReadsRow (.exec 2 {}) ((w.step .plain (.exec 2 {})).get (by decide)) :=
  profile_reads_exact initial_codeAwaited (fun _ => nofun) (fun _ h => absurd rfl h) _ _ _
    (Runs.reaches_run_get _) (by decide) (Option.some_get _).symm

theorem profile_read_stale :
    ¬ codeAwaited.ReadsExact .plain fun w l => w.oneByOne l = true := by
  intro h
  let w := (Runs.run (World.step .plain) (fun w l => w.oneByOne l = true) codeAwaited
    (lookupAcrossVerification false)).get (by decide)
  let w' := (w.step .plain (.exec 2 {})).get (by decide)
  have hread := h w (.exec 2 {}) w' (Runs.reaches_run_get _) (by decide) (Option.some_get _).symm
  let unverified : UserResponse := ⟨1, "ada@example.com", "Ada", "user", false, 0, 0, 0⟩
  rcases hread (.get 1 none) 1 none (.ok (some unverified)) (by decide) rfl (by decide) with hf | he
  · cases hf
  · exact absurd he (by decide)

end World

end Webshelf
