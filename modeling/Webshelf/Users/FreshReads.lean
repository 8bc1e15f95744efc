import Webshelf.Server.History
import Webshelf.Users.ProfileCache

/-!
# Reads after a write

Lookups run beside the writes that drop their keys: one that has read the row
before a write committed may cache it after the write has dropped the key. If
none does, a lookup that is made once the write has returned answers from the
row as it was at some moment since the write.
-/

namespace Webshelf

open Runs (Watched)

/-- The entry of a user that a key holds. -/
def CacheKey.facet : CacheKey → Option (Facet × UserId)
  | .user id => some (.profile, id)
  | .tokenVersion id => some (.version, id)
  | _ => none

namespace Call

/-- `update_user`, `change_password`, `delete_user`, `set_balance` or `adjust_balance`. -/
def rewrites : Call → Bool
  | updateUser _ | changePassword _ | deleteUser _ | modifyBalance _ => true
  | _ => false

/-- The key that the call drops with its next statement. -/
def clearsKey : Call → Option CacheKey
  | updateUser (.invalidate _ key _) | changePassword (.invalidate _ _ key _)
  | deleteUser (.invalidate key _) => some key
  | modifyBalance (.invalidate id _) => some (userCacheKey id)
  | _ => none

/-- The user whose row the call changes with its next statement without going on to drop
the token version. -/
def spares : Call → Option UserId
  | updateUser (.update id _ _ _) | modifyBalance (.commit id _ _) => some id
  | _ => none

theorem clearsKey_of_invalidate {cfg : Settings} {env : Env} {before : Call} {key : CacheKey}
    {k : Except DbErr Unit → Call}
    (issues : before.next cfg env = some ⟨Webshelf.invalidate key, k⟩)
    (hm : before.rewrites = true) : before.clearsKey = some key := by
  cases before with
  | updateUser q | changePassword q | deleteUser q | modifyBalance q =>
    cases q <;> cases issues
    rfl
  | _ => cases hm

theorem rewrites_step {cfg : Settings} {env : Env} {before : Call} {s : Stmt}
    {k : Except DbErr s.Reply → Call} {reply : Except DbErr s.Reply}
    (issues : before.next cfg env = some ⟨s, k⟩) (hm : (k reply).rewrites = true) :
    before.rewrites = true := by
  cases before with
  | updateUser | changePassword | deleteUser | modifyBalance => rfl
  | _ =>
    obtain ⟨k', _, rfl⟩ := Next.map_some issues
    cases hm

end Call

def CheckTokenVersion.asks : CheckTokenVersion → Option (UserId × Int)
  | .get id v | .find id v | .set id v _ => some (id, v)
  | .done _ => none

namespace World

/-- Call `d` has changed the committed row of the user. -/
def wrote (w : World) (d : CallId) (u : UserId) : Bool :=
  w.trace.any fun (_, e) => e == .changed d u

/-- What a lookup that starts now may find in Redis. -/
def cached (w : World) : Facet → UserId → List (Option CacheValue)
  | .profile, u => (w.db.redis (userCacheKey u)).toList.map some ++
      (w.db.redis (.null (userCacheKey u))).toList.map fun _ => none
  | .version, u => (w.db.redis (tokenVersionKey u)).toList.map some

/-- What the lookups under way are going to cache. -/
def held (w : World) (facet : Facet) (u : UserId) : List (Option CacheValue) :=
  (w.calls.filterMap Call.fills).filterMap fun (facet', u', v) =>
    if facet' = facet ∧ u' = u then some v else none

/-- The row has looked so at some moment since `d` changed it. -/
def fresh (f : Watched World) (d : CallId) (u : UserId) (facet : Facet)
    (v : Option CacheValue) : Bool :=
  f.states.any fun a => a.wrote d u && a.view facet u == v

/-- Redis works. -/
def redisUp (f : Watched World) : Label → Bool
  | .exec c input => (f.now.calls[c]?).all fun call => !(input.fails && call.onRedis)
  | _ => true

/-- When one of the five writes drops a key, no lookup under it still holds what the row was
before the write; one that cannot read the row back drops nothing, and must not leave such a
value in Redis either; and one that does not drop the token version must find the current one
wherever it is cached or held. -/
def settles (f : Watched World) : Label → Bool
  | .exec c input => (f.now.calls[c]?).all fun call => !call.rewrites ||
    ((call.clearsKey.bind CacheKey.facet).all (fun (facet, u) => !f.now.wrote c u ||
      (f.now.held facet u).all (fresh f c u facet)) &&
    call.rereads.all (fun u => (!input.fails && (f.now.db.users u).committed.isSome) ||
      !f.now.wrote c u || [Facet.profile, .version].all fun facet =>
        (f.now.cached facet u ++ f.now.held facet u).all (fresh f c u facet)) &&
    call.spares.all (fun u => input.fails ||
      (f.now.cached .version u ++ f.now.held .version u).all (· == f.now.view .version u)))
  | _ => true

/-- A lookup that returns in this step, and was made when `d` had returned, answers from the
row at some moment since `d` changed it; it fails only if its SELECT does. -/
def FreshRead (f : Watched World) : Label → Watched World → Prop
  | .exec c input, f' => ∀ (d : CallId) write u before, before ∈ f.states →
      before.calls[d]? = some write → write.rewrites = true → write.finished = true →
      before.wrote d u = true → before.calls.length ≤ c →
      (∀ q role r, f.now.calls[c]? = some (.getUser q) → q.asks = some (u, role) →
        f'.now.calls[c]? = some (.getUser (.done r)) → input.fails = true ∨
          ∃ a ∈ f.states, a.wrote d u = true ∧ r = .ok ((a.profile u).bind (adminScope role))) ∧
      (∀ q v ok, f.now.calls[c]? = some (.checkTokenVersion q) → q.asks = some (u, v) →
        f'.now.calls[c]? = some (.checkTokenVersion (.done ok)) → input.fails = true ∨
          ∃ a ∈ f.states, a.wrote d u = true ∧ (ok = true ↔ a.db.tokenVersion u = some v))
  | _, _ => True

def NoStaleRead (cfg : Settings) (ok : Watched World → Label → Prop) (w₀ : World) : Prop :=
  ∀ f l f', Runs.Reaches (Watched.next (World.step cfg)) ok ⟨w₀, []⟩ f → ok f l →
    Watched.next (World.step cfg) f l = some f' → FreshRead f l f'

variable {cfg : Settings} {w₀ w w' a : World} {f f' : Watched World} {l : Label} {c d : CallId}
  {before call : Call} {s : Stmt} {input : Input} {applied : Bool}
  {k : Except DbErr s.Reply → Call} {reply : Except DbErr s.Reply} {db' : Db} {u : UserId}
  {facet : Facet} {v : Option CacheValue}

theorem mem_held : v ∈ w.held facet u ↔
    ∃ (c : CallId) (call : Call), w.calls[c]? = some call ∧ call.fills = some (facet, u, v) := by
  simp only [held, List.mem_filterMap, Option.ite_none_right_eq_some, Option.some.injEq,
    Prod.exists]
  constructor
  · rintro ⟨_, _, _, ⟨call, hc, hf⟩, ⟨rfl, rfl⟩, rfl⟩
    obtain ⟨c, hc⟩ := List.getElem?_of_mem hc
    exact ⟨c, call, hc, hf⟩
  · rintro ⟨c, call, hc, hf⟩
    exact ⟨_, _, _, ⟨call, List.mem_of_getElem? hc, hf⟩, ⟨rfl, rfl⟩, rfl⟩

theorem mem_cached : v ∈ w.cached facet u ↔
    (∃ x, w.db.redis (facet.key u) = some x ∧ v = some x) ∨
      facet = .profile ∧ w.db.redis (.null (userCacheKey u)) ≠ none ∧ v = none := by
  cases facet with
  | profile =>
    cases hn : w.db.redis (.null (userCacheKey u)) <;> simp [cached, Facet.key, hn, eq_comm]
  | version => simp [cached, Facet.key, eq_comm]

theorem wrote_iff : w.wrote d u = true ↔ ∃ t, (t, Event.changed d u) ∈ w.trace := by
  simp only [wrote, List.any_eq_true, Prod.exists, beq_iff_eq]
  constructor
  · rintro ⟨t, _, he, rfl⟩
    exact ⟨t, he⟩
  · rintro ⟨t, he⟩
    exact ⟨t, _, he, rfl⟩

theorem fresh_iff : fresh f d u facet v = true ↔
    ∃ a ∈ f.states, a.wrote d u = true ∧ a.view facet u = v := by
  simp [fresh]

/-- Every step keeps what has returned and what has been recorded. -/
def LeadsTo (a w : World) : Prop :=
  (∀ (c : CallId) (call : Call), a.calls[c]? = some call → call.finished = true →
    w.calls[c]? = some call) ∧ ∀ e ∈ a.trace, e ∈ w.trace

theorem LeadsTo.step (h : a.LeadsTo w) (ht : Transition cfg w l w') : a.LeadsTo w' := by
  cases ht with
  | invoke => exact ⟨fun c call hc hf => join_old (h.1 c call hc hf), h.2⟩
  | expire => exact h
  | @exec c input before s k db' reply running issues ran =>
    refine ⟨fun o call hc hf => ?_, fun e he => List.mem_append_left _ (h.2 e he)⟩
    have hcall := h.1 o call hc hf
    by_cases ho : o = c
    · subst ho
      rw [running] at hcall
      cases hcall
      rw [Call.running_of_issues issues] at hf
      cases hf
    · rw [after_other ho]
      exact hcall

theorem LeadsTo.wrote (h : a.LeadsTo w) (hd : a.wrote d u = true) : w.wrote d u = true := by
  obtain ⟨t, ht⟩ := wrote_iff.mp hd
  exact wrote_iff.mpr ⟨t, h.2 _ ht⟩

section
variable (hw : w.Sound) (running : w.calls[c]? = some before)
  (issues : before.next cfg (input.env w.ticks) = some ⟨s, k⟩)
  (ran : w.db.exec c input.fails s = some (db', reply))
include hw running issues ran

/-- What is held after a step was held before, or has just been read. -/
theorem held_after (hv : v ∈ (w.after c before applied (k reply) db').held facet u) :
    v ∈ w.held facet u ∨ v = (w.after c before applied (k reply) db').view facet u := by
  obtain ⟨o, call, hc, hf⟩ := mem_held.mp hv
  by_cases ho : o = c
  · subst ho
    rw [after_self running] at hc
    cases hc
    exact Or.inr (fills_after hw running issues ran hf)
  · rw [after_other ho] at hc
    exact Or.inl (mem_held.mpr ⟨o, call, hc, hf⟩)

omit hw in
/-- What is cached after a step was cached before, or has just been stored by a lookup. -/
theorem cached_after (hv : v ∈ (w.after c before applied (k reply) db').cached facet u) :
    v ∈ w.cached facet u ++ w.held facet u := by
  have hnew {key : CacheKey} {x : CacheValue} (hx : db'.redis key = some x) :
      w.db.redis key = some x ∨ ∃ ttl, s = .redisSetEx key ttl x := by
    rcases Db.exec_redis ran key with h | ⟨_, _, h⟩ | ⟨ttl, y, hs, h⟩
    · exact Or.inl (h ▸ hx)
    · rw [h] at hx
      cases hx
    · rw [h] at hx
      cases hx
      exact Or.inr ⟨ttl, hs⟩
  rw [List.mem_append]
  rcases mem_cached.mp hv with ⟨x, hx, rfl⟩ | ⟨rfl, hx, rfl⟩
  · rcases hnew hx with hx | ⟨ttl, rfl⟩
    · exact Or.inl (mem_cached.mpr (.inl ⟨x, hx, rfl⟩))
    · right
      obtain ⟨_, _, _, rfl, hkey, rfl⟩ | ⟨_, _, _, rfl, hkey, rfl⟩ | ⟨_, rfl, hkey, rfl⟩ :=
        Call.next_redisSetEx issues
      · cases facet <;> cases hkey
        exact mem_held.mpr ⟨c, _, running, rfl⟩
      · cases facet <;> cases hkey
        exact mem_held.mpr ⟨c, _, running, rfl⟩
      · cases facet <;> cases hkey
  · obtain ⟨x, hx⟩ := Option.ne_none_iff_exists'.mp hx
    rcases hnew hx with hx | ⟨ttl, rfl⟩
    · exact Or.inl (mem_cached.mpr (.inr ⟨rfl, by rw [hx]; exact nofun, rfl⟩))
    · right
      obtain ⟨_, _, _, rfl, hkey, rfl⟩ | ⟨_, _, _, rfl, hkey, rfl⟩ | ⟨_, rfl, hkey, rfl⟩ :=
        Call.next_redisSetEx issues
      · cases hkey
      · cases hkey
      · cases hkey
        exact mem_held.mpr ⟨c, _, running, rfl⟩

/-- Where a write leaves a key alone from the start, it leaves what the key stands for alone. -/
theorem spared (hm : before.rewrites = true)
    (hc : (db'.users u).committed ≠ (w.db.users u).committed)
    (hd : facet.key u ∉ (k reply).drops) :
    facet = .version ∧ before.spares = some u ∧ input.fails = false ∧
      (w.after c before (s.applied reply) (k reply) db').view .version u = w.view .version u := by
  have hk := hw.calls c before running
  have hr := hw.row_step running issues ran u
  have hhit (r : s.Reply) (he : reply = .ok r) (hopen : s.staysOpen = true) :
      s.hit r = some u := by
    subst he
    by_contra hmiss
    exact hc (congrArg Versioned.committed ((Db.exec_user ran u).unhit hopen hmiss))
  change _ ∧ _ ∧ _ ∧ (db'.users u).committed.map _ = (w.db.users u).committed.map _
  generalize (db'.users u).committed = o' at hr hc ⊢
  generalize (w.db.users u).committed = o at hr hc ⊢
  generalize ha : s.applied reply = applied at hr
  cases hr with
  | same => exact absurd rfl hc
  | write ok update =>
    rw [ok] at ha
    have hf := Db.applied_of_exec ran ha
    cases update with
    | updateUser =>
      cases issues
      rcases reply with e | _ | m'
      · cases ha
      · cases ha
      cases hk
      cases facet with
      | profile => exact absurd List.mem_cons_self hd
      | version => exact ⟨rfl, rfl, hf, rfl⟩
    | _ => cases hm
  | commit ok issues' work =>
    rw [ok] at ha
    have hf := Db.applied_of_exec ran ha
    cases issues.symm.trans issues'
    rcases reply with e | _
    · cases ha
    cases work.commits issues with
    | updateUser | changePassword =>
      cases issues
      exact absurd (by cases facet <;> simp [Call.drops, Facet.key]) hd
    | modifyBalance =>
      cases issues
      cases facet with
      | profile => exact absurd (by simp [Call.drops, Facet.key]) hd
      | version => exact ⟨rfl, rfl, hf, rfl⟩
    | resetPassword | revokeAll => cases hm
  | insert _ _ create =>
    subst create
    cases hm
  | delete ok delete =>
    rw [ok] at ha
    subst delete
    cases issues
    rcases reply with e | _ | n
    · cases ha
    · cases hhit _ rfl rfl
    · exact absurd (by cases facet <;> simp [Call.drops, Facet.key]) hd

end

/-- What a write of the five has left behind: every key it no longer has to drop, and every
lookup under way, shows the row at some moment since. -/
def Settled (f : Watched World) : Prop :=
  ∀ (d : CallId) (call : Call) u facet v, f.now.calls[d]? = some call → call.rewrites = true →
    f.now.wrote d u = true → facet.key u ∉ call.drops →
    v ∈ f.now.cached facet u ++ f.now.held facet u → fresh f d u facet v = true

theorem fresh_mono {w : World} (h : fresh f d u facet v = true) :
    fresh ⟨w, f.states⟩ d u facet v = true := by
  obtain ⟨a, ha, hd⟩ := fresh_iff.mp h
  exact fresh_iff.mpr ⟨a, List.mem_cons_of_mem _ ha, hd⟩

theorem fresh_now (h : f.now.wrote d u = true) : fresh f d u facet (f.now.view facet u) = true :=
  fresh_iff.mpr ⟨f.now, List.mem_cons_self, h, rfl⟩

section
variable (hok : settles f (.exec c input) = true) (running : f.now.calls[c]? = some before)
  (hm : before.rewrites = true)
include hok running hm

theorem settles_dropped (hd : before.clearsKey = some (facet.key u)) (hw : f.now.wrote c u = true) :
    ∀ v ∈ f.now.held facet u, fresh f c u facet v = true := by
  have hkey : CacheKey.facet (facet.key u) = some (facet, u) := by cases facet <;> rfl
  simp only [settles, running, Option.all_some, hm, hd, Option.bind_some, hkey, hw, Bool.not_true,
    Bool.false_or, Bool.and_eq_true, List.all_eq_true] at hok
  exact hok.1.1

theorem settles_kept (hr : before.rereads = some u) (hw : f.now.wrote c u = true)
    (hleft : input.fails = true ∨ (f.now.db.users u).committed = none) :
    ∀ v ∈ f.now.cached facet u ++ f.now.held facet u, fresh f c u facet v = true := by
  have hgone : (!input.fails && (f.now.db.users u).committed.isSome) = false := by
    rcases hleft with h | h <;> simp [h]
  simp only [settles, running, Option.all_some, hm, hr, hgone, hw, Bool.not_true, Bool.false_or,
    Bool.and_eq_true, List.all_cons, List.all_nil, Bool.and_true, List.all_eq_true] at hok
  cases facet with
  | profile => exact hok.1.2.1
  | version => exact hok.1.2.2

theorem settles_spared (hs : before.spares = some u) (hf : input.fails = false) :
    ∀ v ∈ f.now.cached .version u ++ f.now.held .version u, v = f.now.view .version u := by
  simp only [settles, running, Option.all_some, hm, hs, hf, Bool.not_true, Bool.false_or,
    Bool.and_eq_true, List.all_eq_true, beq_iff_eq] at hok
  exact hok.2

end

theorem Settled.exec {f : Watched World} (hw : f.now.Sound) (hS : Settled f)
    (hup : redisUp f (.exec c input) = true) (hok : settles f (.exec c input) = true)
    (running : f.now.calls[c]? = some before)
    (issues : before.next cfg (input.env f.now.ticks) = some ⟨s, k⟩)
    (ran : f.now.db.exec c input.fails s = some (db', reply)) :
    Settled ⟨f.now.after c before (s.applied reply) (k reply) db', f.states⟩ := by
  intro d call u facet v hc hm hd hn hv
  have hread (h : v = (f.now.after c before (s.applied reply) (k reply) db').view facet u) :
      fresh ⟨f.now.after c before (s.applied reply) (k reply) db', f.states⟩ d u facet v = true :=
    h ▸ fresh_now hd
  have hoffered : v ∈ f.now.cached facet u ++ f.now.held facet u ∨
      v = (f.now.after c before (s.applied reply) (k reply) db').view facet u := by
    rcases List.mem_append.mp hv with hv | hv
    · exact Or.inl (cached_after running issues ran hv)
    · rcases held_after hw running issues ran hv with hv | hv
      · exact Or.inl (List.mem_append_right _ hv)
      · exact Or.inr hv
  rcases hoffered with hold | hnew
  swap
  · exact hread hnew
  by_cases ho : d = c
  swap
  · -- another call's write
    rw [after_other ho] at hc
    have hd₀ : f.now.wrote d u = true := by
      obtain ⟨t, ht⟩ := wrote_iff.mp hd
      rcases mem_after.mp ht with h | ⟨_, h⟩
      · exact wrote_iff.mpr ⟨t, h⟩
      · exact absurd (changed_of_observe h).1 ho
    exact fresh_mono (hS d call u facet v hc hm hd₀ hn hold)
  subst ho
  rw [after_self running] at hc
  cases hc
  have hm₀ : before.rewrites = true := Call.rewrites_step issues hm
  by_cases hd₀ : f.now.wrote d u = true
  · by_cases hb : facet.key u ∈ before.drops
    · rcases Call.drops_step issues hb hn with ⟨hred, rfl⟩ | ⟨u', hre, rfl, hg⟩
      · -- the key has just been dropped
        have hf : input.fails = false := by simpa [redisUp, running, hred] using hup
        have hgone {key : CacheKey} (hkey : key = facet.key u ∨ key = .null (facet.key u)) :
            db'.redis key = none := by
          rw [hf] at ran
          exact Db.exec_redisDel ran (by simpa using hkey)
        have hheld : v ∈ (f.now.after d before true (k reply) db').held facet u := by
          rcases List.mem_append.mp hv with hv | hv
          · rcases mem_cached.mp hv with ⟨x, hx, _⟩ | ⟨rfl, hx, _⟩
            · cases (hgone (.inl rfl)).symm.trans hx
            · exact absurd (hgone (.inr rfl)) hx
          · exact hv
        rcases held_after hw running issues ran hheld with hv | hv
        · exact fresh_mono (settles_dropped hok running hm₀
            (Call.clearsKey_of_invalidate issues hm₀) hd₀ v hv)
        · exact hread hv
      · -- the row could not be read back
        have hu : u' = u := Call.rereads_drops hre hb
        subst hu
        refine fresh_mono (settles_kept hok running hm₀ hre hd₀ ?_ v hold)
        rcases reply with e | found
        · exact Or.inl (Db.fails_of_selectUserById ran)
        · cases hg
          obtain ⟨_, hview⟩ := Db.exec_selectUserById ran
          rw [hw.view_eq running fun _ _ => Call.not_working_of_rereads hre] at hview
          exact Or.inr hview.symm
    · exact fresh_mono (hS d before u facet v running hm₀ hd₀ hb hold)
  · -- the write itself
    obtain ⟨t, ht⟩ := wrote_iff.mp hd
    rcases mem_after.mp ht with h | ⟨_, h⟩
    · exact absurd (wrote_iff.mpr ⟨t, h⟩) hd₀
    obtain ⟨rfl, hsp, hf, hview⟩ := spared hw running issues ran hm₀ (changed_of_observe h).2 hn
    refine hread ?_
    rw [hview]
    exact settles_spared hok running hm₀ hsp hf v hold

theorem Settled.step {f : Watched World} (hw : f.now.Sound) (hR : f.now.Recorded)
    (hS : Settled f) (hup : redisUp f l = true) (hok : settles f l = true)
    (ht : Transition cfg f.now l w') : Settled ⟨w', f.states⟩ := by
  cases ht with
  | exec running issues ran => exact hS.exec hw hup hok running issues ran
  | @expire key =>
    intro d call u facet v hc hm hd hn hv
    refine fresh_mono (hS d call u facet v hc hm hd hn ?_)
    rw [List.mem_append] at hv ⊢
    rcases hv with hv | hv
    · left
      rcases mem_cached.mp hv with ⟨x, hx, rfl⟩ | ⟨rfl, hx, rfl⟩
      · exact mem_cached.mpr (.inl ⟨x, Db.redis_of_expire hx, rfl⟩)
      · obtain ⟨x, hx⟩ := Option.ne_none_iff_exists'.mp hx
        have hne := Option.ne_none_iff_exists'.mpr ⟨x, Db.redis_of_expire hx⟩
        exact mem_cached.mpr (.inr ⟨rfl, hne, rfl⟩)
    · exact Or.inr hv
  | @invoke new start =>
    intro d call u facet v hc hm hd hn hv
    obtain ⟨t, he⟩ := wrote_iff.mp hd
    have hc₀ : f.now.calls[d]? = some call := hR.joined he hc
    refine fresh_mono (hS d call u facet v hc₀ hm hd hn ?_)
    rw [List.mem_append] at hv ⊢
    rcases hv with hv | hv
    · exact Or.inl hv
    · obtain ⟨o, call', hc', hf⟩ := mem_held.mp hv
      rcases join_calls hc' with hc' | rfl
      · exact Or.inr (mem_held.mpr ⟨o, call', hc', hf⟩)
      · rw [Call.fills_initial start] at hf
        cases hf

/-- Whatever a lookup finds or holds when the write has returned is fresh. -/
theorem Settled.finished {f : Watched World} (hS : Settled f) {write : Call} {w : World}
    (hlead : w.LeadsTo f.now) (hc : w.calls[d]? = some write) (hm : write.rewrites = true)
    (hf : write.finished = true) (hd : w.wrote d u = true)
    (hv : v ∈ f.now.cached facet u ++ f.now.held facet u) :
    ∃ a ∈ f.states, a.wrote d u = true ∧ a.view facet u = v := by
  refine fresh_iff.mp (hS d write u facet v (hlead.1 d write hc hf) hm (hlead.wrote hd) ?_ hv)
  rw [Call.drops_finished hf]
  exact List.not_mem_nil

theorem view_profile : a.view .profile u = (a.profile u).map .user :=
  (Option.map_map CacheValue.user UserResponse.ofModel _).symm

theorem view_version : a.view .version u = (a.db.tokenVersion u).map .version :=
  (Option.map_map CacheValue.version UserModel.tokenVersion _).symm

section
variable {f : Watched World}
  (hfresh : ∀ facet v, v ∈ f.now.cached facet u ++ f.now.held facet u →
    ∃ a ∈ f.states, a.wrote d u = true ∧ a.view facet u = v)
  (ran : f.now.db.exec c input.fails s = some (db', reply))
include hfresh ran

theorem lookup_fresh {q : GetUser} {role : Option String}
    {r : Except UserError (Option UserResponse)} (running : f.now.calls[c]? = some (.getUser q))
    (issues : Call.next cfg (input.env f.now.ticks) (.getUser q) = some ⟨s, k⟩)
    (ha : q.asks = some (u, role)) (hk : k reply = .getUser (.done r)) :
    input.fails = true ∨
      ∃ a ∈ f.states, a.wrote d u = true ∧ r = .ok ((a.profile u).bind (adminScope role)) := by
  have hheld {v : Option CacheValue} (h : Call.fills (.getUser q) = some (.profile, u, v)) :
      v ∈ f.now.cached .profile u ++ f.now.held .profile u :=
    List.mem_append_right _ (mem_held.mpr ⟨c, _, running, h⟩)
  cases q with
  | get id role =>
    cases ha
    cases issues
    dsimp only at hk
    split at hk
    · rename_i user
      cases hk
      have hx : f.now.db.redis (userCacheKey u) = some (.user user) := (Db.exec_redisGet ran).symm
      obtain ⟨a, hmem, hd, hv⟩ := hfresh .profile (some (.user user))
        (List.mem_append_left _ (mem_cached.mpr (.inl ⟨_, hx, rfl⟩)))
      refine Or.inr ⟨a, hmem, hd, ?_⟩
      obtain ⟨user', hp, hu⟩ := Option.map_eq_some_iff.mp (view_profile.symm.trans hv)
      cases hu
      simp [hp]
    · cases hk
  | marker id role =>
    cases ha
    cases issues
    dsimp only at hk
    split at hk
    · cases hk
      have hx := Db.exec_redisExists ran
      obtain ⟨a, hmem, hd, hv⟩ := hfresh .profile none (List.mem_append_left _
        (mem_cached.mpr (.inr ⟨rfl, Option.isSome_iff_ne_none.mp hx.symm, rfl⟩)))
      refine Or.inr ⟨a, hmem, hd, ?_⟩
      have hp : a.profile u = none := Option.map_eq_none_iff.mp (view_profile.symm.trans hv)
      simp [hp]
    · cases hk
  | find id role =>
    cases issues
    rcases reply with e | _ | m
    · exact Or.inl (Db.fails_of_selectUserById ran)
    · cases hk
    · cases hk
  | set id role user =>
    cases ha
    cases issues
    cases hk
    obtain ⟨a, hmem, hd, hv⟩ := hfresh .profile _ (hheld rfl)
    refine Or.inr ⟨a, hmem, hd, ?_⟩
    obtain ⟨user', hp, hu⟩ := Option.map_eq_some_iff.mp (view_profile.symm.trans hv)
    cases hu
    simp [hp]
  | setNull id =>
    cases ha
    cases issues
    cases hk
    obtain ⟨a, hmem, hd, hv⟩ := hfresh .profile _ (hheld rfl)
    refine Or.inr ⟨a, hmem, hd, ?_⟩
    have hp : a.profile u = none := Option.map_eq_none_iff.mp (view_profile.symm.trans hv)
    simp [hp]
  | done => cases issues

theorem check_fresh {q : CheckTokenVersion} {v : Int} {ok : Bool} (hw : f.now.Sound)
    (hd : f.now.wrote d u = true) (running : f.now.calls[c]? = some (.checkTokenVersion q))
    (issues : Call.next cfg (input.env f.now.ticks) (.checkTokenVersion q) = some ⟨s, k⟩)
    (ha : q.asks = some (u, v)) (hk : k reply = .checkTokenVersion (.done ok)) :
    input.fails = true ∨
      ∃ a ∈ f.states, a.wrote d u = true ∧ (ok = true ↔ a.db.tokenVersion u = some v) := by
  cases q with
  | get id v' =>
    cases ha
    cases issues
    dsimp only at hk
    split at hk
    · rename_i current
      cases hk
      have hx : f.now.db.redis (tokenVersionKey u) = some (.version current) :=
        (Db.exec_redisGet ran).symm
      obtain ⟨a, hmem, hd, hv⟩ := hfresh .version (some (.version current))
        (List.mem_append_left _ (mem_cached.mpr (.inl ⟨_, hx, rfl⟩)))
      refine Or.inr ⟨a, hmem, hd, ?_⟩
      obtain ⟨current', hp, hc⟩ := Option.map_eq_some_iff.mp (view_version.symm.trans hv)
      cases hc
      simp [hp]
    · cases hk
  | find id v' =>
    cases ha
    cases issues
    rcases reply with e | _ | m
    · exact Or.inl (Db.fails_of_selectUserById ran)
    · cases hk
      obtain ⟨_, hview⟩ := Db.exec_selectUserById ran
      rw [hw.view_eq running fun _ _ h => h] at hview
      exact Or.inr ⟨f.now, List.mem_cons_self, hd, by simp [Db.tokenVersion, ← hview]⟩
    · cases hk
  | set id v' current =>
    cases ha
    cases issues
    cases hk
    obtain ⟨a, hmem, hd, hv⟩ := hfresh .version (some (.version current))
      (List.mem_append_right _ (mem_held.mpr ⟨c, _, running, rfl⟩))
    refine Or.inr ⟨a, hmem, hd, ?_⟩
    obtain ⟨current', hp, hc⟩ := Option.map_eq_some_iff.mp (view_version.symm.trans hv)
    cases hc
    simp [hp]
  | done => cases issues

end

theorem Settled.freshRead {f : Watched World} (hw : f.now.Sound) (hS : Settled f)
    (hlead : ∀ a ∈ f.states, a.LeadsTo f.now) (ht : Transition cfg f.now l w') :
    FreshRead f l ⟨w', f.states⟩ := by
  cases ht with
  | exec running issues ran =>
    intro d write u before hb hc hm hf hd _
    have hfresh : ∀ facet v, v ∈ f.now.cached facet u ++ f.now.held facet u →
        ∃ a ∈ f.states, a.wrote d u = true ∧ a.view facet u = v :=
      fun facet v hv => hS.finished (hlead before hb) hc hm hf hd hv
    constructor
    · intro q role r hq ha hr
      rw [running] at hq
      cases hq
      exact lookup_fresh hfresh ran running issues ha
        (Option.some.inj ((after_self running).symm.trans hr))
    · intro q v ok hq ha hr
      rw [running] at hq
      cases hq
      exact check_fresh hfresh ran hw ((hlead before hb).wrote hd) running issues ha
        (Option.some.inj ((after_self running).symm.trans hr))
  | expire | invoke => trivial

theorem no_stale_read (h0 : w₀.Initial) :
    NoStaleRead cfg (fun f l => redisUp f l = true ∧ settles f l = true) w₀ := by
  intro f l f' h _ hstep
  have hlead := Watched.since h (R := LeadsTo) (fun a => ⟨fun _ _ hc _ => hc, fun _ he => he⟩)
    fun a b l t hab ht => hab.step (step_transition ht)
  have hI : f.now.Sound ∧ f.now.Recorded ∧ Settled f :=
    h.invariant (I := fun f => f.now.Sound ∧ f.now.Recorded ∧ Settled f)
      ⟨h0.sound, h0.recorded, fun d call u facet v hc => by rw [h0.calls] at hc; cases hc⟩
      fun f l f' ⟨hw, hR, hS⟩ ⟨hup, hok⟩ hstep => by
        obtain ⟨w', hw', rfl⟩ := Watched.next_some hstep
        have ht := step_transition hw'
        exact ⟨hw.step ht, hR.step ht, hS.step hw hR hup hok ht⟩
  obtain ⟨w', hw', rfl⟩ := Watched.next_some hstep
  exact hI.2.2.freshRead hI.1 hlead (step_transition hw')

/-! ## A password change beside a check -/

/-- The token version is checked, the password is changed, and the old version is checked
again, up to the last step; with `late` the first check stores what it has read only after
the change. -/
def checkBesideChange (late : Bool) : List Label :=
  [.invoke (.checkTokenVersion (.get 1 1)), .exec 0 {}, .exec 0 {}] ++
    (if late then [] else [.exec 0 {}]) ++
    [.invoke (.changePassword (.find 1 "Passw0rd!" "First-1st" false)), .exec 1 {}, .exec 1 {},
      .exec 1 {}, .exec 1 {}, .exec 1 {}, .exec 1 {}, .exec 1 {}, .exec 1 {}] ++
    (if late then [.exec 0 {}] else []) ++
    [.invoke (.checkTokenVersion (.get 1 1))] ++
    if late then [] else [.exec 2 {}, .exec 2 {}]

theorem no_stale_read_in_time :
    let f := (Runs.run (Watched.next (World.step .plain))
      (fun f l => redisUp f l = true ∧ settles f l = true) ⟨account, []⟩
      (checkBesideChange false)).get (by decide)
    FreshRead f (.exec 2 {}) ((Watched.next (World.step .plain) f (.exec 2 {})).get (by decide)) :=
  no_stale_read initial_account _ _ _ (Runs.reaches_run_get _) (by decide)
    (Option.some_get _).symm

theorem stale_read : ¬ NoStaleRead .plain (fun f l => redisUp f l = true) account := by
  intro h
  let f := (Runs.run (Watched.next (World.step .plain)) (fun f l => redisUp f l = true)
    ⟨account, []⟩ (checkBesideChange true)).get (by decide)
  let f' := (Watched.next (World.step .plain) f (.exec 2 {})).get (by decide)
  have hread := h f (.exec 2 {}) f' (Runs.reaches_run_get _) (by decide) (Option.some_get _).symm
  -- the state in which the change has just returned
  let before := f.past.get ⟨1, by decide⟩
  have hbefore : before ∈ f.states := List.mem_cons_of_mem _ (List.get_mem f.past ⟨1, by decide⟩)
  let change := before.calls.get ⟨1, by decide⟩
  have hchecks := (hread 1 change 1 before hbefore (by decide) (by decide) (by decide) (by decide)
    (by decide)).2
  rcases hchecks (.get 1 1) 1 true (by decide) rfl (by decide) with hf | ⟨a, hmem, hd, hv⟩
  · cases hf
  · have hall : ∀ a ∈ f.states, a.wrote 1 1 = true → a.db.tokenVersion 1 ≠ some 1 := by decide
    exact hall a hmem hd (hv.mp rfl)

end World

end Webshelf
