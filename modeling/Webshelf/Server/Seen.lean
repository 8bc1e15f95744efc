import Webshelf.Users.FreshReads
import Webshelf.Users.Roles

/-!
# What was once so

The caches may be late and the calls may run into one another, but nothing is
made up: what Redis holds of a row, what a lookup is about to store, and the
role and version in a JWT were those of the committed row at some moment of the run.
-/

namespace Webshelf

open Runs (Watched)

namespace World

/-- The run has been through such a state. -/
def Saw (f : Watched World) (P : World → Prop) : Prop := ∃ a ∈ f.states, P a

/-- The user has a row with that role and that token version. -/
def HasRow (w : World) (x : UserId × String × Int) : Prop :=
  ∃ m, (w.db.users x.1).committed = some m ∧ m.role = x.2.1 ∧ m.tokenVersion = x.2.2

structure Witnessed (f : Watched World) : Prop where
  shown : ∀ facet u v, v ∈ f.now.cached facet u ++ f.now.held facet u →
    Saw f fun a => a.view facet u = v
  bears : ∀ (c : CallId) (call : Call) x, f.now.calls[c]? = some call → call.bears = some x →
    Saw f fun a => a.HasRow x
  refetched : ∀ (c : CallId) (call : Call) m, f.now.calls[c]? = some call →
    call.refetched = some m → (f.now.db.users m.id).pending = some (c, m)
  issued : ∀ t c token, (t, Event.jwtIssued c token) ∈ f.now.trace →
    Saw f fun a => a.HasRow token.identity
  returned : ∀ (c : CallId) (call : Call) token, f.now.calls[c]? = some call →
    call.jwt = some token → Saw f fun a => a.HasRow token.identity

/-- Redis holds nothing of a row that is not so. -/
def CachesRows (w : World) : Prop :=
  ∀ facet u v, v ∈ w.cached facet u → w.view facet u = v

variable {cfg : Settings} {w w' : World} {f f' : Watched World} {l : Label} {c : CallId}
  {before : Call} {s : Stmt} {input : Input} {applied : Bool} {k : Except DbErr s.Reply → Call}
  {reply : Except DbErr s.Reply} {db' : Db} {u : UserId} {v : Option CacheValue}
  {x : UserId × String × Int} {P : World → Prop}

theorem Saw.later (h : Saw f P) : Saw ⟨w', f.states⟩ P := by
  obtain ⟨a, ha, hP⟩ := h
  exact ⟨a, List.mem_cons_of_mem _ ha, hP⟩

theorem saw_now (h : P f.now) : Saw f P := ⟨f.now, List.mem_cons_self, h⟩

theorem Initial.witnessed (h0 : w.Initial) (hcaches : w.CachesRows) : Witnessed ⟨w, []⟩ where
  shown facet u v hv := by
    rcases List.mem_append.mp hv with hv | hv
    · exact saw_now (hcaches facet u v hv)
    · obtain ⟨c, call, hc, -⟩ := mem_held.mp hv
      rw [h0.calls] at hc
      cases hc
  bears c call x hc := by
    rw [h0.calls] at hc
    cases hc
  refetched c call m hc := by
    rw [h0.calls] at hc
    cases hc
  issued t c token he := by
    rw [h0.trace] at he
    cases he
  returned c call token hc := by
    rw [h0.calls] at hc
    cases hc

section
variable (hw : f.now.Sound) (hW : Witnessed f) (running : f.now.calls[c]? = some before)
  (issues : before.next cfg (input.env f.now.ticks) = some ⟨s, k⟩)
  (ran : f.now.db.exec c input.fails s = some (db', reply))
include hw running issues ran

/-- A row that a call has read is there when it reads it. -/
theorem hasRow_of_reads (hr : before.Reads s reply x) : f.now.HasRow x := by
  obtain ⟨m, rfl, hr⟩ := hr
  refine ⟨m, ?_, rfl, rfl⟩
  rcases hr with hp | ⟨hn, hg⟩
  · exact (hw.selected running issues ran hp).1
  · exact (hw.got running ran hn hg).2

include hW

theorem Witnessed.shown_exec {facet : Facet}
    (hv : v ∈ (f.now.after c before applied (k reply) db').cached facet u ++
      (f.now.after c before applied (k reply) db').held facet u) :
    Saw ⟨f.now.after c before applied (k reply) db', f.states⟩ fun a => a.view facet u = v := by
  rcases List.mem_append.mp hv with hv | hv
  · exact (hW.shown facet u v (cached_after running issues ran hv)).later
  · rcases held_after hw running issues ran hv with hv | rfl
    · exact (hW.shown facet u v (List.mem_append_right _ hv)).later
    · exact saw_now rfl

theorem Witnessed.bears_exec {o : CallId} {call : Call}
    (hc : (f.now.after c before applied (k reply) db').calls[o]? = some call)
    (hb : call.bears = some x) :
    Saw ⟨f.now.after c before applied (k reply) db', f.states⟩ fun a => a.HasRow x := by
  refine Saw.later ?_
  by_cases ho : o = c
  · subst ho
    rw [after_self running] at hc
    cases hc
    rcases Call.bears_step issues hb with hb | hr
    · exact hW.bears o before x running hb
    · exact saw_now (hasRow_of_reads hw running issues ran hr)
  · rw [after_other ho] at hc
    exact hW.bears o call x hc hb

theorem Witnessed.refetched_exec {o : CallId} {call : Call} {m : UserModel}
    (hc : (f.now.after c before applied (k reply) db').calls[o]? = some call)
    (hb : call.refetched = some m) : (db'.users m.id).pending = some (o, m) := by
  by_cases ho : o = c
  · subst ho
    rw [after_self running] at hc
    cases hc
    rcases Call.refetched_step issues hb with ⟨hold, hs, r, rfl, hm⟩ | ⟨⟨user, h, rfl⟩, hg⟩
    · rw [(Db.exec_user ran m.id).unhit hs (by rw [hm]; exact nofun)]
      exact hW.refetched o before m running hold
    · obtain ⟨v, hp⟩ := hw.locked o _ user.id running rfl
      cases issues
      rcases reply with e | found
      · cases hg
      · cases hg
        obtain ⟨rfl, hv⟩ := Db.exec_selectUserById ran
        rw [hw.view_id running hv.symm]
        rw [Versioned.view_own hp] at hv
        cases hv
        exact hp
  · rw [after_other ho] at hc
    have hp := hW.refetched o call m hc hb
    rw [row_other ran hp ho]
    exact hp

/-- The JWT that a call returns is about a row that there was. -/
theorem Witnessed.returns_exec {token : JwtClaims} (hj : (k reply).jwt = some token) :
    Saw ⟨f.now.after c before (s.applied reply) (k reply) db', f.states⟩ fun a =>
      a.HasRow token.identity := by
  rcases Call.jwt_step issues (hw.keyed_reply running issues ran) hj with
    hb | hr | ⟨user, h, updated, rfl, ok, hid⟩
  · exact (hW.bears c before _ running hb).later
  · exact (saw_now (hasRow_of_reads hw running issues ran hr)).later
  · -- the COMMIT of a reset makes the row it has read back the current one
    have hp := hW.refetched c _ updated running rfl
    cases issues
    refine saw_now ⟨updated, ?_, ?_, ?_⟩
    · rw [hid]
      rcases reply with e | ⟨⟨⟩⟩
      · cases ok
      · exact (Db.exec_user ran updated.id).publishes hp
    · rw [hid]
    · rw [hid]

theorem Witnessed.issued_exec {t : Nat} {o : CallId} {token : JwtClaims}
    (hmem : (t, Event.jwtIssued o token) ∈
      (f.now.after c before (s.applied reply) (k reply) db').trace) :
    Saw ⟨f.now.after c before (s.applied reply) (k reply) db', f.states⟩ fun a =>
      a.HasRow token.identity := by
  rcases mem_after.mp hmem with he | ⟨_, he⟩
  · exact (hW.issued t o token he).later
  · exact hW.returns_exec hw running issues ran (jwt_of_observe he)

theorem Witnessed.returned_exec {o : CallId} {call : Call} {token : JwtClaims}
    (hc : (f.now.after c before (s.applied reply) (k reply) db').calls[o]? = some call)
    (hj : call.jwt = some token) :
    Saw ⟨f.now.after c before (s.applied reply) (k reply) db', f.states⟩ fun a =>
      a.HasRow token.identity := by
  by_cases ho : o = c
  · subst ho
    rw [after_self running] at hc
    cases hc
    exact hW.returns_exec hw running issues ran hj
  · rw [after_other ho] at hc
    exact (hW.returned o call token hc hj).later

end

theorem Witnessed.step (hw : f.now.Sound) (hW : Witnessed f) (ht : Transition cfg f.now l w') :
    Witnessed ⟨w', f.states⟩ := by
  cases ht with
  | exec running issues ran =>
    exact {
      shown := fun facet u v => hW.shown_exec hw running issues ran
      bears := fun o call x => hW.bears_exec hw running issues ran
      refetched := fun o call m => hW.refetched_exec hw running issues ran
      issued := fun t o token => hW.issued_exec hw running issues ran
      returned := fun o call token => hW.returned_exec hw running issues ran }
  | @expire key =>
    refine ⟨?_, ?_, hW.refetched, ?_, ?_⟩
    · intro facet u v hv
      refine (hW.shown facet u v ?_).later
      rw [List.mem_append] at hv ⊢
      rcases hv with hv | hv
      · left
        rcases mem_cached.mp hv with ⟨x, hx, rfl⟩ | ⟨rfl, hx, rfl⟩
        · exact mem_cached.mpr (.inl ⟨x, Db.redis_of_expire hx, rfl⟩)
        · obtain ⟨x, hx⟩ := Option.ne_none_iff_exists'.mp hx
          have hne := Option.ne_none_iff_exists'.mpr ⟨x, Db.redis_of_expire hx⟩
          exact mem_cached.mpr (.inr ⟨rfl, hne, rfl⟩)
      · exact Or.inr hv
    · exact fun c call x hc hb => (hW.bears c call x hc hb).later
    · exact fun t c token he => (hW.issued t c token he).later
    · exact fun c call token hc hj => (hW.returned c call token hc hj).later
  | @invoke new start =>
    have hidle : new.bears = none ∧ new.refetched = none ∧ new.jwt = none := by
      cases new <;> rename_i q <;> cases q <;> first | exact ⟨rfl, rfl, rfl⟩ | cases start
    refine ⟨?_, ?_, ?_, ?_, ?_⟩
    · intro facet u v hv
      refine (hW.shown facet u v ?_).later
      rw [List.mem_append] at hv ⊢
      rcases hv with hv | hv
      · exact Or.inl hv
      · obtain ⟨o, call, hc, hf⟩ := mem_held.mp hv
        rcases join_calls hc with hc | rfl
        · exact Or.inr (mem_held.mpr ⟨o, call, hc, hf⟩)
        · rw [Call.fills_initial start] at hf
          cases hf
    · intro c call x hc hb
      rcases join_calls hc with hc | rfl
      · exact (hW.bears c call x hc hb).later
      · rw [hidle.1] at hb
        cases hb
    · intro c call m hc hb
      rcases join_calls hc with hc | rfl
      · exact hW.refetched c call m hc hb
      · rw [hidle.2.1] at hb
        cases hb
    · exact fun t c token he => (hW.issued t c token he).later
    · intro c call token hc hj
      rcases join_calls hc with hc | rfl
      · exact (hW.returned c call token hc hj).later
      · rw [hidle.2.2] at hj
        cases hj

/-- A moment that changes nothing. -/
theorem Witnessed.stay (hW : Witnessed f) : Witnessed ⟨f.now, f.states⟩ where
  shown facet u v hv := (hW.shown facet u v hv).later
  bears c call x hc hb := (hW.bears c call x hc hb).later
  refetched := hW.refetched
  issued t c token he := (hW.issued t c token he).later
  returned c call token hc hj := (hW.returned c call token hc hj).later

/-- A check that says yes says the version that the row has had. -/
theorem Witnessed.checked {q : CheckTokenVersion} {v : Int} (hW : Witnessed f)
    (running : f.now.calls[c]? = some (.checkTokenVersion q))
    (issues : Call.next cfg (input.env f.now.ticks) (.checkTokenVersion q) = some ⟨s, k⟩)
    (ran : f.now.db.exec c input.fails s = some (db', reply)) (ha : q.asks = some (u, v))
    (hk : k reply = .checkTokenVersion (.done true)) :
    Saw f fun a => a.db.tokenVersion u = some v := by
  have hversion (current : Int) (h : some (CacheValue.version current) ∈
      f.now.cached .version u ++ f.now.held .version u) :
      Saw f fun a => a.db.tokenVersion u = some current := by
    obtain ⟨a, ha, hv⟩ := hW.shown .version u _ h
    obtain ⟨current', hp, hc⟩ := Option.map_eq_some_iff.mp (view_version.symm.trans hv)
    cases hc
    exact ⟨a, ha, hp⟩
  cases q with
  | get id v' =>
    cases ha
    cases issues
    dsimp only at hk
    split at hk
    · rename_i current
      have hx : f.now.db.redis (tokenVersionKey u) = some (.version current) :=
        (Db.exec_redisGet ran).symm
      have heq : current = v := by simpa using hk
      subst heq
      exact hversion current (List.mem_append_left _ (mem_cached.mpr (.inl ⟨_, hx, rfl⟩)))
    · cases hk
  | find id v' =>
    cases ha
    cases issues
    rcases reply with e | _ | m <;> cases hk
  | set id v' current =>
    cases ha
    cases issues
    have heq : current = v := by simpa using hk
    subst heq
    exact hversion current (List.mem_append_right _ (mem_held.mpr ⟨c, _, running, rfl⟩))
  | done => cases issues

end World

end Webshelf
