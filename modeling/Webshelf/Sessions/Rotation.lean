import Webshelf.Sessions.Revocations

/-!
# Logout-all against rotation

The DELETE of `revoke_all_sessions` waits for the tokens that rotations hold. A
rotation that commits meanwhile has replaced a row of the snapshot by one the
DELETE does not see. As long as no rotation commits the exchange of a token that
such a DELETE has still to visit, no token that was there when the revocation
began, and none obtained from one by rotations, is left once it has committed.
-/

namespace Webshelf

namespace World

/-- The rotation committed with `new` in the place of `old`. -/
def Rotated (w : World) (old new : TokenId) : Prop :=
  ∃ t c u role tv, (t, Event.tokenRotated c old new u role tv) ∈ w.trace

/-- No rotation commits the exchange of a token that the DELETE of a
`revoke_all_sessions` has in its snapshot and has still to visit. -/
def exchangesUnawaited (w : World) : Label → Bool
  | .exec c input =>
    match w.calls[c]? with
    | some (.rotate (.commit old _ _)) => input.fails || w.calls.all fun
      | .revokeAll (.revoking _ waiting) => decide (old ∉ waiting)
      | _ => true
    | _ => true
  | _ => true

structure Ended (w : World) : Prop where
  during : ∀ (c : CallId) q u waiting, w.calls[c]? = some (.revokeAll q) →
    (Call.revokeAll q).deletes = some (u, waiting) →
    ∀ t u' rows, (t, Event.revocationStarted c u' rows) ∈ w.trace → ∀ i ∈ rows,
      i < w.db.tokens.next ∧ Call.Swept c waiting w.db.tokens i ∧ ∀ j, ¬ w.Rotated i j
  afterwards : ∀ (c : CallId) q, w.calls[c]? = some (.revokeAll q) →
    ∀ t u v, (t, Event.revoked c u v) ∈ w.trace →
    ∀ t u' rows, (t, Event.revocationStarted c u' rows) ∈ w.trace → ∀ i ∈ rows,
      i < w.db.tokens.next ∧ w.db.tokens.get i = none ∧ ∀ j, ¬ w.Rotated i j

variable {cfg : Settings} {w₀ w w' : World} {l : Label} {c c' : CallId} {before : Call} {s : Stmt}
  {input : Input} {applied : Bool} {k : Except DbErr s.Reply → Call}
  {reply : Except DbErr s.Reply} {db' : Db} {i j : TokenId} {u : UserId} {rows : List TokenId}
  {t : Nat}

theorem Initial.ended (h0 : w.Initial) : w.Ended where
  during c q u waiting hc := by rw [h0.calls] at hc; cases hc
  afterwards c q hc := by rw [h0.calls] at hc; cases hc

/-- A rotation commits the exchange of a row it has deleted. -/
theorem rotated_after {call : Call} (hH : w.Held) (running : w.calls[c]? = some before)
    (hr : (w.after c before applied call db').Rotated i j) :
    w.Rotated i j ∨ applied = true ∧ (∃ user, before = .rotate (.commit i j user)) ∧
      ∃ token, w.db.tokens.get i = some (token, .deleted c) := by
  obtain ⟨t, c', u, role, tv, hmem⟩ := hr
  rcases exchanged_after hH running hmem with he | ⟨_, ok, ⟨user, hb, _⟩, token, _, hg⟩
  · exact Or.inl ⟨t, c', u, role, tv, he⟩
  · exact Or.inr ⟨ok, ⟨user, hb⟩, token, hg⟩

theorem not_rotated {q : RevokeAll} {call : Call} (hH : w.Held)
    (running : w.calls[c]? = some (.revokeAll q)) (hn : ∀ j, ¬ w.Rotated i j) (j : TokenId) :
    ¬ (w.after c (.revokeAll q) applied call db').Rotated i j := fun hr => by
  rcases rotated_after hH running hr with ho | ⟨_, ⟨_, he⟩, _⟩
  · exact hn j ho
  · cases he

theorem started_after
    (hmem : (t, Event.revocationStarted c' u rows) ∈
      (w.after c before applied (k reply) db').trace) :
    (t, Event.revocationStarted c' u rows) ∈ w.trace ∨ c' = c ∧ before.revokes = some u ∧
      rows = w.db.tokens.snapshot c fun t => t.userId == u := by
  rcases mem_after.mp hmem with he | ⟨_, he⟩
  · exact Or.inl he
  · obtain ⟨_, hl⟩ := logged_of_observe he nofun nofun nofun
    generalize k reply = call' at hl
    cases hl with
    | revocationStarted hr => exact Or.inr ⟨rfl, hr, rfl⟩

/-- A call stays a call of its service. -/
theorem revokeAll_before {q : RevokeAll}
    (issues : before.next cfg (input.env w.ticks) = some ⟨s, k⟩)
    (hq : k reply = .revokeAll q) : ∃ q', before = .revokeAll q' := by
  cases before with
  | revokeAll q => exact ⟨q, rfl⟩
  | requestReset q | resendCode q | sendVerification q | autoVerify q | verifyEmail q
  | resetPassword q | updateUser q | changePassword q | login q | wxLogin q | rotate q | logout q
  | getUser q | setOpenid q | checkTokenVersion q | createUser q | deleteUser q | modifyBalance q =>
    obtain ⟨k', _, rfl⟩ := Next.map_some issues
    cases hq

section
variable (hw : w.Sound) (hR : w.Recorded) (hH : w.Held) (hE : w.Ended)
  (running : w.calls[c]? = some before)
  (issues : before.next cfg (input.env w.ticks) = some ⟨s, k⟩)
  (ran : w.db.exec c input.fails s = some (db', reply))
include running issues ran

include hw hR hH hE in
/-- The steps of the revocation itself, up to its COMMIT. -/
theorem during_own {q : RevokeAll} {waiting : List TokenId} (hq : k reply = .revokeAll q)
    (hd : (k reply).deletes = some (u, waiting)) {u' : UserId}
    (he : (t, Event.revocationStarted c u' rows) ∈
      (w.after c before (s.applied reply) (k reply) db').trace) (hi : i ∈ rows) :
    i < db'.tokens.next ∧ Call.Swept c waiting db'.tokens i ∧
      ∀ j, ¬ (w.after c before (s.applied reply) (k reply) db').Rotated i j := by
  obtain ⟨q', rfl⟩ := revokeAll_before issues hq
  have hle := (Db.exec_tokens ran).next_le
  rcases Call.deletes_step issues (hw.calls c _ running) (Db.exec_tokens ran) hd with
    ⟨hr, _, rfl, hdb⟩ | ⟨old, hb, hdb⟩
  · -- the DELETE starts
    have hinit : (Call.revokeAll q').initial = true := by cases q' <;> first | rfl | cases hr
    rcases started_after he with he | ⟨_, hr', rfl⟩
    · have := hR.not_initial he running
      rw [hinit] at this
      cases this
    · rw [hr] at hr'
      cases hr'
      obtain ⟨token, st, hg, _⟩ := Heap.mem_snapshot.mp hi
      refine ⟨Nat.lt_of_lt_of_le (Heap.lt_next hg) hle, ?_,
        not_rotated hH running fun j ⟨_, _, _, _, _, he⟩ => ?_⟩
      · rw [hdb]
        exact (Heap.deleteScan_dead hi).symm
      · rw [(hH.rotated _ _ _ _ _ _ _ he).1] at hg
        cases hg
  · -- the DELETE goes on, or is over
    rcases started_after he with he | ⟨_, hr', _⟩
    · obtain ⟨hlt, hS, hn⟩ := hE.during c q' u old running hb t u' rows he i hi
      refine ⟨Nat.lt_of_lt_of_le hlt hle, ?_, not_rotated hH running hn⟩
      rcases hdb with ⟨rfl, hdb⟩ | ⟨rfl, hdb⟩
      · rw [hdb]
        exact hS.scan
      · rw [hdb]
        exact hS
    · cases q' <;> cases hr'
      cases hb

include hR hH hE in
/-- A row of the snapshot is gone for good once the revocation has committed. -/
theorem afterwards_own {q : RevokeAll} (hq : k reply = .revokeAll q) {t' : Nat} {v : Option Int}
    (hv : (t', Event.revoked c u v) ∈ (w.after c before (s.applied reply) (k reply) db').trace)
    {u' : UserId}
    (he : (t, Event.revocationStarted c u' rows) ∈
      (w.after c before (s.applied reply) (k reply) db').trace) (hi : i ∈ rows) :
    i < db'.tokens.next ∧ db'.tokens.get i = none ∧
      ∀ j, ¬ (w.after c before (s.applied reply) (k reply) db').Rotated i j := by
  obtain ⟨q', rfl⟩ := revokeAll_before issues hq
  have hs := Db.exec_tokens ran
  have hle := hs.next_le
  have hstarted : (t, Event.revocationStarted c u' rows) ∈ w.trace := by
    rcases started_after he with he | ⟨_, hr, _⟩
    · exact he
    · exfalso
      rcases mem_after.mp hv with hv | ⟨_, hv⟩
      · have hinit := hR.not_initial hv running
        cases q' <;> cases hr
        cases hinit
      · obtain ⟨_, hl⟩ := logged_of_observe hv nofun nofun nofun
        generalize k reply = call' at hl
        cases hl with
        | revoked hc =>
          cases q' <;> cases hr
          cases hc
  rcases mem_after.mp hv with hv | ⟨_, hv⟩
  · obtain ⟨hlt, hg, hn⟩ := hE.afterwards c q' running t' u v hv t u' rows hstarted i hi
    exact ⟨Nat.lt_of_lt_of_le hlt hle, hs.gone hg hlt, not_rotated hH running hn⟩
  · -- the COMMIT
    obtain ⟨ok, hl⟩ := logged_of_observe hv nofun nofun nofun
    generalize k reply = call' at hl
    cases hl with
    | revoked hc =>
      cases q' <;> cases hc
      obtain ⟨hlt, hS, hn⟩ := hE.during c _ u [] running rfl t u' rows hstarted i hi
      have hd : Heap.Dead c (w.db.tokens.get i) := hS.resolve_right nofun
      cases issues
      generalize db'.tokens = h' at hs hle ⊢
      cases hs with
      | stay other => cases other
      | fail => cases ok
      | commit => exact ⟨Nat.lt_of_lt_of_le hlt hle, Heap.commit_dead hd, not_rotated hH running hn⟩

include hw hR hH hE in
theorem Ended.exec (hok : w.exchangesUnawaited (.exec c input) = true) :
    (w.after c before (s.applied reply) (k reply) db').Ended where
  during c' q u waiting hc hd t u' rows he i hi := by
    by_cases ho : c' = c
    · subst ho
      rw [after_self running] at hc
      have hq := Option.some.inj hc
      exact during_own hw hR hH hE running issues ran hq (hq ▸ hd) he hi
    · rw [after_other ho] at hc
      have he := (started_after he).resolve_right fun h => ho h.1
      obtain ⟨hlt, hS, hn⟩ := hE.during c' q u waiting hc hd t u' rows he i hi
      have hs := Db.exec_tokens ran
      refine ⟨Nat.lt_of_lt_of_le hlt hs.next_le, hS.other hs ho hlt, ?_⟩
      intro j hr
      rcases rotated_after hH running hr with hr | ⟨ok, ⟨user, rfl⟩, token, hg⟩
      · exact hn j hr
      · rcases hS with hdead | hwait
        · cases hdead _ _ hg
          exact ho rfl
        · -- the rotation would commit in front of the waiting DELETE
          simp only [exchangesUnawaited, running, Db.applied_of_exec ran ok, Bool.false_or,
            List.all_eq_true] at hok
          have := hok _ (List.mem_of_getElem? hc)
          cases q with
          | revoking =>
            cases hd
            simp [hwait] at this
          | bump | commit =>
            cases hd
            cases hwait
          | revoke | invalidate | done => cases hd
  afterwards c' q hc t u v hv t' u' rows he i hi := by
    by_cases ho : c' = c
    · subst ho
      rw [after_self running] at hc
      exact afterwards_own hR hH hE running issues ran (Option.some.inj hc) hv he hi
    · rw [after_other ho] at hc
      have he := (started_after he).resolve_right fun h => ho h.1
      have hv : (t, Event.revoked c' u v) ∈ w.trace := by
        rcases mem_after.mp hv with hv | ⟨_, hv⟩
        · exact hv
        · exact absurd (Call.call_of_observe hv) ho
      obtain ⟨hlt, hg, hn⟩ := hE.afterwards c' q hc t u v hv t' u' rows he i hi
      have hs := Db.exec_tokens ran
      refine ⟨Nat.lt_of_lt_of_le hlt hs.next_le, hs.gone hg hlt, ?_⟩
      intro j hr
      rcases rotated_after hH running hr with hr | ⟨_, _, token, hg'⟩
      · exact hn j hr
      · rw [hg] at hg'
        cases hg'

end

theorem Ended.step (hw : w.Sound) (hR : w.Recorded) (hH : w.Held) (hE : w.Ended)
    (hok : w.exchangesUnawaited l = true) (ht : Transition cfg w l w') : w'.Ended := by
  cases ht with
  | exec running issues ran => exact Ended.exec hw hR hH hE running issues ran hok
  | expire => exact ⟨hE.during, hE.afterwards⟩
  | invoke start =>
    constructor
    · intro c q u waiting hc hd t u' rows he
      exact hE.during c q u waiting (hR.joined he hc) hd t u' rows he
    · intro c q hc t u v hv t' u' rows he
      exact hE.afterwards c q (hR.joined hv hc) t u v hv t' u' rows he

/-- Once a `revoke_all_sessions` has committed, no refresh token is left whose chain
of rotations starts from a row its DELETE found when it began. -/
def NoChainLeft (w : World) : Prop :=
  ∀ (c : CallId) q u v t t' rows i j, w.calls[c]? = some (.revokeAll q) →
    (t, Event.revocationStarted c u rows) ∈ w.trace → (t', Event.revoked c u v) ∈ w.trace →
    i ∈ rows → Relation.ReflTransGen w.Rotated i j → w.db.tokens.get j = none

theorem revoke_all_ends_chains (h0 : w₀.Initial)
    (h : Runs.Reaches (World.step cfg) (fun w l => w.exchangesUnawaited l = true) w₀ w) :
    w.NoChainLeft := by
  have hI : w.Sound ∧ w.Recorded ∧ w.Held ∧ w.Ended :=
    h.invariant (I := fun w => w.Sound ∧ w.Recorded ∧ w.Held ∧ w.Ended)
      ⟨h0.sound, h0.recorded, h0.held, h0.ended⟩ fun a l b ⟨hs, hR, hH, hE⟩ hok hstep =>
        have ht := step_transition hstep
        ⟨hs.step ht, hR.step ht, hH.step hs ht, hE.step hs hR hH hok ht⟩
  intro c q u v t t' rows i j hc he hv hi hchain
  obtain ⟨_, hg, hn⟩ := hI.2.2.2.afterwards c q hc t' u v hv t u rows he i hi
  rcases hchain.cases_head with rfl | ⟨i', hr, _⟩
  · exact hg
  · exact absurd hr (hn i')

/-! ## A rotation in front of the DELETE -/

/-- The token is exchanged, the exchange of the new one fails while the DELETE waits for it. -/
def exchangeBeforeLogout : List Label :=
  [.invoke (.rotate (.lock 0)), .exec 0 {}, .exec 0 {}, .exec 0 {}, .exec 0 {}, .exec 0 {},
    .invoke (.rotate (.lock 2)), .invoke (.revokeAll (.revoke 1)), .exec 1 {}, .exec 2 {},
    .exec 1 { fails := true }, .exec 2 {}, .exec 2 {}, .exec 2 {}]

/-- The exchange commits while the DELETE waits. -/
def exchangeDuringLogout : List Label :=
  [.invoke (.rotate (.lock 0)), .invoke (.revokeAll (.revoke 1)), .exec 0 {}, .exec 0 {},
    .exec 0 {}, .exec 0 {}, .exec 1 {}, .exec 0 {}, .exec 1 {}, .exec 1 {}, .exec 1 {}]

theorem revoke_all_ends_chains_unawaited :
    ((Runs.run (World.step .plain) (fun w l => w.exchangesUnawaited l = true) signedIn
      exchangeBeforeLogout).get (by decide)).NoChainLeft :=
  revoke_all_ends_chains initial_signedIn (Runs.reaches_run_get _)

theorem chain_survives_revoke_all : ∃ w,
    Runs.Reaches (World.step .plain) Runs.Free signedIn w ∧ ¬ w.NoChainLeft := by
  let w := (Runs.run (World.step .plain) Runs.Free signedIn exchangeDuringLogout).get (by decide)
  have hstarted : (7, Event.revocationStarted 1 1 [0]) ∈ w.trace := by decide
  have hrevoked : (11, Event.revoked 1 1 (some 2)) ∈ w.trace := by decide
  have hrotated : w.Rotated 0 1 := ⟨8, 0, 1, "user", 1, by decide⟩
  have hleft : w.db.tokens.get 1 ≠ none := by decide
  have hcall : w.calls[1]? = some (.revokeAll (.invalidate 1)) := by decide
  exact ⟨w, Runs.reaches_run_get _, fun h => hleft
    (h 1 _ 1 _ 7 11 [0] 0 1 hcall hstarted hrevoked (List.mem_singleton_self 0) (.single hrotated))⟩

end World

end Webshelf
