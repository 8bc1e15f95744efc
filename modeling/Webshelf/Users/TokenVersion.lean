import Webshelf.Users.Versions

/-!
# The token version counts revocations

Every COMMIT of a password change, a password reset, a logout-all or a change of
role raises `token_version` by one, and nothing else writes the column.
-/

namespace Webshelf

/-- A revocation or a change of role of user `u` was committed. -/
def Event.bumps (u : UserId) : Event → Bool
  | .revoked _ u' _ | .roleCommitted _ u' => decide (u' = u)
  | _ => false

namespace Call

/-- The user whose bumped version the call is about to commit. -/
def commitsBump : Call → Option UserId
  | revokeAll (.commit u) | changePassword (.commit u _) | updateUser (.commit u) => some u
  | resetPassword (.commit user _ _) => some user.id
  | _ => none

section
variable {cfg : Settings} {env : Env} {before : Call} {s : Stmt} {u : UserId} {c : CallId}
  {k : Except DbErr s.Reply → Call} {reply : Except DbErr s.Reply} {m m' v : UserModel}
  {r r' : Versioned CallId UserModel} {db db' : Db} {e : Event} {applied : Bool}
  {o o' : Option UserModel}

/-- A transaction that commits has bumped the version once, or not at all. -/
theorem Working.bumped {k : Except DbErr Unit → Call}
    (issues : before.next cfg env = some ⟨.commit, k⟩) (h : before.Working u m v) :
    before.commitsBump = some u ∧ v.tokenVersion = m.tokenVersion + 1 ∨
      before.commitsBump = none ∧ v.tokenVersion = m.tokenVersion := by
  cases h.commits issues with
  | modifyBalance => exact Or.inr ⟨rfl, rfl⟩
  | resetPassword | updateUser | changePassword | revokeAll => exact Or.inl ⟨rfl, rfl⟩

/-- The row of a call at such a COMMIT is certainly written, or its UPDATE found none. -/
theorem locks_of_commitsBump (h : before.commitsBump = some u) :
    before.locks = some u ∨ before = .revokeAll (.commit u) := by
  cases before with
  | resetPassword q => cases q <;> cases h; exact Or.inl rfl
  | updateUser q => cases q <;> cases h; exact Or.inl rfl
  | changePassword q => cases q <;> cases h; exact Or.inl rfl
  | revokeAll q => cases q <;> cases h; exact Or.inr rfl
  | _ => cases h

/-- The UPDATE of a logout-all has written its row, or there was none. -/
theorem bump_all_step (issues : before.next cfg env = some ⟨s, k⟩)
    (hs : UserStep c u s reply r r') (hn : k reply = .revokeAll (.commit u)) :
    (∃ v, r'.pending = some (c, v)) ∨ r'.committed = none := by
  cases before with
  | revokeAll q =>
    cases q with
    | bump =>
      cases issues
      cases hs with
      | write => exact Or.inl ⟨_, rfl⟩
      | fail => cases hn
      | miss unseen => exact Or.inr (Versioned.committed_of_unseen fun m h => nomatch unseen m h)
      | stay _ missed =>
        cases hn
        exact absurd rfl missed
    | revoke | revoking | commit | invalidate =>
      cases issues
      dsimp only [deleted] at hn
      (repeat' split at hn) <;> cases hn
    | done => cases issues
  | requestReset q | resendCode q | sendVerification q | modifyBalance q | updateUser q
  | autoVerify q | verifyEmail q | resetPassword q | changePassword q | login q | wxLogin q
  | rotate q | logout q | getUser q | setOpenid q | checkTokenVersion q | createUser q
  | deleteUser q =>
    obtain ⟨k', _, rfl⟩ := Next.map_some issues
    cases hn

theorem Logged.bumps {after : Call} (h : before.Logged c db db' after e)
    (hb : e.bumps u = true) : before.commitsBump = some u := by
  cases h with
  | revoked hc =>
    rw [of_decide_eq_true hb] at hc
    cases before with
    | resetPassword q | changePassword q | revokeAll q => cases q <;> cases hc; rfl
    | _ => cases hc
  | roleCommitted => exact congrArg some (of_decide_eq_true hb)
  | _ => cases hb

theorem countP_events {after : Call} :
    (before.events c db db' after).countP (Event.bumps u) =
      if before.commitsBump = some u then 1 else 0 := by
  split
  · rename_i hb
    cases before with
    | resetPassword q | changePassword q | updateUser q | revokeAll q =>
      cases q <;> cases hb
      simp [events, Event.bumps]
    | _ => cases hb
  · rename_i hb
    exact List.countP_eq_zero.mpr fun e he hbumps => hb ((mem_events he).bumps hbumps)

end

end Call

theorem countP_observe {c : CallId} {db db' : Db} {before after : Call} {applied : Bool}
    {u : UserId} : (observe c db db' before applied after).countP (Event.bumps u) =
      if applied = true ∧ before.commitsBump = some u then 1 else 0 := by
  have hchanged : ((db.changedUsers db').map (Event.changed c)).countP (Event.bumps u) = 0 := by
    refine List.countP_eq_zero.mpr ?_
    intro e he
    obtain ⟨u', _, rfl⟩ := List.mem_map.mp he
    exact nofun
  have hreturned : (before.returned c db' after).countP (Event.bumps u) = 0 := by
    refine List.countP_eq_zero.mpr ?_
    intro e he
    rcases mem_returned he with ⟨_, rfl, _⟩ | ⟨_, _, _, rfl⟩ <;> exact nofun
  unfold observe
  rw [List.countP_append, List.countP_append, hchanged, hreturned]
  cases applied
  · simp
  · simp [Call.countP_events]

namespace World

/-- How many revocations and changes of role of user `u` have been committed. -/
def bumps (w : World) (u : UserId) : Nat := w.trace.countP fun te => te.2.bumps u

variable {cfg : Settings} {w₀ w w' : World} {l : Label} {c : CallId} {before : Call} {s : Stmt}
  {input : Input} {applied : Bool} {k : Except DbErr s.Reply → Call}
  {reply : Except DbErr s.Reply} {db' : Db} {u : UserId} {m m' : UserModel} {v : Int}

theorem bumps_after {call : Call} : (w.after c before applied call db').bumps u =
    w.bumps u + if applied = true ∧ before.commitsBump = some u then 1 else 0 := by
  simp only [bumps, World.after, List.countP_append, List.countP_map]
  exact congrArg _ countP_observe

/-- The row of `u`, as long as it is there, has the version `v` and the bumps of the run. -/
structure Counted (u : UserId) (v : Int) (w : World) : Prop where
  known : u ∈ w.db.ids
  held : ∀ c, w.calls[c]? = some (.revokeAll (.commit u)) →
    (∃ m, (w.db.users u).pending = some (c, m)) ∨ (w.db.users u).committed = none
  counts : ∀ m, (w.db.users u).committed = some m → m.tokenVersion = v + w.bumps u

theorem Initial.counted (h0 : w.Initial) (hm : (w.db.users u).committed = some m) :
    w.Counted u m.tokenVersion where
  known := h0.listed u m hm
  held c hc := by rw [h0.calls] at hc; cases hc
  counts m' hm' := by
    rw [hm] at hm'
    cases hm'
    simp [bumps, h0.trace]

/-- A row that has gone does not come back. -/
theorem gone_after (hw : w.Sound) (ran : w.db.exec c input.fails s = some (db', reply))
    (hk : u ∈ w.db.ids) (hg : (w.db.users u).committed = none) :
    (db'.users u).committed = none :=
  Option.eq_none_iff_forall_ne_some.mpr fun _ hm =>
    (Db.appeared ran hg (hw.not_pending hg) hm).1 hk

section
variable (hw : w.Sound) (running : w.calls[c]? = some before)
  (issues : before.next cfg (input.env w.ticks) = some ⟨s, k⟩)
  (ran : w.db.exec c input.fails s = some (db', reply))
include hw running issues ran

/-- A step writes the version of a row only by committing a bump. -/
theorem version_after (hb : before.commitsBump = some u →
      (∃ v, (w.db.users u).pending = some (c, v)) ∨ (w.db.users u).committed = none)
    (hm : (w.db.users u).committed = some m) (hm' : (db'.users u).committed = some m') :
    m'.tokenVersion = m.tokenVersion +
      if s.applied reply = true ∧ before.commitsBump = some u then 1 else 0 := by
  by_cases hc : s.applied reply = true ∧ before.commitsBump = some u
  · -- the COMMIT of a bump, which has the row in hand
    obtain ⟨ok, hbump⟩ := hc
    rw [if_pos ⟨ok, hbump⟩]
    rcases hb hbump with ⟨v, hp⟩ | hn
    · obtain ⟨m₀, hm₀, hW⟩ := hw.own running v hp
      rw [hm] at hm₀
      cases hm₀
      have hcommit : s = .commit := by
        cases before with
        | resetPassword q | changePassword q | updateUser q | revokeAll q =>
          cases q <;> cases hbump
          cases issues
          rfl
        | _ => cases hbump
      subst hcommit
      rcases reply with e | ⟨⟨⟩⟩
      · cases ok
      · have hv := (Db.exec_user ran u).publishes hp
        rw [hm'] at hv
        cases hv
        rcases hW.bumped issues with ⟨_, h⟩ | ⟨h, _⟩
        · exact h
        · rw [h] at hbump
          cases hbump
    · rw [hm] at hn
      cases hn
  · rw [if_neg hc, Int.add_zero]
    have hr := hw.row_step running issues ran u
    rw [hm, hm'] at hr
    generalize s.applied reply = applied at hc hr
    cases hr with
    | same => rfl
    | write _ update => exact update.tokenVersion
    | commit ok issues' work =>
      rcases work.bumped issues' with ⟨h, _⟩ | ⟨_, h⟩
      · exact absurd ⟨ok, h⟩ hc
      · exact h

end

theorem Counted.exec (hw : w.Sound) (hC : w.Counted u v) (running : w.calls[c]? = some before)
    (issues : before.next cfg (input.env w.ticks) = some ⟨s, k⟩)
    (ran : w.db.exec c input.fails s = some (db', reply)) :
    (w.after c before (s.applied reply) (k reply) db').Counted u v where
  known := Db.mem_ids ran hC.known
  held o hc := by
    change (∃ m, (db'.users u).pending = some (o, m)) ∨ (db'.users u).committed = none
    by_cases ho : o = c
    · subst ho
      rw [after_self running] at hc
      exact Call.bump_all_step issues (Db.exec_user ran u) (Option.some.inj hc)
    · rw [after_other ho] at hc
      rcases hC.held o hc with ⟨m, hp⟩ | hn
      · exact Or.inl ⟨m, by rw [row_other ran hp ho]; exact hp⟩
      · exact Or.inr (gone_after hw ran hC.known hn)
  counts m' hm' := by
    change (db'.users u).committed = some m' at hm'
    cases hm : (w.db.users u).committed with
    | none => rw [gone_after hw ran hC.known hm] at hm'; cases hm'
    | some m =>
      have hb : before.commitsBump = some u →
          (∃ v, (w.db.users u).pending = some (c, v)) ∨ (w.db.users u).committed = none := by
        intro h
        rcases Call.locks_of_commitsBump h with hl | rfl
        · exact Or.inl (hw.locked c before u running hl)
        · exact hC.held c running
      have hstep := version_after hw running issues ran hb hm hm'
      have hold := hC.counts m hm
      rw [bumps_after, hstep, hold]
      split <;> omega

theorem Counted.step (hw : w.Sound) (hC : w.Counted u v) (ht : Transition cfg w l w') :
    w'.Counted u v := by
  cases ht with
  | exec running issues ran => exact Counted.exec hw hC running issues ran
  | expire => exact ⟨hC.known, hC.held, hC.counts⟩
  | @invoke call start =>
    refine ⟨hC.known, fun c hc => ?_, hC.counts⟩
    rcases join_calls hc with hc | rfl
    · exact hC.held c hc
    · cases start

/-- The version of a row grows by one for each committed bump. -/
def CountsBumps (w₀ w : World) : Prop :=
  ∀ u m₀ m, (w₀.db.users u).committed = some m₀ → (w.db.users u).committed = some m →
    m.tokenVersion = m₀.tokenVersion + w.bumps u

/-- No version of a row has decreased. -/
def KeepsVersions (w w' : World) : Prop :=
  ∀ u m m', (w.db.users u).committed = some m → (w'.db.users u).committed = some m' →
    m.tokenVersion ≤ m'.tokenVersion

theorem keepsVersions (hw : w.Sound) (h : Runs.Reaches (World.step cfg) Runs.Free w w') :
    w.KeepsVersions w' := by
  intro u m m' hm hm'
  have hI : w'.Sound ∧ w'.Since u fun m' => m.tokenVersion ≤ m'.tokenVersion :=
    h.invariant (I := fun w => w.Sound ∧ w.Since u fun m' => m.tokenVersion ≤ m'.tokenVersion)
      ⟨hw, hw.since hm (Int.le_refl _)⟩ fun a l b ⟨hs, hS⟩ _ hstep => by
        have ht := step_transition hstep
        refine ⟨hs.step ht, ?_⟩
        cases ht with
        | exec running issues ran => exact hS.after_version hs running issues ran
        | invoke | expire => exact hS
  exact hI.2.2 m' hm'

/-- `token_version` never decreases, and counts the committed revocations and changes of role. -/
theorem token_version_counts (h0 : w₀.Initial)
    (h : Runs.Reaches (World.step cfg) Runs.Free w₀ w)
    (h' : Runs.Reaches (World.step cfg) Runs.Free w w') :
    w₀.CountsBumps w ∧ w.KeepsVersions w' := by
  refine ⟨fun u m₀ m hm₀ hm => ?_, keepsVersions (h0.sound.reached h) h'⟩
  have hI : w.Sound ∧ w.Counted u m₀.tokenVersion :=
    h.invariant (I := fun w => w.Sound ∧ w.Counted u m₀.tokenVersion)
      ⟨h0.sound, h0.counted hm₀⟩ fun _ _ _ ⟨hs, hC⟩ _ hstep =>
        have ht := step_transition hstep
        ⟨hs.step ht, hC.step hs ht⟩
  exact hI.2.counts m hm

/-- A logout-all, and a balance change that has read the row before it. -/
def revokedUnderneath : List Label :=
  [.invoke (.modifyBalance (setBalance 1 5 "system")), .invoke (.revokeAll (.revoke 1)),
    .exec 0 {}, .exec 1 {}, .exec 0 {}, .exec 0 {}, .exec 1 {}, .exec 1 {}]

theorem token_version_counts_underneath :
    let w := (Runs.run (World.step .plain) Runs.Free account revokedUnderneath).get (by decide)
    account.CountsBumps w ∧ w.KeepsVersions w :=
  token_version_counts initial_account (Runs.reaches_run_get _) .start

end World

end Webshelf
