import Webshelf.Server.Sound

/-!
# The history of a run

Every event is older than the step that comes next, and is the work of a call
that has left its first statement behind.
-/

namespace Webshelf

/-- The call whose statement left the event. -/
def Event.call : Event → CallId
  | .changed c _ | .codeCompared c _ _ _ | .passwordReplaced c _ _ _ | .resetCommitted c _ _
  | .balanceCommitted c _ _ | .roleCommitted c _ | .codeMailed c _ _ _ | .codeAccepted c _ _ _
  | .loginRead c _ | .tokenStored c _ _ | .tokenRotated c _ _ _ _ _
  | .revocationStarted c _ _ | .revoked c _ _ | .jwtIssued c _ | .versionChecked c _ _ _ _ => c

namespace Call

variable {cfg : Settings} {env : Env} {before : Call} {s : Stmt} {c : CallId}
  {k : Except DbErr s.Reply → Call} {reply : Except DbErr s.Reply} {db db' : Db} {e : Event}

theorem left_initial (issues : before.next cfg env = some ⟨s, k⟩) : (k reply).initial = false := by
  cases before with
  | createUser q =>
    cases q with
    | insert =>
      rcases insert_issues issues with rfl | ⟨_, _, rfl⟩
      all_goals
        simp only [next, Webshelf.createUser] at issues
        (repeat' split at issues) <;> cases issues
      · rfl
      · rfl
      · cases reply <;> rfl
    | invalidate | done =>
      cases issues
      try (dsimp only; split <;> rfl)
  | requestReset q | resendCode q | sendVerification q | autoVerify q | verifyEmail q
  | resetPassword q | updateUser q | changePassword q | revokeAll q | login q | wxLogin q
  | rotate q | logout q | getUser q | setOpenid q | checkTokenVersion q | deleteUser q
  | modifyBalance q =>
    cases q <;> cases issues
    all_goals
      dsimp only [deleted]
      (repeat' split) <;> rfl

theorem call_of_observe {applied : Bool} {after : Call}
    (h : e ∈ observe c db db' before applied after) : e.call = c := by
  rcases mem_observe.mp h with ⟨u, _, rfl⟩ | ⟨_, he⟩ | he
  · rfl
  · cases Call.mem_events he <;> rfl
  · rcases mem_returned he with ⟨_, rfl, _⟩ | ⟨_, _, _, rfl⟩
    · rfl
    · rfl

end Call

namespace World

structure Recorded (w : World) : Prop where
  past : ∀ t e, (t, e) ∈ w.trace → t < w.ticks
  acted : ∀ t e, (t, e) ∈ w.trace → ∃ call, w.calls[e.call]? = some call ∧ call.initial = false

variable {cfg : Settings} {w w' : World} {l : Label} {c : CallId} {before : Call}

theorem Initial.recorded (h0 : w.Initial) : w.Recorded where
  past t e he := by rw [h0.trace] at he; cases he
  acted t e he := by rw [h0.trace] at he; cases he

theorem Recorded.step (hR : w.Recorded) (ht : Transition cfg w l w') : w'.Recorded := by
  cases ht with
  | invoke start =>
    exact {
      past := fun t e he => Nat.lt_succ_of_lt (hR.past t e he)
      acted := fun t e he => by
        obtain ⟨call, hc, hi⟩ := hR.acted t e he
        exact ⟨call, join_old hc, hi⟩ }
  | expire => exact ⟨fun t e he => Nat.lt_succ_of_lt (hR.past t e he), hR.acted⟩
  | @exec c _ _ _ _ _ _ running issues ran =>
    exact {
      past := fun t e hmem => by
        rcases mem_after.mp hmem with he | ⟨rfl, _⟩
        · exact Nat.lt_succ_of_lt (hR.past t e he)
        · exact Nat.lt_succ_self _
      acted := fun t e hmem => by
        rcases mem_after.mp hmem with he | ⟨rfl, he⟩
        · obtain ⟨call, hc, hi⟩ := hR.acted t e he
          by_cases ho : e.call = c
          · rw [ho]
            exact ⟨_, after_self running, Call.left_initial issues⟩
          · exact ⟨call, by rw [after_other ho]; exact hc, hi⟩
        · rw [Call.call_of_observe he]
          exact ⟨_, after_self running, Call.left_initial issues⟩ }

/-- A call that has not issued its first statement has left nothing in the history. -/
theorem Recorded.not_initial (hR : w.Recorded) {t : Nat} {e : Event} (he : (t, e) ∈ w.trace)
    (hc : w.calls[e.call]? = some before) : before.initial = false := by
  obtain ⟨call, hc', hi⟩ := hR.acted t e he
  rw [hc] at hc'
  cases hc'
  exact hi

theorem Recorded.joined (hR : w.Recorded) {t : Nat} {e : Event} {call call' : Call}
    (he : (t, e) ∈ w.trace) (hc : (w.join call).calls[e.call]? = some call') :
    w.calls[e.call]? = some call' := by
  obtain ⟨call₀, hc₀, _⟩ := hR.acted t e he
  rw [join_old hc₀] at hc
  exact hc ▸ hc₀

end World

end Webshelf
