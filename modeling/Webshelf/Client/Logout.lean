import Webshelf.Client.AuthState

/-!
# Is a logout final?

A call that awaits an answer while `logout` clears the session goes on with the answer as if
nothing had happened.
-/

namespace Webshelf

namespace Web

/-- Nothing is left of the session. -/
structure Cleared (s : AuthState) : Prop where
  token : s.token = none
  expiry : s.tokenExpiresAt = none
  storage : s.sessionJwt = none

/-- The calls of the functions that may begin a session. -/
def Entry.opens : Entry → Bool
  | .login | .restoreFromStorageAsync | .tryRefreshAsync | .swapToken _ => true
  | .logout | .logoutAsync => false

/-- A call of such a function that has not run yet. -/
def WebCall.opens : WebCall → Bool
  | .entry e => e.opens
  | _ => false

/-- A call is resumed with an answer that makes it write to the session: a token, or for
`get_me` an error that does not look like a missing session. -/
def WebCall.reopenedBy : WebCall → WebInput → Bool
  | .loginPosted, .login r => r.isOk
  | .tryRefresh _ .posted, .refresh r => r.isOk
  | .restoreGetMe _, .getMe (.error err) => !isAuthFailure err
  | _, _ => false

/-- A call is resumed and runs `logout`. -/
def WebCall.LogsOut (decode : Decode) (s : AuthState) : WebCall → WebInput → Prop
  | .entry .logout, .run | .logoutPosted, .logout _ => True
  | .entry (.swapToken newToken), .run =>
    ∀ payload user, parseToken decode newToken = some (payload, user) →
      s.expired payload.exp = true
  | _, _ => False

/-- The step runs `logout`. -/
def LogoutStep (decode : Decode) (s : WebState) (l : WebLabel) : Prop :=
  ∃ n input call, l = .step n input ∧ s.threads[n]? = some call ∧ call.LogsOut decode s.shared input

/-- The step starts no call that may begin a session. -/
def NoneOpened (s : WebState) : WebLabel → Prop
  | .step n _ => s.threads[n]?.all (fun call => !call.opens) = true
  | _ => True

/-- The step does not resume a call with an answer that makes it write to the session. -/
def NoneReopened (s : WebState) : WebLabel → Prop
  | .step n input => s.threads[n]?.all (fun call => !call.reopenedBy input) = true
  | _ => True

variable {decode : Decode} {s a : AuthState} {call q : WebCall} {input : WebInput}
  {caller : Caller}

theorem cleared_logout : Cleared s.logout := ⟨rfl, rfl, rfl⟩

theorem Cleared.of_eq (h : Cleared s) (ht : a.token = s.token)
    (he : a.tokenExpiresAt = s.tokenExpiresAt) (hs : a.sessionJwt = s.sessionJwt) : Cleared a :=
  ⟨ht.trans h.token, he.trans h.expiry, hs.trans h.storage⟩

theorem cleared_of_logsOut (h : call.LogsOut decode s input)
    (hstep : s.resume decode call input = some (a, q)) : Cleared a := by
  unfold WebCall.LogsOut at h
  split at h
  · cases hstep
    exact cleared_logout
  · cases hstep
    exact cleared_logout
  · rename_i newToken
    cases hstep
    unfold AuthState.swapToken
    split
    · exact cleared_logout
    · rename_i payload user hparse
      rw [if_pos (h payload user hparse)]
      exact cleared_logout
  · cases h

theorem Cleared.tryRefresh (h : Cleared s) : Cleared (s.tryRefresh caller).1 := by
  unfold AuthState.tryRefresh
  split
  · exact h
  · exact h.of_eq rfl rfl rfl

theorem Cleared.afterRefresh (h : Cleared s) {r : Bool} {ended : Option Nat} :
    Cleared (s.afterRefresh r ended caller).1 := by
  unfold AuthState.afterRefresh
  split
  · exact h
  · split
    · exact h
    · exact ⟨h.token, h.expiry, rfl⟩
  · split
    · exact h
    · exact ⟨rfl, rfl, rfl⟩

theorem not_cleared_of_token {token : String} (h : s.token = some token) : ¬ Cleared s := by
  intro hs
  cases h.symm.trans hs.token

theorem refreshAnswered_cleared_iff (h : Cleared s) {r : Except ClientError RefreshResponse}
    {ended : Option Nat} :
    Cleared ((s.refreshAnswered r).afterRefresh r.isOk ended caller).1 ↔ r.isOk = false := by
  cases r with
  | error err =>
    have hs : Cleared (s.refreshAnswered (.error err)) := h.of_eq rfl rfl rfl
    exact iff_of_true hs.afterRefresh rfl
  | ok resp =>
    refine iff_of_false ?_ (by simp [Except.isOk, Except.toBool])
    cases caller <;> exact not_cleared_of_token rfl

theorem restoreAnswered_cleared_iff (h : Cleared s) {expiresAt : Nat}
    {r : Except ClientError UserResponse} :
    Cleared (s.restoreAnswered expiresAt r).1 ↔
      (WebCall.restoreGetMe expiresAt).reopenedBy (.getMe r) = false := by
  cases r with
  | ok profile => exact iff_of_true (h.of_eq rfl rfl rfl) rfl
  | error err =>
    cases hauth : isAuthFailure err with
    | true =>
      refine iff_of_true ?_ (by simp [WebCall.reopenedBy, hauth])
      rw [AuthState.restoreAnswered, if_pos hauth]
      exact h.tryRefresh
    | false =>
      refine iff_of_false ?_ (by simp [WebCall.reopenedBy, hauth])
      rw [AuthState.restoreAnswered, if_neg (by simp [hauth])]
      intro hs
      cases hs.expiry

theorem Cleared.restoreAnsweredAgain (h : Cleared s) {r : Except ClientError UserResponse} :
    Cleared (s.restoreAnsweredAgain decode r) := by
  cases r with
  | ok profile => exact h.of_eq rfl rfl rfl
  | error err =>
    unfold AuthState.restoreAnsweredAgain
    dsimp only
    split
    · exact ⟨rfl, rfl, rfl⟩
    · exact h.of_eq rfl rfl rfl

theorem Cleared.loginGotMe (h : Cleared s) {resp : LoginResponse}
    {r : Except ClientError UserResponse} : Cleared (s.loginGotMe resp r).1 := by
  cases r with
  | ok profile => exact h.of_eq rfl rfl rfl
  | error err =>
    unfold AuthState.loginGotMe
    dsimp only
    split
    · exact cleared_logout
    · exact h

theorem Cleared.wake (h : Cleared s) {round awaited : Nat} :
    Cleared (s.wake caller round awaited).1 := by
  unfold AuthState.wake
  split
  · exact h.afterRefresh
  · split
    · exact h
    · exact h.afterRefresh

/-- Once the session is cleared, a step of a call leaves it so exactly where the answer is not
one that makes it write to the session. -/
theorem cleared_resume {r : AuthState × WebCall} (h : Cleared s) (hopens : call.opens = false)
    (hstep : s.resume decode call input = some r) :
    Cleared r.1 ↔ call.reopenedBy input = false := by
  unfold AuthState.resume at hstep
  split at hstep
  · rename_i e
    cases hstep
    refine iff_of_true ?_ rfl
    cases e with
    | logout => exact cleared_logout
    | logoutAsync => exact h
    | login | restoreFromStorageAsync | tryRefreshAsync | swapToken => cases hopens
  · cases hstep
    refine iff_of_false (not_cleared_of_token rfl) ?_
    simp [WebCall.reopenedBy, Except.isOk, Except.toBool]
  · cases hstep
    exact iff_of_true h rfl
  · cases hstep
    exact iff_of_true h.loginGotMe rfl
  · cases hstep
    exact restoreAnswered_cleared_iff h
  · cases hstep
    exact iff_of_true h.restoreAnsweredAgain rfl
  · cases hstep
    exact refreshAnswered_cleared_iff h
  · cases hstep
    exact iff_of_true h.wake rfl
  · cases hstep
    exact iff_of_true cleared_logout rfl
  · cases hstep

/-! ### Runs after a logout -/

section
variable {w w' t u : WebState} {l : WebLabel}

theorem cleared_step (h : Cleared w.shared) (hopened : NoneOpened w l)
    (hstep : Threads.step (web decode) w l = some w') :
    Cleared w'.shared ↔ NoneReopened w l := by
  obtain ⟨p, rfl, _, rfl⟩ | ⟨n, input, call, a, q, rfl, hcall, hnext, rfl⟩ |
    ⟨e, a, rfl, he, rfl⟩ := Threads.step_cases hstep
  · exact iff_of_true h trivial
  · have hopens : call.opens = false := by simpa [NoneOpened, hcall] using hopened
    simpa [NoneReopened, hcall] using cleared_resume h hopens hnext
  · refine iff_of_true ?_ trivial
    cases he
    cases e <;> exact h.of_eq rfl rfl rfl

theorem cleared_of_logoutStep (h : LogoutStep decode w l)
    (hstep : Threads.step (web decode) w l = some w') : Cleared w'.shared := by
  obtain ⟨n, input, call, rfl, hcall, hlogsOut⟩ := h
  obtain ⟨p, hl, _, _⟩ | ⟨n', input', call', a, q, hl, hcall', hnext, rfl⟩ | ⟨e, a, hl, _, _⟩ :=
    Threads.step_cases hstep
  · cases hl
  · cases hl
    cases hcall.symm.trans hcall'
    exact cleared_of_logsOut hlogsOut hnext
  · cases hl

/-- From the step on that runs `logout`, and as long as no call is started that may begin a
session, nothing is left of it; if no call that was suspended is resumed with an answer that
makes it write to the session. -/
theorem logout_final (decode : Decode) (w t u : WebState) (l : WebLabel)
    (hlogout : LogoutStep decode w l) (hstep : Threads.step (web decode) w l = some t)
    (hrun : Runs.Reaches (Threads.step (web decode))
      (fun s l => NoneOpened s l ∧ NoneReopened s l) t u) : Cleared u.shared := by
  apply hrun.invariant (I := fun s => Cleared s.shared)
  · exact cleared_of_logoutStep hlogout hstep
  · rintro s l s' hs ⟨hopened, hreopened⟩ hnext
    exact (cleared_step hs hopened hnext).mpr hreopened

end

/-! ### A refresh that a logout overtakes -/

/-- A user has logged in and the POST of a refresh is in flight when `logout` is called. -/
def refreshSent : WebState :=
  ⟨{ token := some "jwt", user := some ⟨"1", "user", "Ann", "ann@example.com", 0⟩,
     tokenExpiresAt := some 3600, refreshing := true, sessionJwt := some "jwt",
     expCookie := some 3600 },
    [.finished (.login (.ok ⟨"jwt", 3600, some 7200⟩)), .tryRefresh .itself .posted,
      .entry .logout]⟩

theorem reaches_refreshSent :
    Runs.Reaches (Threads.step (web fun _ => none)) Runs.Free ⟨{}, []⟩ refreshSent :=
  @Runs.reaches_run _ _ _ _ _ _ _ [.begin (.entry .login), .step 0 .run,
    .step 0 (.login (.ok ⟨"jwt", 3600, some 7200⟩)),
    .step 0 (.getMe (.ok ⟨"1", "ann@example.com", "Ann", "user", 0⟩)),
    .begin (.entry .tryRefreshAsync), .step 1 .run, .begin (.entry .logout)] rfl

def loggedOut : WebState :=
  ⟨refreshSent.shared.logout, refreshSent.threads.set 2 (.finished .unit)⟩

theorem logout_final_failed : Cleared
    (loggedOut.shared.refreshAnswered (.error (.network "Request timed out"))) :=
  logout_final (fun _ => none) refreshSent loggedOut
    ⟨_, loggedOut.threads.set 1 (.finished (.refreshed false none))⟩ (.step 2 .run)
    ⟨2, .run, _, rfl, rfl, trivial⟩ rfl
    (.next .start (l := .step 1 (.refresh (.error (.network "Request timed out"))))
      ⟨rfl, rfl⟩ rfl)

/-- The refresh succeeds after the logout. -/
theorem logout_undone : ∃ u, Runs.Reaches (Threads.step (web fun _ => none)) Runs.Free ⟨{}, []⟩
      refreshSent ∧
    LogoutStep (fun _ => none) refreshSent (.step 2 .run) ∧
    Threads.step (web fun _ => none) refreshSent (.step 2 .run) = some loggedOut ∧
    Runs.Reaches (Threads.step (web fun _ => none)) NoneOpened loggedOut u ∧
    ¬ Cleared u.shared :=
  ⟨⟨loggedOut.shared.refreshAnswered (.ok ⟨"jwt2", 3600, 0⟩),
      loggedOut.threads.set 1 (.finished (.refreshed true none))⟩,
    reaches_refreshSent, ⟨2, .run, _, rfl, rfl, trivial⟩, rfl,
    .next .start (l := .step 1 (.refresh (.ok ⟨"jwt2", 3600, 0⟩))) rfl rfl,
    not_cleared_of_token rfl⟩

end Web

end Webshelf
