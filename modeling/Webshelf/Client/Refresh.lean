import Webshelf.Client.AuthState

/-!
# Are refreshes coalesced?

A call of `try_refresh_async` that finds a refresh in progress waits for it, and then tells from
the expiry of the JWT whether it succeeded. The expiry may be that of a refresh before, or of
another one since.
-/

namespace Webshelf

namespace Web

/-- The POST of a refresh is in flight. -/
def WebCall.isPosted : WebCall → Bool
  | .tryRefresh _ .posted => true
  | _ => false

/-- The number of the refresh that a call waits for. -/
def WebCall.awaits : WebCall → Option Nat
  | .tryRefresh _ (.waiting _ awaited) => some awaited
  | _ => none

/-- At most one POST is in flight, and a call that stopped waiting because the refresh had ended
has returned how it came out. -/
structure Coalesced (s : WebState) : Prop where
  inFlight : s.threads.countP WebCall.isPosted ≤ 1
  outcome : ∀ (n : Nat) (r : Bool) (k : Nat),
    s.threads[n]? = some (WebCall.finished (.refreshed r (some k))) → s.shared.results[k]? = some r

/-- Only `try_refresh_async` is called. -/
def OnlyRefreshes : WebLabel → Prop
  | .begin (.entry .tryRefreshAsync) | .step _ _ | .surround _ => True
  | .begin _ => False

/-- The expiry tells how the refresh comes out: a JWT that has been refreshed lasts longer than
the leeway, and after an error the old one does not. -/
def AuthState.Telling (s : AuthState) : Except ClientError RefreshResponse → Prop
  | .ok resp => jwtExpiryLeewaySecs < resp.expiresIn
  | .error _ => s.fresh = false

/-- As long as calls wait: the expiry tells how a refresh comes out; a refresh comes out as those
that calls still wait for; and with none in progress no JWT comes to or from its expiry. -/
def Telling (s : WebState) : WebLabel → Prop
  | .step _ (.refresh r) => ∀ call ∈ s.threads, ∀ k ∈ call.awaits,
    s.shared.Telling r ∧ (k < s.shared.results.length → s.shared.results[k]? = some r.isOk)
  | .surround (.clock now) => s.shared.refreshing = false → ∀ call ∈ s.threads,
    call.awaits.isSome = true → { s.shared with nowUnixSecs := now }.fresh = s.shared.fresh
  | _ => True

variable {decode : Decode} {s a : AuthState} {call q : WebCall} {input : WebInput}
  {caller : Caller} {w w' : WebState} {l : WebLabel}

/-! ### One POST at a time -/

/-- A step of a call sets `refreshing` exactly if its POST is in flight after it. -/
def Accounted (s : AuthState) (r : AuthState × WebCall) : Prop :=
  r.1.refreshing.toNat = s.refreshing.toNat + r.2.isPosted.toNat

theorem accounted_tryRefresh : Accounted s (s.tryRefresh caller) := by
  unfold AuthState.tryRefresh
  split
  · rfl
  · rename_i h
    simp [Accounted, WebCall.isPosted, h]

theorem accounted_afterRefresh {r : Bool} {ended : Option Nat} :
    Accounted s (s.afterRefresh r ended caller) := by
  unfold AuthState.afterRefresh
  split
  · rfl
  · split <;> rfl
  · split <;> rfl

theorem accounted_wake {round awaited : Nat} : Accounted s (s.wake caller round awaited) := by
  unfold AuthState.wake
  split
  · exact accounted_afterRefresh
  · split
    · rfl
    · exact accounted_afterRefresh

theorem accounted_restore : Accounted s s.restore := by
  unfold AuthState.restore
  dsimp only
  split
  · rfl
  · split
    · exact accounted_tryRefresh
    · rfl

theorem accounted_restoreAnswered {expiresAt : Nat} {r : Except ClientError UserResponse} :
    Accounted s (s.restoreAnswered expiresAt r) := by
  unfold AuthState.restoreAnswered
  split
  · rfl
  · split
    · exact accounted_tryRefresh
    · rfl

theorem refreshing_restoreAnsweredAgain {r : Except ClientError UserResponse} :
    (s.restoreAnsweredAgain decode r).refreshing = s.refreshing := by
  unfold AuthState.restoreAnsweredAgain
  split
  · rfl
  · split <;> rfl

theorem accounted_loginGotMe {resp : LoginResponse} {r : Except ClientError UserResponse} :
    Accounted s (s.loginGotMe resp r) := by
  unfold AuthState.loginGotMe
  split
  · rfl
  · split <;> rfl

theorem refreshing_swapToken {newToken : String} :
    (s.swapToken decode newToken).refreshing = s.refreshing := by
  unfold AuthState.swapToken
  split
  · rfl
  · split
    · rfl
    · dsimp only
      split <;> rfl

theorem accounted_enter {e : Entry} : Accounted s (s.enter decode e) := by
  cases e with
  | login | logout | logoutAsync => rfl
  | restoreFromStorageAsync => exact accounted_restore
  | tryRefreshAsync => exact accounted_tryRefresh
  | swapToken newToken =>
    simp [Accounted, AuthState.enter, refreshing_swapToken, WebCall.isPosted]

theorem refreshing_refreshAnswered {r : Except ClientError RefreshResponse} :
    (s.refreshAnswered r).refreshing = false := by
  cases r <;> rfl

/-- `refreshing` is set for as long as the POST of a call is in flight. -/
theorem resume_posted {r : AuthState × WebCall}
    (hposted : call.isPosted = true → s.refreshing = true)
    (hstep : s.resume decode call input = some r) :
    r.1.refreshing.toNat + call.isPosted.toNat = s.refreshing.toNat + r.2.isPosted.toNat := by
  unfold AuthState.resume at hstep
  split at hstep
  · cases hstep
    exact accounted_enter
  · cases hstep
    rfl
  · cases hstep
    rfl
  · cases hstep
    exact accounted_loginGotMe
  · cases hstep
    exact accounted_restoreAnswered
  · cases hstep
    exact congrArg Bool.toNat refreshing_restoreAnsweredAgain
  · rename_i caller r
    have hafter := @accounted_afterRefresh (s.refreshAnswered r) caller r.isOk none
    cases hstep
    rw [Accounted, refreshing_refreshAnswered] at hafter
    rw [hafter, hposted rfl, Nat.add_comm]
    simp [WebCall.isPosted]
  · cases hstep
    exact accounted_wake
  · cases hstep
    rfl
  · cases hstep

/-- As many POSTs are in flight as `refreshing` says. -/
def InFlight (s : WebState) : Prop :=
  s.threads.countP WebCall.isPosted = s.shared.refreshing.toNat

theorem inFlight_step (h : InFlight w) (hstep : Threads.step (web decode) w l = some w') :
    InFlight w' := by
  obtain ⟨p, rfl, hp, rfl⟩ | ⟨n, input, call, a, q, rfl, hcall, hnext, rfl⟩ |
    ⟨e, a, rfl, he, rfl⟩ := Threads.step_cases hstep
  · have hentry : p.isPosted = false := by
      cases p with
      | entry => rfl
      | _ => cases hp
    simpa [InFlight, List.countP_append, hentry] using h
  · have hposted : call.isPosted = true → w.shared.refreshing = true := by
      intro hc
      have hpos : 0 < w.threads.countP WebCall.isPosted :=
        List.countP_pos_iff.mpr ⟨call, List.mem_of_getElem? hcall, hc⟩
      rw [h] at hpos
      cases hr : w.shared.refreshing with
      | true => rfl
      | false => simp [hr] at hpos
    have hstep := resume_posted hposted hnext
    have hcount := Threads.countP_set_add (q := q) WebCall.isPosted hcall
    unfold InFlight at h ⊢
    cases hc : call.isPosted <;> cases hq : q.isPosted <;> simp [hc, hq] at hstep hcount <;>
      dsimp only <;> omega
  · cases he
    cases e <;> exact h

/-- No two POSTs are ever in flight, whatever is called. -/
theorem one_post_in_flight (hidle : w.shared.refreshing = false) (hnone : w.threads = [])
    (h : Runs.Reaches (Threads.step (web decode)) Runs.Free w w') :
    w'.threads.countP WebCall.isPosted ≤ 1 := by
  have hflight : InFlight w' := by
    apply h.invariant (I := InFlight)
    · simp [InFlight, hidle, hnone]
    · intro s l s' hs _ hstep
      exact inFlight_step hs hstep
  rw [hflight]
  exact Bool.toNat_le _

/-! ### What the calls that wait return -/

/-- What holds of a call of `try_refresh_async`: the refresh it waits for is in progress or has
ended, and in the second case the expiry tells how it came out. -/
def Kept (s : AuthState) (_ : Nat) : WebCall → Prop
  | .entry e => e = .tryRefreshAsync
  | .tryRefresh caller .posted => caller = .itself
  | .tryRefresh caller (.waiting _ awaited) => caller = .itself ∧ awaited ≤ s.results.length ∧
    (s.refreshing = false → s.results[awaited]? = some s.fresh)
  | .finished (.refreshed r ended) => ∀ k, ended = some k → s.results[k]? = some r
  | .finished _ => True
  | _ => False

theorem Kept.waits {n : Nat} (h : Kept s n call) : ∀ k ∈ call.awaits,
    k ≤ s.results.length ∧ (s.refreshing = false → s.results[k]? = some s.fresh) := by
  intro k hk
  cases call with
  | tryRefresh caller phase =>
    cases phase with
    | posted => cases hk
    | waiting round awaited =>
      cases hk
      exact h.2
  | _ => cases hk

/-- A call needs nothing of the shared state but what it waits for. -/
theorem Kept.of_results {n : Nat} (h : Kept s n call) (hresults : s.results <+: a.results)
    (hwaits : ∀ k ∈ call.awaits, a.refreshing = false → a.results[k]? = some a.fresh) :
    Kept a n call := by
  have hget {k : Nat} {r : Bool} (hk : s.results[k]? = some r) : a.results[k]? = some r := by
    obtain ⟨hlt, rfl⟩ := List.getElem?_eq_some_iff.mp hk
    obtain ⟨t, ht⟩ := hresults
    rw [← ht, List.getElem?_append_left hlt, hk]
  cases call with
  | tryRefresh caller phase =>
    cases phase with
    | posted => exact h
    | waiting round awaited =>
      exact ⟨h.1, Nat.le_trans h.2.1 hresults.length_le, hwaits awaited rfl⟩
  | finished r =>
    cases r with
    | refreshed r ended =>
      intro k hk
      exact hget (h k hk)
    | unit | login => trivial
  | entry e => exact h
  | loginPosted | loginGetMe | restoreGetMe | restoreGetMeAgain | logoutPosted => exact h

theorem fresh_refreshAnswered {r : Except ClientError RefreshResponse} (h : s.Telling r) :
    (s.refreshAnswered r).fresh = r.isOk := by
  cases r with
  | error err => exact h
  | ok resp =>
    have hlong : jwtExpiryLeewaySecs < resp.expiresIn := h
    simp [AuthState.fresh, AuthState.refreshAnswered, AuthState.saveToken, AuthState.saveJwt,
      AuthState.expired, Except.isOk, Except.toBool, hlong]

theorem results_refreshAnswered {r : Except ClientError RefreshResponse} :
    (s.refreshAnswered r).results = s.results ++ [r.isOk] := by
  cases r <;> rfl

/-- After an answer that the expiry tells, it tells it to every call that waits. -/
theorem answered_waits {n : Nat} {r : Except ClientError RefreshResponse} (h : Kept s n call)
    (htelling : ∀ k ∈ call.awaits,
      s.Telling r ∧ (k < s.results.length → s.results[k]? = some r.isOk)) :
    ∀ k ∈ call.awaits,
      (s.refreshAnswered r).results[k]? = some (s.refreshAnswered r).fresh := by
  intro k hk
  obtain ⟨htell, hsame⟩ := htelling k hk
  have hle := (h.waits k hk).1
  rw [fresh_refreshAnswered htell, results_refreshAnswered]
  rcases Nat.lt_or_eq_of_le hle with hlt | rfl
  · rw [List.getElem?_append_left hlt]
    exact hsame hlt
  · simp

/-- A step of such a call, and all it does to the others. -/
theorem kept_resume {n : Nat} (h : Kept s n call)
    (hstep : s.resume decode call input = some (a, q)) :
    Kept a n q ∧ (a = s ∨ a = { s with refreshing := true } ∨
      ∃ r, input = .refresh r ∧ a = s.refreshAnswered r) := by
  unfold AuthState.resume at hstep
  split at hstep
  · obtain rfl : _ = Entry.tryRefreshAsync := h
    simp only [AuthState.enter, AuthState.tryRefresh] at hstep
    split at hstep
    · rename_i hrefreshing
      cases hstep
      refine ⟨⟨rfl, Nat.le_refl _, ?_⟩, .inl rfl⟩
      intro hidle
      simp [hrefreshing] at hidle
    · cases hstep
      exact ⟨rfl, .inr (.inl rfl)⟩
  · cases h
  · cases h
  · cases h
  · cases h
  · cases h
  · rename_i r
    obtain rfl : _ = Caller.itself := h
    cases hstep
    refine ⟨?_, .inr (.inr ⟨r, rfl, rfl⟩)⟩
    intro k hk
    cases hk
  · obtain ⟨rfl, hle, hfresh⟩ := h
    have hwake := Option.some.inj hstep
    unfold AuthState.wake at hwake
    split at hwake
    · rename_i hidle
      cases hwake
      refine ⟨?_, .inl rfl⟩
      intro k hk
      cases hk
      apply hfresh
      simpa using hidle
    · split at hwake
      · cases hwake
        exact ⟨⟨rfl, hle, hfresh⟩, .inl rfl⟩
      · cases hwake
        refine ⟨?_, .inl rfl⟩
        intro k hk
        cases hk
  · cases h
  · cases hstep

theorem kept_step (h : Threads.Holds (fun _ => True) Kept w) (honly : OnlyRefreshes l)
    (htelling : Telling w l) (hstep : Threads.step (web decode) w l = some w') :
    Threads.Holds (fun _ => True) Kept w' := by
  refine h.step hstep ?_ ?_ ?_
  · rintro p rfl _
    cases p with
    | entry e =>
      cases e with
      | tryRefreshAsync => rfl
      | _ => cases honly
    | _ => cases honly
  · rintro n input call a q rfl hcall hkept hnext
    obtain ⟨hq, rfl | rfl | ⟨r, rfl, rfl⟩⟩ := kept_resume hkept hnext
    · refine ⟨trivial, hq, ?_⟩
      intro k other _ _ hother
      exact hother
    · refine ⟨trivial, hq, ?_⟩
      intro k other _ _ hother
      exact hother.of_results List.prefix_rfl (by simp)
    · refine ⟨trivial, hq, ?_⟩
      intro k other _ hk hother
      apply hother.of_results
      · rw [results_refreshAnswered]
        exact List.prefix_append _ _
      · intro i hi _
        exact answered_waits hother (htelling other (List.mem_of_getElem? hk)) i hi
  · rintro e a rfl he
    cases he
    refine ⟨trivial, ?_⟩
    intro k other hk hother
    cases e with
    | cookie expCookie =>
      refine hother.of_results List.prefix_rfl ?_
      intro i hi
      exact (hother.waits i hi).2
    | clock now =>
      refine hother.of_results List.prefix_rfl ?_
      intro i hi hidle
      have hawaits : other.awaits.isSome = true := by rw [Option.mem_def.mp hi]; rfl
      have hclock := htelling hidle other (List.mem_of_getElem? hk) hawaits
      exact ((hother.waits i hi).2 hidle).trans (congrArg some hclock.symm)

/-- In every run of calls of `try_refresh_async` in which the expiry tells how refreshes come
out, at most one POST is in flight, and who has waited for a refresh returns how it came out. -/
theorem refreshes_coalesced (decode : Decode) (s : AuthState) (w : WebState)
    (hrun : Runs.Reaches (Threads.step (web decode)) (fun w l => OnlyRefreshes l ∧ Telling w l)
      ⟨{ s with refreshing := false }, []⟩ w) : Coalesced w := by
  have hkept : Threads.Holds (fun _ => True) Kept w := by
    apply hrun.invariant (I := Threads.Holds (fun _ => True) Kept)
    · exact ⟨trivial, by simp⟩
    · rintro s l s' hs ⟨honly, htelling⟩ hstep
      exact kept_step hs honly htelling hstep
  constructor
  · exact one_post_in_flight rfl rfl hrun.free
  · intro n r k hn
    exact hkept.thread n _ hn k rfl

instance : Decidable (OnlyRefreshes l) :=
  match l with
  | .begin (.entry .tryRefreshAsync) | .step _ _ | .surround _ => .isTrue trivial
  | .begin (.entry .login) | .begin (.entry .restoreFromStorageAsync)
  | .begin (.entry (.swapToken _)) | .begin (.entry .logout) | .begin (.entry .logoutAsync)
  | .begin .loginPosted | .begin (.loginGetMe _) | .begin (.restoreGetMe _)
  | .begin .restoreGetMeAgain | .begin (.tryRefresh _ _) | .begin .logoutPosted
  | .begin (.finished _) => .isFalse id

instance {r : Except ClientError RefreshResponse} : Decidable (s.Telling r) :=
  match r with
  | .ok resp => inferInstanceAs (Decidable (jwtExpiryLeewaySecs < resp.expiresIn))
  | .error _ => inferInstanceAs (Decidable (s.fresh = false))

instance : Decidable (Telling w l) := by
  unfold Telling
  split <;> infer_instance

/-! ### Two calls -/

/-- One call refreshes, the other one waits for it. -/
def twoCalls : List WebLabel :=
  [.begin (.entry .tryRefreshAsync), .begin (.entry .tryRefreshAsync), .step 0 .run, .step 1 .run]

theorem two_calls_succeed : Coalesced
    ⟨{ token := some "jwt", tokenExpiresAt := some 60, sessionJwt := some "jwt",
       expCookie := some 60, results := [true] },
      [.finished (.refreshed true none), .finished (.refreshed true (some 0))]⟩ :=
  refreshes_coalesced (fun _ => none) {} _
    (@Runs.reaches_run _ _ _ _ _ _ _ (twoCalls ++
      [.step 0 (.refresh (.ok ⟨"jwt", 60, 90⟩)), .step 1 .woken]) rfl)

/-- The JWT has a minute left. -/
def minuteLeft : AuthState := { tokenExpiresAt := some 60 }

/-- The first call gets an error, the second one finds that the JWT has not expired. -/
theorem failure_taken_for_success : ∃ w,
    Runs.Reaches (Threads.step (web fun _ => none)) (fun _ l => OnlyRefreshes l)
      ⟨{ minuteLeft with refreshing := false }, []⟩ w ∧ ¬ Coalesced w := by
  refine ⟨_, @Runs.reaches_run _ _ _ _ _ _ _ (twoCalls ++
    [.step 0 (.refresh (.error (.network "Request timed out"))), .step 1 .woken]) rfl, ?_⟩
  intro h
  exact absurd (h.outcome 1 true 0 rfl) (by decide)

end Web

end Webshelf
