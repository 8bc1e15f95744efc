import Webshelf.Sessions.Revocations

/-!
# One refresh token per user

The schema leaves it to the services that a user has one refresh token. A login
deletes the committed ones and inserts its own, a rotation replaces the one it
holds; a token that another call commits between the DELETE and the COMMIT of a
login is not in the snapshot of that DELETE. As long as no token of a user is
committed while another login of the user is between the two, a user has at most
one.
-/

namespace Webshelf

namespace Call

/-- The user whose refresh tokens the login replaces, from its DELETE to its COMMIT, with
the rows the DELETE has still to visit. -/
def supersedes : Call → Option (UserId × List TokenId)
  | login (.revoking user _ _ _ waiting) => some (user.id, waiting)
  | login (.store user _ _ _) | login (.commit user _ _) => some (user.id, [])
  | _ => none

/-- The refresh token the call is about to commit, and its user. -/
def grants : Call → Option (UserId × TokenId)
  | login (.commit user _ stored) => some (user.id, stored)
  | rotate (.commit _ new user) => some (user.id, new)
  | _ => none

/-- Every committed token of the user is deleted by the login, or still to be visited. -/
def Cleared (c : CallId) (h : Heap CallId RefreshToken) (call : Call) : Prop :=
  ∀ u waiting, call.supersedes = some (u, waiting) → ∀ i t, h.committed i = some t →
    t.userId = u → Swept c waiting h i

/-- The row the call has inserted is a token of the user. -/
def Granting (c : CallId) (h : Heap CallId RefreshToken) (call : Call) : Prop :=
  ∀ u i, call.grants = some (u, i) → ∃ t, t.userId = u ∧ h.get i = some (t, .inserted c)

section
variable {cfg : Settings} {env : Env} {before : Call} {s : Stmt} {c o : CallId}
  {k : Except DbErr s.Reply → Call} {reply : Except DbErr s.Reply}
  {h h' : Heap CallId RefreshToken} {i : TokenId} {u : UserId}

theorem grants_of_stores (hs : before.stores = some i) : ∃ u, before.grants = some (u, i) := by
  cases before with
  | login q => cases q <;> cases hs; exact ⟨_, rfl⟩
  | rotate q => cases q <;> cases hs; exact ⟨_, rfl⟩
  | _ => cases hs

/-- The DELETE of a login starts, goes on, or is over and the transaction open. -/
theorem supersedes_step {waiting : List TokenId} (issues : before.next cfg env = some ⟨s, k⟩)
    (hs : TokensStep c s reply h h') (hn : (k reply).supersedes = some (u, waiting)) :
    (waiting = (h.deleteScan c (h.snapshot c fun t => t.userId == u)).1 ∧
        h' = (h.deleteScan c (h.snapshot c fun t => t.userId == u)).2) ∨
      ∃ old, before.supersedes = some (u, old) ∧
        ((waiting = (h.deleteScan c old).1 ∧ h' = (h.deleteScan c old).2) ∨
          waiting = old ∧ ∃ token, h' = h.insert c token) := by
  cases before with
  | login q =>
    cases q with
    | find =>
      cases issues
      dsimp only at hn
      (repeat' split at hn) <;> cases hn
    | revoke =>
      cases issues
      rcases reply with e | rest
      · cases hn
      · have hscan := hs.swept
        cases rest <;> cases hn <;> exact Or.inl hscan
    | revoking user _ _ _ old =>
      cases issues
      rcases reply with e | rest
      · cases hn
      · have hscan := hs.resumed
        cases rest <;> cases hn <;> exact Or.inr ⟨old, rfl, .inl hscan⟩
    | store =>
      cases issues
      cases hs with
      | stay other => cases other
      | fail => cases hn
      | insert =>
        cases hn
        exact Or.inr ⟨[], rfl, .inr ⟨rfl, _, rfl⟩⟩
    | commit =>
      cases issues
      dsimp only at hn
      split at hn <;> cases hn
    | done => cases issues
  | requestReset q | resendCode q | sendVerification q | modifyBalance q | updateUser q
  | autoVerify q | verifyEmail q | resetPassword q | changePassword q | revokeAll q | wxLogin q
  | rotate q | logout q | getUser q | setOpenid q | checkTokenVersion q | createUser q
  | deleteUser q =>
    obtain ⟨k', _, rfl⟩ := Next.map_some issues
    cases hn

theorem Cleared.step (issues : before.next cfg env = some ⟨s, k⟩) (hC : before.Cleared c h)
    (hs : TokensStep c s reply h h') : (k reply).Cleared c h' := by
  intro u waiting hn i t hi hu
  rcases supersedes_step issues hs hn with ⟨rfl, rfl⟩ | ⟨old, hb, ⟨rfl, rfl⟩ | ⟨rfl, token, rfl⟩⟩
  · -- the DELETE sees every committed row its transaction has not deleted
    rw [Heap.committed_deleteScan] at hi
    obtain ⟨st, hg, hst⟩ := Heap.stored_eq_some.mp hi
    by_cases hv : st.visible c = true
    · have hmem : i ∈ h.snapshot c fun t => t.userId == u :=
        Heap.mem_snapshot.mpr ⟨t, st, hg, hv, by simp [hu]⟩
      exact (Heap.deleteScan_dead hmem).symm
    · refine Or.inl (Heap.Dead.deleteScan fun a st' hg' => ?_)
      rw [hg] at hg'
      cases hg'
      cases st with
      | live | locked => exact absurd rfl hv
      | inserted o => exact absurd rfl (hst o)
      | deleted o => simpa [Hold.visible] using hv
  · rw [Heap.committed_deleteScan] at hi
    exact (hC u old hb i t hi hu).scan
  · rw [Heap.committed_insert] at hi
    refine (hC u waiting hb i t hi hu).imp_left ?_
    intro hd
    obtain ⟨st, hg, _⟩ := Heap.stored_eq_some.mp hi
    rw [Heap.Dead, Heap.insert_get_of_ne (Nat.ne_of_lt (Heap.lt_next hg))]
    exact hd

theorem Granting.step (issues : before.next cfg env = some ⟨s, k⟩)
    (hs : TokensStep c s reply h h') : (k reply).Granting c h' := by
  intro u i hn
  cases before with
  | login q =>
    cases q with
    | store =>
      cases issues
      cases hs with
      | stay other => cases other
      | fail => cases hn
      | insert =>
        cases hn
        exact ⟨_, rfl, Heap.insert_get_next⟩
    | find | revoke | revoking | commit =>
      cases issues
      dsimp only [deleted] at hn
      (repeat' split at hn) <;> cases hn
    | done => cases issues
  | rotate q =>
    cases q with
    | store =>
      cases issues
      cases hs with
      | stay other => cases other
      | fail => cases hn
      | insert =>
        cases hn
        exact ⟨_, rfl, Heap.insert_get_next⟩
    | lock | find | delete | deleting | commit | abort =>
      cases issues
      dsimp only [deleted] at hn
      (repeat' split at hn) <;> cases hn
    | done => cases issues
  | requestReset q | resendCode q | sendVerification q | modifyBalance q | updateUser q
  | autoVerify q | verifyEmail q | resetPassword q | changePassword q | revokeAll q | wxLogin q
  | logout q | getUser q | setOpenid q | checkTokenVersion q | createUser q | deleteUser q =>
    obtain ⟨k', _, rfl⟩ := Next.map_some issues
    cases hn

end

end Call

namespace World

/-- No refresh token of a user is committed while another login of the user is between its
DELETE and its COMMIT. -/
def grantsAlone (w : World) : Label → Bool
  | .exec c input =>
    match w.calls[c]?.bind Call.grants with
    | some (u, _) => input.fails || (List.range w.calls.length).all fun o =>
      o == c || ((w.calls[o]?.bind Call.supersedes).map Prod.fst != some u)
    | none => true
  | _ => true

/-- The refresh_tokens table holds at most one row per user. -/
def OneTokenPerUser (w : World) : Prop :=
  ∀ i j t t', w.db.tokens.committed i = some t → w.db.tokens.committed j = some t' →
    t.userId = t'.userId → i = j

structure Single (w : World) : Prop where
  one : w.OneTokenPerUser
  cleared : ∀ (c : CallId) (call : Call), w.calls[c]? = some call → call.Cleared c w.db.tokens
  granting : ∀ (c : CallId) (call : Call), w.calls[c]? = some call → call.Granting c w.db.tokens

variable {cfg : Settings} {w₀ w w' : World} {l : Label} {c : CallId} {before : Call} {s : Stmt}
  {input : Input} {applied : Bool} {k : Except DbErr s.Reply → Call}
  {reply : Except DbErr s.Reply} {db' : Db} {i : TokenId} {t : RefreshToken}

theorem Initial.single (h0 : w.Initial) (hempty : ∀ i, w.db.tokens.get i = none) : w.Single where
  one i j t t' hi := by simp [Heap.committed, hempty, Heap.stored] at hi
  cleared c call hc := by rw [h0.calls] at hc; cases hc
  granting c call hc := by rw [h0.calls] at hc; cases hc

/-- A row that a step commits is the one its call grants; the others were committed before. -/
theorem committed_after (hH : w.Held) (running : w.calls[c]? = some before)
    (ran : w.db.exec c input.fails s = some (db', reply))
    (hi : db'.tokens.committed i = some t) :
    (w.db.tokens.committed i = some t ∧ (s = .commit → s.applied reply = true →
      w.db.tokens.get i ≠ some (t, .deleted c))) ∨
    s = .commit ∧ s.applied reply = true ∧ (∃ u, before.grants = some (u, i)) ∧
      w.db.tokens.get i = some (t, .inserted c) := by
  have hs := Db.exec_tokens ran
  by_cases hc : s = .commit ∧ s.applied reply = true
  · obtain ⟨rfl, ok⟩ := hc
    generalize db'.tokens = h' at hs hi
    cases hs with
    | stay other => cases other
    | fail => cases ok
    | commit =>
      by_cases hins : ∃ a, w.db.tokens.get i = some (a, .inserted c)
      · obtain ⟨a, hg⟩ := hins
        rw [Heap.committed_commit_inserted hg] at hi
        cases hi
        obtain ⟨call, hcall, hst⟩ := hH.inserted i _ c hg
        rw [running] at hcall
        cases hcall
        exact Or.inr ⟨rfl, ok, Call.grants_of_stores hst, hg⟩
      · have hdel : ∀ a, w.db.tokens.get i ≠ some (a, .deleted c) := fun a hg => by
          rw [Heap.committed_commit_deleted hg] at hi
          cases hi
        rw [Heap.committed_commit_other (fun a hg => hins ⟨a, hg⟩) hdel] at hi
        exact Or.inl ⟨hi, fun _ _ => hdel t⟩
  · refine Or.inl ⟨hs.committed_le ?_ hi, fun he ok => absurd ⟨he, ok⟩ hc⟩
    by_cases he : s = .commit
    · subst he
      cases reply with
      | error e => exact Or.inr ⟨e, rfl⟩
      | ok => exact absurd ⟨rfl, rfl⟩ hc
    · exact Or.inl he

/-- The COMMIT that grants a token has deleted the other tokens of the user. -/
theorem Single.replaced {u : UserId} {j : TokenId} (hH : w.Held)
    (hS : w.Single) (running : w.calls[c]? = some before) (hg : before.grants = some (u, j))
    (hi : w.db.tokens.committed i = some t) (hu : t.userId = u) :
    w.db.tokens.get i = some (t, .deleted c) := by
  obtain ⟨st, hget, _⟩ := Heap.stored_eq_some.mp hi
  cases before with
  | login q =>
    cases q <;> cases hg
    rcases hS.cleared c _ running _ [] rfl i t hi hu with hd | hw
    · rw [hget, hd t st hget]
    · cases hw
  | rotate q =>
    cases q <;> cases hg
    obtain ⟨t₀, hu₀, hold⟩ := hH.exchanging c _ running
    have hcom : w.db.tokens.committed _ = some t₀ := Heap.stored_eq_some.mpr ⟨_, hold, nofun⟩
    obtain rfl := hS.one _ _ _ _ hi hcom (hu.trans hu₀.symm)
    rw [hi] at hcom
    cases hcom
    exact hold
  | _ => cases hg

section
variable (hH : w.Held) (hS : w.Single) (running : w.calls[c]? = some before)
  (ran : w.db.exec c input.fails s = some (db', reply))
include hH hS running ran

theorem Single.one_after : ∀ i j t t', db'.tokens.committed i = some t →
    db'.tokens.committed j = some t' → t.userId = t'.userId → i = j := by
  -- a row committed before beside one the step commits would be deleted by it
  have beside {i j : TokenId} {t t' : RefreshToken} {u : UserId}
      (hi : w.db.tokens.committed i = some t) (hd : w.db.tokens.get i ≠ some (t, .deleted c))
      (hj : before.grants = some (u, j)) (hget : w.db.tokens.get j = some (t', .inserted c))
      (hu : t.userId = t'.userId) : False := by
    obtain ⟨t'', hu'', hget'⟩ := hS.granting c before running u j hj
    rw [hget] at hget'
    cases hget'
    exact hd (hS.replaced hH running hj hi (hu.trans hu''))
  intro i j t t' hi hj hu
  rcases committed_after hH running ran hi with ⟨hi, hdi⟩ | ⟨hc, ok, ⟨u, hg⟩, hget⟩ <;>
    rcases committed_after hH running ran hj with ⟨hj, hdj⟩ | ⟨hc', ok', ⟨u', hg'⟩, hget'⟩
  · exact hS.one i j t t' hi hj hu
  · exact (beside hi (hdi hc' ok') hg' hget' hu).elim
  · exact (beside hj (hdj hc ok) hg hget hu.symm).elim
  · rw [hg] at hg'
    cases hg'
    rfl

theorem Single.exec (issues : before.next cfg (input.env w.ticks) = some ⟨s, k⟩)
    (hok : w.grantsAlone (.exec c input) = true) :
    (w.after c before (s.applied reply) (k reply) db').Single where
  one := hS.one_after hH running ran
  cleared o call hcall u waiting hr i t hi hu := by
    have hs := Db.exec_tokens ran
    by_cases ho : o = c
    · subst ho
      rw [after_self running] at hcall
      cases hcall
      exact (hS.cleared o before running).step issues hs u waiting hr i t hi hu
    · rw [after_other ho] at hcall
      rcases committed_after hH running ran hi with ⟨hi, _⟩ | ⟨_, ok, ⟨u', hg⟩, hget⟩
      · obtain ⟨st, hget, _⟩ := Heap.stored_eq_some.mp hi
        exact (hS.cleared o call hcall u waiting hr i t hi hu).other hs ho (Heap.lt_next hget)
      · -- the token would be committed beside the login of `o`
        obtain ⟨t', hu', hget'⟩ := hS.granting c before running u' i hg
        rw [hget] at hget'
        cases hget'
        have hlt := (List.getElem?_eq_some_iff.mp hcall).1
        simp only [grantsAlone, running, Option.bind_some, hg, Db.applied_of_exec ran ok,
          Bool.false_or, List.all_eq_true, List.mem_range] at hok
        have := hok o hlt
        simp [hcall, hr, ho, ← hu, hu'] at this
  granting o call hcall := by
    by_cases ho : o = c
    · subst ho
      rw [after_self running] at hcall
      cases hcall
      exact Call.Granting.step issues (Db.exec_tokens ran)
    · rw [after_other ho] at hcall
      intro u i hg
      obtain ⟨t, hu, hget⟩ := hS.granting o call hcall u i hg
      exact ⟨t, hu, token_other ran hget rfl ho⟩

end

theorem Single.step (hH : w.Held) (hS : w.Single) (hok : w.grantsAlone l = true)
    (ht : Transition cfg w l w') : w'.Single := by
  cases ht with
  | exec running issues ran => exact hS.exec hH running ran issues hok
  | expire => exact ⟨hS.one, hS.cleared, hS.granting⟩
  | @invoke call start =>
    have hidle : call.supersedes = none ∧ call.grants = none := by
      cases call <;> rename_i q <;> cases q <;> first | exact ⟨rfl, rfl⟩ | cases start
    refine ⟨hS.one, ?_, ?_⟩
    · intro c call' hc
      rcases join_calls hc with hc | rfl
      · exact hS.cleared c call' hc
      · intro u waiting hr
        rw [hidle.1] at hr
        cases hr
    · intro c call' hc
      rcases join_calls hc with hc | rfl
      · exact hS.granting c call' hc
      · intro u i hg
        rw [hidle.2] at hg
        cases hg

theorem one_token_per_user (h0 : w₀.Initial) (hempty : ∀ i, w₀.db.tokens.get i = none)
    (h : Runs.Reaches (World.step cfg) (fun w l => w.grantsAlone l = true) w₀ w) :
    w.OneTokenPerUser := by
  have hI : w.Sound ∧ w.Held ∧ w.Single :=
    h.invariant (I := fun w => w.Sound ∧ w.Held ∧ w.Single)
      ⟨h0.sound, h0.held, h0.single hempty⟩ fun _ _ _ ⟨hs, hH, hS⟩ hok hstep =>
        have ht := step_transition hstep
        ⟨hs.step ht, hH.step hs ht, hS.step hH hok ht⟩
  exact hI.2.2.one

/-! ## Two logins -/

def signIn : Label := .invoke (.login (.find ⟨"ada@example.com", "Passw0rd!", true⟩))

/-- Two remember-me logins, one after the other. -/
def loginsOneByOne : List Label :=
  [signIn, .exec 0 {}, .exec 0 {}, .exec 0 {}, .exec 0 {},
    signIn, .exec 1 {}, .exec 1 {}, .exec 1 {}, .exec 1 {}]

/-- Both run their DELETE before either commits its token. -/
def loginsAtOnce : List Label :=
  [signIn, signIn, .exec 0 {}, .exec 1 {}, .exec 0 {}, .exec 1 {}, .exec 0 {}, .exec 1 {},
    .exec 0 {}, .exec 1 {}]

theorem one_token_per_user_alone :
    ((Runs.run (World.step .plain) (fun w l => w.grantsAlone l = true) account
      loginsOneByOne).get (by decide)).OneTokenPerUser :=
  one_token_per_user initial_account (fun _ => rfl) (Runs.reaches_run_get _)

theorem two_tokens_of_user : ∃ w,
    Runs.Reaches (World.step .plain) Runs.Free account w ∧ ¬ w.OneTokenPerUser := by
  let w := (Runs.run (World.step .plain) Runs.Free account loginsAtOnce).get (by decide)
  have hfirst : w.db.tokens.committed 0 = some ⟨1, 3, seconds 7776000, 0⟩ := by decide
  have hsecond : w.db.tokens.committed 1 = some ⟨1, 4, seconds 7776000, 0⟩ := by decide
  exact ⟨w, Runs.reaches_run_get _, fun h => absurd (h 0 1 _ _ hfirst hsecond rfl) (by decide)⟩

end World

end Webshelf
