import Webshelf.Sessions.Revocations
import Webshelf.Users.Versions

/-!
# Revocation against logins

A remember-me login reads the user row, and stores a refresh token in a
transaction it opens afterwards. A revocation deletes the tokens it sees when
its DELETE starts. As long as no such login commits inside a revocation, and no
revocation commits between the read and the COMMIT of such a login, a token
stored by a login that had read the row before a revocation committed is never
exchanged for the new token version.
-/

namespace Webshelf

namespace Call

/-- The user whose row a remember-me login has read, until its COMMIT. -/
def holds : Call → Option UserId
  | login (.revoke user _ _ _) | login (.revoking user _ _ _ _) | login (.store user _ _ _)
  | login (.commit user _ _) => some user.id
  | _ => none

/-- The user a remember-me login is about to commit a refresh token for. -/
def commitsLogin : Call → Option UserId
  | login (.commit user _ _) => some user.id
  | _ => none

/-- The row a rotation has read. -/
def rotates : Call → Option UserModel
  | rotate (.delete _ _ _ _ user) | rotate (.deleting _ _ _ user _) | rotate (.store _ _ _ user)
  | rotate (.commit _ _ user) => some user
  | _ => none

section
variable {cfg : Settings} {env : Env} {before : Call} {s : Stmt} {u : UserId}
  {k : Except DbErr s.Reply → Call} {reply : Except DbErr s.Reply} {m : UserModel}

theorem holds_step (issues : before.next cfg env = some ⟨s, k⟩)
    (hn : (k reply).holds = some u) : before.holds = some u ∨ before.initial = true := by
  cases before with
  | login q =>
    cases q with
    | find => exact Or.inr rfl
    | revoke | revoking | store | commit =>
      cases issues
      dsimp only [deleted] at hn
      split at hn <;> first | exact Or.inl hn | cases hn
    | done => cases issues
  | requestReset q | resendCode q | sendVerification q | modifyBalance q | updateUser q
  | autoVerify q | verifyEmail q | resetPassword q | changePassword q | revokeAll q | wxLogin q
  | rotate q | logout q | getUser q | setOpenid q | checkTokenVersion q | createUser q
  | deleteUser q =>
    obtain ⟨k', _, rfl⟩ := Next.map_some issues
    cases hn

theorem rotates_step (issues : before.next cfg env = some ⟨s, k⟩)
    (hn : (k reply).rotates = some m) : before.rotates = some m ∨
      (∀ u m v, ¬ before.Working u m v) ∧ s.got reply = some m := by
  cases before with
  | rotate q =>
    cases q with
    | find =>
      cases issues
      dsimp only at hn
      split at hn <;> cases hn
      exact Or.inr ⟨fun _ _ _ h => h, rfl⟩
    | lock | delete | deleting | store | commit =>
      cases issues
      dsimp only [deleted] at hn
      split at hn <;> first | exact Or.inl hn | cases hn
    | abort =>
      cases issues
      cases hn
    | done => cases issues
  | requestReset q | resendCode q | sendVerification q | modifyBalance q | updateUser q
  | autoVerify q | verifyEmail q | resetPassword q | changePassword q | revokeAll q | wxLogin q
  | login q | logout q | getUser q | setOpenid q | checkTokenVersion q | createUser q
  | deleteUser q =>
    obtain ⟨k', _, rfl⟩ := Next.map_some issues
    cases hn

theorem not_holds_of_deletes {waiting : List TokenId} (hd : before.deletes = some (u, waiting)) :
    before.holds = none := by
  cases before with
  | login q => cases hd
  | _ => rfl

theorem not_holds_of_revokes (hr : before.revokes = some u) : before.holds = none := by
  cases before with
  | login q => cases hr
  | _ => rfl

theorem commitsLogin_of_stores {i : TokenId} (hh : before.holds = some u)
    (hs : before.stores = some i) : before.commitsLogin = some u := by
  cases before with
  | login q => cases q <;> first | exact hh | cases hs
  | _ => cases hh

theorem idle_login (hi : before.initial = true) :
    before.holds = none ∧ before.commitsRevocation = none ∧ before.deletes = none := by
  cases before <;> rename_i q <;> cases q <;> first | exact ⟨rfl, rfl, rfl⟩ | cases hi

/-- A revocation that is about to commit has nothing left to delete. -/
theorem deletes_of_commits (hc : before.commitsRevocation = some u) :
    before.deletes = some (u, []) := by
  cases before with
  | revokeAll q | changePassword q | resetPassword q =>
    cases q <;> cases hc
    rfl
  | _ => cases hc

theorem locks_of_commits (hc : before.commitsRevocation = some u) :
    before.locks = some u ∨ before = revokeAll (.commit u) := by
  cases before with
  | revokeAll q =>
    cases q <;> cases hc
    exact Or.inr rfl
  | changePassword q | resetPassword q =>
    cases q <;> cases hc
    exact Or.inl rfl
  | _ => cases hc

theorem commits_of_commitsRevocation (issues : before.next cfg env = some ⟨s, k⟩)
    (hc : before.commitsRevocation = some u) : s = .commit := by
  cases before with
  | revokeAll q | changePassword q | resetPassword q =>
    cases q <;> cases hc
    cases issues
    rfl
  | _ => cases hc

end

end Call

namespace World

/-- What stored and exchanged tokens have to do with the users rows. -/
structure Traced (w : World) : Prop where
  stored : ∀ t c u i, (t, Event.tokenStored c u i) ∈ w.trace → u ∈ w.db.ids ∧
    i < w.db.tokens.next ∧ ∀ token st, w.db.tokens.get i = some (token, st) →
      token.userId = u ∧ ∀ o, st = .inserted o → ∃ call, w.calls[o]? = some call ∧
        call.holds = some u
  rotating : ∀ (c : CallId) (call : Call) m, w.calls[c]? = some call → call.rotates = some m →
    w.Since m.id fun m' => m.tokenVersion ≤ m'.tokenVersion
  rotated : ∀ t c old new u role v, (t, Event.tokenRotated c old new u role v) ∈ w.trace →
    w.Since u fun m => v ≤ m.tokenVersion
  exchanged : ∀ t c u i t' c' new u' role v, (t, Event.tokenStored c u i) ∈ w.trace →
    (t', Event.tokenRotated c' i new u' role v) ∈ w.trace → u' = u

variable {cfg : Settings} {w₀ w w' : World} {l : Label} {c c' : CallId} {before : Call} {s : Stmt}
  {input : Input} {applied : Bool} {k : Except DbErr s.Reply → Call}
  {reply : Except DbErr s.Reply} {db' : Db} {i j : TokenId} {u : UserId} {t : Nat}

theorem Initial.traced (h0 : w.Initial) : w.Traced where
  stored t c u i he := by rw [h0.trace] at he; cases he
  rotating c call m hc := by rw [h0.calls] at hc; cases hc
  rotated t c old new u role v he := by rw [h0.trace] at he; cases he
  exchanged t c u i t' c' new u' role v he := by rw [h0.trace] at he; cases he

section
variable (hw : w.Sound) (hH : w.Held) (hT : w.Traced) (running : w.calls[c]? = some before)
  (issues : before.next cfg (input.env w.ticks) = some ⟨s, k⟩)
  (ran : w.db.exec c input.fails s = some (db', reply))
include running issues ran

include hw in
/-- The INSERT of a login takes the next number, for a user who is there. -/
theorem stored_after
    (hmem : (t, Event.tokenStored c' u i) ∈
      (w.after c before (s.applied reply) (k reply) db').trace) :
    (t, Event.tokenStored c' u i) ∈ w.trace ∨ c' = c ∧ before.holds = some u ∧
      (k reply).holds = some u ∧ (∃ m, (w.db.users u).committed = some m) ∧
      i = w.db.tokens.next ∧ ∃ token, token.userId = u ∧
        db'.tokens = w.db.tokens.insert c token := by
  rcases mem_after.mp hmem with he | ⟨_, he⟩
  · exact Or.inl he
  · obtain ⟨ok, hl⟩ := logged_of_observe he nofun nofun nofun
    generalize hk : k reply = call' at hl
    cases hl
    cases issues
    rcases reply with e | i'
    · cases ok
    · cases hk
      obtain ⟨⟨m, hm⟩, rfl, htok⟩ := Db.exec_insertToken ran
      rw [hw.view_eq running fun _ _ h => h] at hm
      exact Or.inr ⟨rfl, rfl, rfl, ⟨m, hm⟩, rfl, _, rfl, htok⟩

include hw hH hT in
theorem Traced.exec : (w.after c before (s.applied reply) (k reply) db').Traced where
  stored t c' u i he := by
    rcases stored_after hw running issues ran he with
      he | ⟨rfl, _, hn, ⟨m, hm⟩, rfl, token, hu, htok⟩
    · obtain ⟨hu, hlt, hrow⟩ := hT.stored t c' u i he
      refine ⟨Db.mem_ids ran hu, Nat.lt_of_lt_of_le hlt (Db.exec_tokens ran).next_le, ?_⟩
      intro token st hg
      change db'.tokens.get i = some (token, st) at hg
      have hstep := (Db.exec_tokens ran).toStep i
      cases hold : w.db.tokens.get i with
      | none =>
        rw [(Db.exec_tokens ran).gone hold hlt] at hg
        cases hg
      | some r =>
        obtain ⟨token', st'⟩ := r
        refine ⟨hstep.val hold hg ▸ (hrow token' st' hold).1, ?_⟩
        intro o ho
        subst ho
        obtain ⟨ho, hg'⟩ := hH.inserted_before running issues ran hlt hg
        obtain ⟨call, hc, hh⟩ := (hrow _ _ hg').2 o rfl
        exact ⟨call, by rw [after_other ho]; exact hc, hh⟩
    · refine ⟨Db.mem_ids ran (hw.listed u m hm), ?_, ?_⟩
      · change _ < db'.tokens.next
        rw [htok]
        exact Nat.lt_succ_self _
      · intro token' st hg
        change db'.tokens.get _ = _ at hg
        rw [htok] at hg
        rw [Heap.insert_get_next] at hg
        cases hg
        exact ⟨hu, fun o ho => by cases ho; exact ⟨_, after_self running, hn⟩⟩
  rotating c' call m hc hr := by
    by_cases ho : c' = c
    · subst ho
      rw [after_self running] at hc
      cases hc
      rcases Call.rotates_step issues hr with hr | ⟨hn, hg⟩
      · exact (hT.rotating c' before m running hr).after_version hw running issues ran
      · obtain ⟨_, hm⟩ := hw.got running ran hn hg
        exact (hw.since (P := fun m' => m.tokenVersion ≤ m'.tokenVersion) hm
          (Int.le_refl _)).after_version hw running issues ran
    · rw [after_other ho] at hc
      exact (hT.rotating c' call m hc hr).after_version hw running issues ran
  rotated t c' old new u role v he := by
    rcases exchanged_after hH running he with he | ⟨_, _, ⟨user, rfl, rfl, rfl⟩, _⟩
    · exact (hT.rotated t c' old new u role v he).after_version hw running issues ran
    · exact (hT.rotating c _ user running rfl).after_version hw running issues ran
  exchanged t c₁ u i t' c₂ new u' role v he he' := by
    rcases stored_after hw running issues ran he with
      hs | ⟨_, hh, _, _, rfl, _⟩ <;>
    rcases exchanged_after hH running he' with
      hr | ⟨_, _, ⟨user, rfl, _⟩, token, hu, hg⟩
    · exact hT.exchanged t c₁ u i t' c₂ new u' role v hs hr
    · exact hu.symm.trans ((hT.stored t c₁ u i hs).2.2 token _ hg).1
    · exact absurd (hH.rotated _ _ _ _ _ _ _ hr).2 (Nat.lt_irrefl _)
    · cases hh

end

theorem Traced.step (hw : w.Sound) (hH : w.Held) (hT : w.Traced) (ht : Transition cfg w l w') :
    w'.Traced := by
  cases ht with
  | exec running issues ran => exact hT.exec hw hH running issues ran
  | expire => exact ⟨hT.stored, hT.rotating, hT.rotated, hT.exchanged⟩
  | @invoke call start =>
    refine ⟨?_, ?_, hT.rotated, hT.exchanged⟩
    · intro t c u i he
      obtain ⟨hu, hlt, hrow⟩ := hT.stored t c u i he
      refine ⟨hu, hlt, fun token st hg => ⟨(hrow token st hg).1, ?_⟩⟩
      intro o ho
      obtain ⟨call, hc, hh⟩ := (hrow token st hg).2 o ho
      exact ⟨call, join_old hc, hh⟩
    · intro c call m hc hr
      rcases join_calls hc with hc | rfl
      · exact hT.rotating c call m hc hr
      · cases call with
        | rotate q =>
          cases q <;> cases start
          cases hr
        | _ => cases hr

/-! ## Apart -/

/-- No remember-me login commits while a revocation of its user is between its DELETE
and its COMMIT, and no revocation commits while such a login of its user is between
the SELECT of the row and its COMMIT. -/
def revokesApart (w : World) : Label → Bool
  | .exec c input => (w.calls[c]?).all fun call => input.fails ||
    ((call.commitsLogin.all fun u => w.calls.all fun other =>
        other.deletes.all fun (u', _) => u' != u) &&
      call.commitsRevocation.all fun u => w.calls.all fun other => other.holds != some u)
  | _ => true

/-- The token is inserted by a login of `u` that has not committed yet. -/
def Uncommitted (w : World) (u : UserId) (i : TokenId) : Prop :=
  ∃ token o call, w.db.tokens.get i = some (token, .inserted o) ∧ w.calls[o]? = some call ∧
    call.holds = some u

structure Revoked (w : World) : Prop where
  swept : ∀ (c : CallId) (call : Call) u waiting, w.calls[c]? = some call →
    call.deletes = some (u, waiting) → ∀ t c' i, (t, Event.tokenStored c' u i) ∈ w.trace →
    Call.Swept c waiting w.db.tokens i ∨ w.Uncommitted u i
  bumped : ∀ (c : CallId) u, w.calls[c]? = some (.revokeAll (.commit u)) →
    (∃ v, (w.db.users u).pending = some (c, v)) ∨ ∀ m, (w.db.users u).committed = some m →
      ∀ t c' i, (t, Event.tokenStored c' u i) ∈ w.trace →
      ∀ t' c'' new u' role v, (t', Event.tokenRotated c'' i new u' role v) ∉ w.trace
  ordered : ∀ (c : CallId) (call : Call) u, w.calls[c]? = some call → call.holds = some u →
    ∀ t t' c' v, (t, Event.loginRead c u) ∈ w.trace → (t', Event.revoked c' u v) ∈ w.trace →
    t' < t
  gone : ∀ t t' t'' c c' u v i, (t, Event.loginRead c u) ∈ w.trace →
    (t', Event.revoked c' u v) ∈ w.trace → t < t' → (t'', Event.tokenStored c u i) ∈ w.trace →
    w.db.tokens.get i = none
  older : ∀ t t' t'' c c' u v i, (t, Event.loginRead c u) ∈ w.trace →
    (t', Event.revoked c' u (some v)) ∈ w.trace → t < t' →
    (t'', Event.tokenStored c u i) ∈ w.trace →
    ∀ t₃ c'' new u' role v', (t₃, Event.tokenRotated c'' i new u' role v') ∈ w.trace → v' < v

theorem Initial.revoked (h0 : w.Initial) : w.Revoked where
  swept c call u waiting hc := by rw [h0.calls] at hc; cases hc
  bumped c u hc := by rw [h0.calls] at hc; cases hc
  ordered c call u hc := by rw [h0.calls] at hc; cases hc
  gone t t' t'' c c' u v i he := by rw [h0.trace] at he; cases he
  older t t' t'' c c' u v i he := by rw [h0.trace] at he; cases he

theorem read_after {call : Call}
    (hmem : (t, Event.loginRead c' u) ∈ (w.after c before applied call db').trace) :
    (t, Event.loginRead c' u) ∈ w.trace ∨ c' = c ∧ t = w.ticks ∧ before.initial = true := by
  rcases mem_after.mp hmem with he | ⟨ht, he⟩
  · exact Or.inl he
  · obtain ⟨_, hl⟩ := logged_of_observe he nofun nofun nofun
    cases hl
    exact Or.inr ⟨rfl, ht, rfl⟩

theorem revoked_after {call : Call} {v : Option Int}
    (hmem : (t, Event.revoked c' u v) ∈ (w.after c before applied call db').trace) :
    (t, Event.revoked c' u v) ∈ w.trace ∨ c' = c ∧ t = w.ticks ∧ applied = true ∧
      before.commitsRevocation = some u ∧ v = db'.tokenVersion u := by
  rcases mem_after.mp hmem with he | ⟨ht, he⟩
  · exact Or.inl he
  · obtain ⟨ok, hl⟩ := logged_of_observe he nofun nofun nofun
    cases hl with
    | revoked hc => exact Or.inr ⟨rfl, ht, ok, hc, rfl⟩

section
variable (hw : w.Sound) (hR : w.Recorded) (hH : w.Held) (hT : w.Traced) (hV : w.Revoked)
  (running : w.calls[c]? = some before)
  (issues : before.next cfg (input.env w.ticks) = some ⟨s, k⟩)
  (ran : w.db.exec c input.fails s = some (db', reply))
  (hok : w.revokesApart (.exec c input) = true)
include running ran

include hok in
theorem apart_of_applied (ok : s.applied reply = true) :
    (∀ u, before.commitsLogin = some u → ∀ call ∈ w.calls, ∀ u' waiting,
        call.deletes = some (u', waiting) → u' ≠ u) ∧
      ∀ u, before.commitsRevocation = some u → ∀ call ∈ w.calls, call.holds ≠ some u := by
  simp only [revokesApart, running, Option.all_some, Db.applied_of_exec ran ok, Bool.false_or,
    Bool.and_eq_true, Option.all_eq_true, List.all_eq_true, bne_iff_ne] at hok
  exact ⟨fun u hu call hc u' waiting hd => hok.1 u hu call hc (u', waiting) hd, hok.2⟩

/-- The token of a login that another call's step leaves uncommitted. -/
theorem Uncommitted.other (hU : w.Uncommitted u i) (hn : before.holds = none) :
    (w.after c before (s.applied reply) (k reply) db').Uncommitted u i := by
  obtain ⟨token, o, call, hg, hc, hh⟩ := hU
  have ho : o ≠ c := by
    rintro rfl
    rw [running] at hc
    cases hc
    rw [hn] at hh
    cases hh
  exact ⟨token, o, call, token_other ran hg rfl ho, by rw [after_other ho]; exact hc, hh⟩

include issues

include hw hT hV in
/-- The DELETE of the revocation, and its steps up to the COMMIT. -/
theorem swept_own {waiting : List TokenId} (hd : (k reply).deletes = some (u, waiting))
    (he : (t, Event.tokenStored c' u i) ∈
      (w.after c before (s.applied reply) (k reply) db').trace) :
    Call.Swept c waiting db'.tokens i ∨
      (w.after c before (s.applied reply) (k reply) db').Uncommitted u i := by
  have hs := Db.exec_tokens ran
  rcases Call.deletes_step issues (hw.calls c _ running) hs hd with
    ⟨hr, _, rfl, hdb⟩ | ⟨old, hb, hdb⟩
  · have hn := Call.not_holds_of_revokes hr
    have he := (stored_after hw running issues ran he).resolve_right fun h => by
      rw [hn] at h
      cases h.2.1
    obtain ⟨_, hlt, hrow⟩ := hT.stored t c' u i he
    cases hg : w.db.tokens.get i with
    | none => exact Or.inl (Or.inl fun a st h => by rw [hs.gone hg hlt] at h; cases h)
    | some r =>
      obtain ⟨token, st⟩ := r
      obtain ⟨hu, hins⟩ := hrow token st hg
      cases st with
      | inserted o =>
        obtain ⟨call, hc, hh⟩ := hins o rfl
        exact Or.inr (Uncommitted.other running ran ⟨token, o, call, hg, hc, hh⟩ hn)
      | live | locked =>
        have hmem : i ∈ w.db.tokens.snapshot c fun t => t.userId == u :=
          Heap.mem_snapshot.mpr ⟨token, _, hg, rfl, by simp [hu]⟩
        rw [hdb]
        exact Or.inl (Heap.deleteScan_dead hmem).symm
      | deleted o =>
        rw [hdb]
        by_cases ho : o = c
        · have hd : Heap.Dead c (w.db.tokens.get i) := fun a st h => by
            rw [hg] at h
            cases h
            rw [ho]
          exact Or.inl (Or.inl hd.deleteScan)
        · have hmem : i ∈ w.db.tokens.snapshot c fun t => t.userId == u :=
            Heap.mem_snapshot.mpr ⟨token, _, hg, by simp [Hold.visible, ho], by simp [hu]⟩
          exact Or.inl (Heap.deleteScan_dead hmem).symm
  · have hn := Call.not_holds_of_deletes hb
    have he := (stored_after hw running issues ran he).resolve_right fun h => by
      rw [hn] at h
      cases h.2.1
    rcases hV.swept c before u old running hb t c' i he with hS | hU
    · rcases hdb with ⟨rfl, hdb⟩ | ⟨rfl, hdb⟩
      · rw [hdb]
        exact Or.inl hS.scan
      · rw [hdb]
        exact Or.inl hS
    · exact Or.inr (hU.other running ran hn)

include hw hH hT hV hok in
/-- A step of another call: no login commits meanwhile. -/
theorem swept_other {o : CallId} {call : Call} {waiting : List TokenId} (ho : o ≠ c)
    (hc : w.calls[o]? = some call) (hd : call.deletes = some (u, waiting))
    (he : (t, Event.tokenStored c' u i) ∈
      (w.after c before (s.applied reply) (k reply) db').trace) :
    Call.Swept o waiting db'.tokens i ∨
      (w.after c before (s.applied reply) (k reply) db').Uncommitted u i := by
  have hs := Db.exec_tokens ran
  rcases stored_after hw running issues ran he with he | ⟨_, _, hn, _, rfl, token, _, htok⟩
  · rcases hV.swept o call u waiting hc hd t c' i he with hS | ⟨token, o', call', hg, hc', hh⟩
    · exact Or.inl (hS.other hs ho (hT.stored t c' u i he).2.1)
    · by_cases ho' : o' = c
      · subst ho'
        rw [running] at hc'
        cases hc'
        obtain ⟨call', hc', hst⟩ := hH.inserted i token o' hg
        rw [running] at hc'
        cases hc'
        have happ := apart_of_applied running ran hok
        cases Call.commits_of_stores issues hst
        generalize hdb : db'.tokens = h' at hs
        cases hs with
        | stay other => cases other
        | commit =>
          exact absurd rfl ((happ rfl).1 u (Call.commitsLogin_of_stores hh hst) call
            (List.mem_of_getElem? hc) u waiting hd)
        | fail =>
          refine Or.inl (Or.inl fun a st h => ?_)
          rw [Heap.rollback_inserted hg] at h
          cases h
      · have hafter :
            (w.after c before (s.applied reply) (k reply) db').calls[o']? = some call' := by
          rw [after_other ho']
          exact hc'
        exact Or.inr ⟨token, o', call', token_other ran hg rfl ho', hafter, hh⟩
  · refine Or.inr ⟨token, c, _, ?_, after_self running, hn⟩
    change db'.tokens.get _ = _
    rw [htok]
    exact Heap.insert_get_next

/-- A revoke_all_sessions has bumped the version, unless the user was not there. -/
theorem bumped_own (hq : k reply = .revokeAll (.commit u)) :
    (∃ v, (db'.users u).pending = some (c, v)) ∨ (db'.users u).committed = none := by
  have hs := Db.exec_user ran u
  cases before with
  | revokeAll q =>
    cases q with
    | bump =>
      cases issues
      generalize db'.users u = r' at hs ⊢
      cases hs with
      | write =>
        exact Or.inl ⟨_, rfl⟩
      | miss unseen => exact Or.inr (Versioned.committed_of_unseen fun m h => nomatch unseen m h)
      | fail => cases hq
      | stay _ missed =>
        cases hq
        exact absurd rfl missed
    | revoke | revoking | commit =>
      cases issues
      dsimp only [deleted] at hq
      split at hq <;> cases hq
    | invalidate =>
      cases issues
      cases hq
    | done => cases issues
  | requestReset q | resendCode q | sendVerification q | autoVerify q | verifyEmail q
  | resetPassword q | updateUser q | changePassword q | login q | wxLogin q | rotate q | logout q
  | getUser q | setOpenid q | checkTokenVersion q | createUser q | deleteUser q | modifyBalance q =>
    obtain ⟨k', _, rfl⟩ := Next.map_some issues
    cases hq

include hw hH hT hV in
theorem bumped_other {o : CallId} (ho : o ≠ c) (hc : w.calls[o]? = some (.revokeAll (.commit u))) :
    (∃ v, (db'.users u).pending = some (o, v)) ∨ ∀ m, (db'.users u).committed = some m →
      ∀ t c' i, (t, Event.tokenStored c' u i) ∈
        (w.after c before (s.applied reply) (k reply) db').trace →
      ∀ t' c'' new u' role v, (t', Event.tokenRotated c'' i new u' role v) ∉
        (w.after c before (s.applied reply) (k reply) db').trace := by
  rcases hV.bumped o u hc with ⟨v, hp⟩ | hn
  · exact Or.inl ⟨v, by rw [row_other ran hp ho]; exact hp⟩
  refine Or.inr ?_
  intro m' hm' t c' i he t' c'' new u' role v hr
  cases hm : (w.db.users u).committed with
  | none =>
    -- the user is created while the revocation waits for its COMMIT
    have hnew := (Db.appeared ran hm (hw.not_pending hm) hm').1
    rcases stored_after hw running issues ran he with he | ⟨_, _, _, ⟨m, hm₀⟩, _⟩
    · exact hnew (hT.stored t c' u i he).1
    · rw [hm] at hm₀
      cases hm₀
  | some m =>
    rcases stored_after hw running issues ran he with he | ⟨_, hh, _, _, rfl, _⟩ <;>
    rcases exchanged_after hH running hr with hold | ⟨_, _, ⟨user, rfl, _⟩, token, _, hg⟩
    · exact hn m hm t c' i he t' c'' new u' role v hold
    · rcases hV.swept o _ u [] hc rfl t c' i ‹_› with (hd | hw) | ⟨token', o', _, hg', _⟩
      · cases hd _ _ hg
        exact ho rfl
      · cases hw
      · rw [hg] at hg'
        cases hg'
    · exact absurd (hH.rotated _ _ _ _ _ _ _ hold).2 (Nat.lt_irrefl _)
    · cases hh

include hw in
/-- A revocation that commits with the row in hand has bumped its version. -/
theorem bumped_at_commit {v : UserModel} {m' : UserModel} (hc : before.commitsRevocation = some u)
    (ok : s.applied reply = true) (hp : (w.db.users u).pending = some (c, v))
    (hm' : (db'.users u).committed = some m') :
    ∃ m, (w.db.users u).committed = some m ∧ m'.tokenVersion = m.tokenVersion + 1 := by
  obtain ⟨m, hm, work⟩ := hw.own running v hp
  refine ⟨m, hm, ?_⟩
  cases Call.commits_of_commitsRevocation issues hc
  rcases reply with e | ⟨⟨⟩⟩
  · cases ok
  · have hv := (Db.exec_user ran u).publishes hp
    rw [hm'] at hv
    cases hv
    rcases work.tokenVersion issues with h | ⟨_, _, hn⟩
    · exact h
    · rw [hc] at hn
      cases hn

include hw hR hH hT hV hok in
theorem Revoked.exec : (w.after c before (s.applied reply) (k reply) db').Revoked where
  swept o call u waiting hc hd t c' i he := by
    by_cases ho : o = c
    · subst ho
      rw [after_self running] at hc
      cases hc
      exact swept_own hw hT hV running issues ran hd he
    · rw [after_other ho] at hc
      exact swept_other hw hH hT hV running issues ran hok ho hc hd he
  bumped o u hc := by
    by_cases ho : o = c
    · subst ho
      rw [after_self running] at hc
      exact (bumped_own running issues ran (Option.some.inj hc)).imp_right fun hn m hm => by
        rw [show (db'.users u).committed = some m from hm] at hn
        cases hn
    · rw [after_other ho] at hc
      exact bumped_other hw hH hT hV running issues ran ho hc
  ordered o call u hc hh t t' c' v he hv := by
    have hnew : before.initial = true → t = w.ticks → t' < t := fun hi ht => by
      rcases revoked_after hv with hv | ⟨_, _, _, hcr, _⟩
      · exact ht ▸ hR.past t' _ hv
      · rw [(Call.idle_login hi).2.1] at hcr
        cases hcr
    have hold {call : Call} (hc : w.calls[o]? = some call) (hh : call.holds = some u)
        (he : (t, Event.loginRead o u) ∈ w.trace) : t' < t := by
      rcases revoked_after hv with hv | ⟨_, _, ok, hcr, _⟩
      · exact hV.ordered o call u hc hh t t' c' v he hv
      · exact absurd hh ((apart_of_applied running ran hok ok).2 u hcr call
          (List.mem_of_getElem? hc))
    by_cases ho : o = c
    · subst ho
      rw [after_self running] at hc
      cases hc
      rcases read_after he with he | ⟨_, ht, hi⟩
      · rcases Call.holds_step issues hh with hb | hi
        · exact hold running hb he
        · have := hR.not_initial he running
          rw [hi] at this
          cases this
      · exact hnew hi ht
    · rw [after_other ho] at hc
      exact hold hc hh ((read_after he).resolve_right fun h => ho h.1)
  gone t t' t'' c₁ c₂ u v i he hv hlt hs := by
    have htok := Db.exec_tokens ran
    rcases revoked_after hv with hrev | ⟨rfl, rfl, ok, hcr, _⟩
    · have hread := (read_after he).resolve_right fun h => by
        have := hR.past t' _ hrev
        omega
      rcases stored_after hw running issues ran hs with hold | ⟨rfl, hh, _⟩
      · exact htok.gone (hV.gone t t' t'' c₁ c₂ u v i hread hrev hlt hold)
          (hT.stored _ _ _ _ hold).2.1
      · have := hV.ordered c₁ before u running hh t t' c₂ v hread hrev
        omega
    · have happ := (apart_of_applied running ran hok ok).2 u hcr
      have hold := (stored_after hw running issues ran hs).resolve_right fun h =>
        happ before (List.mem_of_getElem? running) h.2.1
      rcases hV.swept _ before u [] running (Call.deletes_of_commits hcr) t'' c₁ i hold with
        (hd | hw) | ⟨_, _, call, _, hc, hh⟩
      · cases Call.commits_of_commitsRevocation issues hcr
        change db'.tokens.get i = none
        generalize db'.tokens = h' at htok
        cases htok with
        | stay other => cases other
        | commit => exact Heap.commit_dead hd
        | fail => cases ok
      · cases hw
      · exact absurd hh (happ call (List.mem_of_getElem? hc))
  older t t' t'' c₁ c₂ u v i he hv hlt hs t₃ c₃ new u' role v' hr := by
    rcases revoked_after hv with hrev | ⟨rfl, rfl, ok, hcr, hver⟩
    · have hread := (read_after he).resolve_right fun h => by
        have := hR.past t' _ hrev
        omega
      rcases stored_after hw running issues ran hs with hold | ⟨rfl, hh, _⟩
      · rcases exchanged_after hH running hr with hrot | ⟨_, _, _, token, _, hg⟩
        · exact hV.older t t' t'' c₁ c₂ u v i hread hrev hlt hold t₃ c₃ new u' role v' hrot
        · rw [hV.gone t t' t'' c₁ c₂ u _ i hread hrev hlt hold] at hg
          cases hg
      · have := hV.ordered c₁ before u running hh t t' c₂ _ hread hrev
        omega
    · have happ := (apart_of_applied running ran hok ok).2 u hcr
      have hold := (stored_after hw running issues ran hs).resolve_right fun h =>
        happ before (List.mem_of_getElem? running) h.2.1
      have hrot := (exchanged_after hH running hr).resolve_right fun h => by
        obtain ⟨_, _, ⟨user, rfl, _⟩, _⟩ := h
        cases hcr
      obtain ⟨m', hm', rfl⟩ := Option.map_eq_some_iff.mp hver.symm
      have hpend : ∃ v, (w.db.users u).pending = some (c₂, v) := by
        rcases Call.locks_of_commits hcr with hl | hb
        · exact hw.locked c₂ before u running hl
        · subst hb
          refine (hV.bumped c₂ u running).resolve_right ?_
          intro hn
          cases hm : (w.db.users u).committed with
          | none => exact (Db.appeared ran hm (hw.not_pending hm) hm').1 (hT.stored _ _ _ _ hold).1
          | some m => exact hn m hm t'' c₁ i hold t₃ c₃ new u' role v' hrot
      obtain ⟨_, hp⟩ := hpend
      obtain ⟨m, hm, hb⟩ := bumped_at_commit hw running issues ran hcr ok hp hm'
      have hle := (hT.rotated _ _ _ _ _ _ _ hrot).2 m
      rw [hT.exchanged _ _ _ _ _ _ _ _ _ _ hold hrot] at hle
      have := hle hm
      omega

end

theorem Revoked.step (hw : w.Sound) (hR : w.Recorded) (hH : w.Held) (hT : w.Traced)
    (hV : w.Revoked) (hok : w.revokesApart l = true) (ht : Transition cfg w l w') :
    w'.Revoked := by
  cases ht with
  | exec running issues ran => exact Revoked.exec hw hR hH hT hV running issues ran hok
  | expire => exact ⟨hV.swept, hV.bumped, hV.ordered, hV.gone, hV.older⟩
  | @invoke call start =>
    obtain ⟨hh, _, hd⟩ := Call.idle_login start
    refine ⟨?_, ?_, ?_, hV.gone, hV.older⟩
    · intro c call' u waiting hc hd' t c' i he
      rcases join_calls hc with hc | rfl
      · refine (hV.swept c call' u waiting hc hd' t c' i he).imp_right ?_
        rintro ⟨token, o, call, hg, hc, hh⟩
        exact ⟨token, o, call, hg, join_old hc, hh⟩
      · rw [hd] at hd'
        cases hd'
    · intro c u hc
      rcases join_calls hc with hc | rfl
      · exact hV.bumped c u hc
      · cases start
    · intro c call' u hc hh'
      rcases join_calls hc with hc | rfl
      · exact hV.ordered c call' u hc hh'
      · rw [hh] at hh'
        cases hh'

/-- A token stored by a login that had read the row before a revocation committed is
never exchanged for the version that revocation left, or a later one. -/
def LoginsRevoked (w : World) : Prop :=
  ∀ t t' t'' t₃ (c c' c'' : CallId) u v i new u' role v', (t, Event.loginRead c u) ∈ w.trace →
    (t', Event.revoked c' u (some v)) ∈ w.trace → t < t' →
    (t'', Event.tokenStored c u i) ∈ w.trace →
    (t₃, Event.tokenRotated c'' i new u' role v') ∈ w.trace → v' < v

theorem revocation_beats_logins (h0 : w₀.Initial)
    (h : Runs.Reaches (World.step cfg) (fun w l => w.revokesApart l = true) w₀ w) :
    w.LoginsRevoked := by
  have hI : w.Sound ∧ w.Recorded ∧ w.Held ∧ w.Traced ∧ w.Revoked :=
    h.invariant (I := fun w => w.Sound ∧ w.Recorded ∧ w.Held ∧ w.Traced ∧ w.Revoked)
      ⟨h0.sound, h0.recorded, h0.held, h0.traced, h0.revoked⟩
      fun a l b ⟨hs, hR, hH, hT, hV⟩ hok hstep =>
        have ht := step_transition hstep
        ⟨hs.step ht, hR.step ht, hH.step hs ht, hT.step hs hH ht, hV.step hs hR hH hT hok ht⟩
  intro t t' t'' t₃ c c' c'' u v i new u' role v' he hv hlt hs hr
  exact hI.2.2.2.2.older t t' t'' c c' u v i he hv hlt hs t₃ c'' new u' role v' hr

/-! ## A login across a revocation -/

/-- An account without refresh tokens. -/
def registered : World :=
  .ofRows [.registered 1 "ada@example.com" "Passw0rd!" "user"] [] 1

theorem initial_registered : registered.Initial :=
  initial_ofRow UserModel.proper_registered

def rememberMe : Label := .invoke (.login (.find ⟨"ada@example.com", "Passw0rd!", true⟩))

/-- The login stores its token, which is exchanged, before the sessions are revoked. -/
def loginBeforeLogout : List Label :=
  [rememberMe, .exec 0 {}, .exec 0 {}, .exec 0 {}, .exec 0 {}, .invoke (.rotate (.lock 2)),
    .exec 1 {}, .exec 1 {}, .exec 1 {}, .exec 1 {}, .exec 1 {}, .invoke (.revokeAll (.revoke 1)),
    .exec 2 {}, .exec 2 {}, .exec 2 {}]

/-- The sessions are revoked after the login has read the row. -/
def loginAcrossLogout : List Label :=
  [rememberMe, .exec 0 {}, .invoke (.revokeAll (.revoke 1)), .exec 1 {}, .exec 1 {}, .exec 1 {},
    .exec 0 {}, .exec 0 {}, .exec 0 {}, .invoke (.rotate (.lock 2)), .exec 2 {}, .exec 2 {},
    .exec 2 {}, .exec 2 {}, .exec 2 {}]

theorem revocation_beats_logins_apart :
    ((Runs.run (World.step .plain) (fun w l => w.revokesApart l = true) registered
      loginBeforeLogout).get (by decide)).LoginsRevoked :=
  revocation_beats_logins initial_registered (Runs.reaches_run_get _)

theorem login_survives_revocation : ∃ w,
    Runs.Reaches (World.step .plain) Runs.Free registered w ∧ ¬ w.LoginsRevoked := by
  let w := (Runs.run (World.step .plain) Runs.Free registered loginAcrossLogout).get (by decide)
  have hread : (2, Event.loginRead 0 1) ∈ w.trace := by decide
  have hrevoked : (6, Event.revoked 1 1 (some 2)) ∈ w.trace := by decide
  have hstored : (8, Event.tokenStored 0 1 0) ∈ w.trace := by decide
  have hrotated : (15, Event.tokenRotated 2 0 1 1 "user" 2) ∈ w.trace := by decide
  exact ⟨w, Runs.reaches_run_get _, fun h => by
    have := h 2 6 8 15 0 1 2 1 2 0 1 1 "user" 2 hread hrevoked (by decide) hstored hrotated
    omega⟩

end World

end Webshelf
