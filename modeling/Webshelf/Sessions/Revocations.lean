import Webshelf.Sessions.Tokens

/-!
# The DELETE of a revocation

`change_password`, `reset_password` and `revoke_all_sessions` delete the refresh
tokens of a user in one statement, which visits the rows of its snapshot in
order and waits for those another transaction holds. Until the call's
transaction ends, a row of the snapshot is deleted by it, gone, or still to be
visited.
-/

namespace Webshelf

namespace Call

/-- The user whose refresh tokens the call is deleting or has deleted in its open
transaction, with the rows its DELETE has still to visit. -/
def deletes : Call → Option (UserId × List TokenId)
  | revokeAll (.revoking u waiting) => some (u, waiting)
  | revokeAll (.bump u) | revokeAll (.commit u) => some (u, [])
  | changePassword (.revoking u _ waiting) => some (u, waiting)
  | changePassword (.commit u _) => some (u, [])
  | resetPassword (.revoking user _ _ waiting) => some (user.id, waiting)
  | resetPassword (.commit user _ _) => some (user.id, [])
  | _ => none

/-- A row the DELETE of a revocation of `c` has deleted, or has still to visit. -/
def Swept (c : CallId) (waiting : List TokenId) (h : Heap CallId RefreshToken) (i : TokenId) :
    Prop :=
  Heap.Dead c (h.get i) ∨ i ∈ waiting

section
variable {cfg : Settings} {env : Env} {before : Call} {s : Stmt} {c o : CallId}
  {k : Except DbErr s.Reply → Call} {reply : Except DbErr s.Reply}
  {h h' : Heap CallId RefreshToken} {i : TokenId} {u : UserId} {waiting : List TokenId}

theorem Swept.scan (hS : Swept c waiting h i) :
    Swept c (h.deleteScan c waiting).1 (h.deleteScan c waiting).2 i := by
  rcases hS with hd | hw
  · exact Or.inl hd.deleteScan
  · exact (Heap.deleteScan_dead hw).symm

theorem Swept.other (hS : Swept c waiting h i) (hs : TokensStep o s reply h h') (hne : c ≠ o)
    (hi : i < h.next) : Swept c waiting h' i :=
  hS.imp_left fun hd => hd.other (hs.toStep i) hne fun hg => hs.gone hg hi

/-- The DELETE of a revocation starts, goes on, or is over and the transaction open. -/
theorem deletes_step (issues : before.next cfg env = some ⟨s, k⟩) (hk : before.Keyed)
    (hs : TokensStep c s reply h h') (hn : (k reply).deletes = some (u, waiting)) :
    (before.revokes = some u ∧ s.applied reply = true ∧
        waiting = (h.deleteScan c (h.snapshot c fun t => t.userId == u)).1 ∧
        h' = (h.deleteScan c (h.snapshot c fun t => t.userId == u)).2) ∨
      ∃ old, before.deletes = some (u, old) ∧
        ((waiting = (h.deleteScan c old).1 ∧ h' = (h.deleteScan c old).2) ∨
          waiting = old ∧ h' = h) := by
  cases before with
  | revokeAll q =>
    cases q with
    | revoke =>
      cases issues
      rcases reply with e | rest
      · cases hn
      · obtain ⟨hrest, rfl⟩ := hs.swept
        cases rest <;> cases hn <;> exact Or.inl ⟨rfl, rfl, hrest, rfl⟩
    | revoking u old =>
      cases issues
      rcases reply with e | rest
      · cases hn
      · have hscan := hs.resumed
        cases rest <;> cases hn <;> exact Or.inr ⟨old, rfl, .inl hscan⟩
    | bump =>
      cases issues
      cases hs with
      | stay => cases hn; exact Or.inr ⟨[], rfl, .inr ⟨rfl, rfl⟩⟩
      | fail => cases hn
    | commit | invalidate =>
      cases issues
      dsimp only at hn
      (repeat' split at hn) <;> cases hn
    | done => cases issues
  | changePassword q =>
    cases q with
    | revoke =>
      cases issues
      rcases reply with e | rest
      · cases hn
      · obtain ⟨hrest, rfl⟩ := hs.swept
        cases rest <;> cases hn <;> exact Or.inl ⟨rfl, rfl, hrest, rfl⟩
    | revoking u _ old =>
      cases issues
      rcases reply with e | rest
      · cases hn
      · have hscan := hs.resumed
        cases rest <;> cases hn <;> exact Or.inr ⟨old, rfl, .inl hscan⟩
    | find | bump | update | commit | refetch | invalidate | abort =>
      cases issues
      dsimp only at hn
      (repeat' split at hn) <;> cases hn
    | done => cases issues
  | resetPassword q =>
    cases q with
    | revoke _ _ updated =>
      cases issues
      rcases reply with e | rest
      · cases hn
      · obtain ⟨hrest, rfl⟩ := hs.swept
        rw [show updated.id = _ from hk] at hrest ⊢
        cases rest <;> cases hn <;> exact Or.inl ⟨rfl, rfl, hrest, rfl⟩
    | revoking _ _ _ old =>
      cases issues
      rcases reply with e | rest
      · cases hn
      · have hscan := hs.resumed
        cases rest <;> cases hn <;> exact Or.inr ⟨old, rfl, .inl hscan⟩
    | find | claim | update | refetch | commit | abort =>
      cases issues
      dsimp only at hn
      (repeat' split at hn) <;> cases hn
    | done => cases issues
  | requestReset q | resendCode q | sendVerification q | modifyBalance q | updateUser q
  | autoVerify q | verifyEmail q | login q | wxLogin q | rotate q | logout q | getUser q
  | setOpenid q | checkTokenVersion q | createUser q | deleteUser q =>
    obtain ⟨k', _, rfl⟩ := Next.map_some issues
    cases hn

end

end Call

end Webshelf
