import Webshelf.Server.History

/-!
# The token version of a row

No step takes `token_version` back, and a transaction that commits another role
has bumped it. `World.Since` carries a fact about the row of a user along a run:
an id is given out once, so a row that is deleted does not come back.
-/

namespace Webshelf

namespace Call

/-- The call only reads the row, and fills the cache. -/
def looksUp : Call → Bool
  | getUser _ | checkTokenVersion _ => true
  | _ => false

variable {cfg : Settings} {env : Env} {u : UserId} {before : Call} {applied : Bool}
  {o o' : Option UserModel} {m m' v : UserModel}

theorem Writes.tokenVersion {now : Time} {p : UserModel → Bool} {set : UserModel → UserModel}
    (h : Writes cfg now before (.updateUser .auto u p set)) :
    (set m).tokenVersion = m.tokenVersion := by
  cases h <;> rfl

/-- Only `update_user` writes the role outside a transaction. -/
theorem Writes.role {now : Time} {p : UserModel → Bool} {set : UserModel → UserModel}
    (h : Writes cfg now before (.updateUser .auto u p set)) : (set m).role = m.role ∨
      ∃ id user input sent role, before = Call.updateUser (.update id user input sent) ∧
        user.id = u ∧ input.role = some role ∧ (set m).role = role := by
  cases h with
  | @updateUser id user input sent =>
    cases hr : input.role with
    | none =>
      refine Or.inl ?_
      simp [ActiveModel.write, updateModel, hr, ActiveValue.write]
    | some role =>
      refine Or.inr ⟨id, user, input, sent, role, rfl, rfl, hr, ?_⟩
      simp [ActiveModel.write, updateModel, hr, ActiveValue.write]
  | _ => exact Or.inl rfl

/-- A transaction that commits has bumped the version, or keeps the role as well. -/
theorem Working.tokenVersion {k : Except DbErr Unit → Call}
    (issues : before.next cfg env = some ⟨.commit, k⟩) (h : before.Working u m v) :
    v.tokenVersion = m.tokenVersion + 1 ∨
      v.tokenVersion = m.tokenVersion ∧ v.role = m.role ∧ before.commitsRevocation = none := by
  cases h.commits issues with
  | modifyBalance => exact Or.inr ⟨rfl, rfl, rfl⟩
  | resetPassword | updateUser | changePassword | revokeAll => exact Or.inl rfl

/-- No step takes the version of a row back. -/
theorem RowStep.tokenVersion_le (hr : RowStep cfg env u before applied o o') (ho : o = some m)
    (ho' : o' = some m') : m.tokenVersion ≤ m'.tokenVersion := by
  cases hr with
  | same =>
    rw [ho] at ho'
    cases ho'
    exact Int.le_refl _
  | write _ update =>
    cases ho
    cases ho'
    exact Int.le_of_eq update.tokenVersion.symm
  | commit _ issues work =>
    cases ho
    cases ho'
    rcases work.tokenVersion issues with h | ⟨h, _⟩ <;> omega
  | insert => cases ho
  | delete => cases ho'

end Call

namespace World

/-- The user has been there, and the row has `P` as long as it is. -/
def Since (w : World) (u : UserId) (P : UserModel → Prop) : Prop :=
  u ∈ w.db.ids ∧ ∀ m, (w.db.users u).committed = some m → P m

variable {cfg : Settings} {w w' : World} {l : Label} {c : CallId} {before : Call} {s : Stmt}
  {input : Input} {applied : Bool} {k : Except DbErr s.Reply → Call}
  {reply : Except DbErr s.Reply} {db' : Db} {u : UserId} {m m' : UserModel}
  {P : UserModel → Prop} {v : Int}

section
variable (hw : w.Sound) (running : w.calls[c]? = some before)
  (issues : before.next cfg (input.env w.ticks) = some ⟨s, k⟩)
  (ran : w.db.exec c input.fails s = some (db', reply))
include hw ran

theorem Since.after (hs : w.Since u P)
    (hP : ∀ m m', (w.db.users u).committed = some m → (db'.users u).committed = some m' →
      P m → P m') :
    (w.after c before applied (k reply) db').Since u P := by
  refine ⟨Db.mem_ids ran hs.1, ?_⟩
  intro m' hm'
  change (db'.users u).committed = some m' at hm'
  cases hm : (w.db.users u).committed with
  | none => exact absurd hs.1 (Db.appeared ran hm (hw.not_pending hm) hm').1
  | some m => exact hP m m' hm hm' (hs.2 m hm)

include running issues

/-- A lookup changes no row. -/
theorem Sound.row_looked (hl : before.looksUp = true) (u : UserId) :
    (db'.users u).committed = (w.db.users u).committed := by
  have hr := hw.row_step running issues ran u
  generalize (db'.users u).committed = o' at hr ⊢
  generalize (w.db.users u).committed = o at hr ⊢
  cases hr with
  | same => rfl
  | write _ update => cases update <;> cases hl
  | commit _ _ work =>
    cases before with
    | getUser | checkTokenVersion => exact work.elim
    | _ => cases hl
  | insert _ _ create =>
    subst create
    cases hl
  | delete _ delete =>
    subst delete
    cases hl

/-- A version that was current is at most the current one from then on. -/
theorem Since.after_version (hs : w.Since u fun m => v ≤ m.tokenVersion) :
    (w.after c before applied (k reply) db').Since u fun m => v ≤ m.tokenVersion :=
  hs.after hw ran fun _ _ hm hm' hle =>
    Int.le_trans hle ((hw.row_step running issues ran u).tokenVersion_le hm hm')

end

/-- The row that a call with nothing in hand reads by its id is the committed one. -/
theorem Sound.got (hw : w.Sound) (running : w.calls[c]? = some before)
    (ran : w.db.exec c input.fails s = some (db', reply))
    (hn : ∀ u m v, ¬ before.Working u m v) (hg : s.got reply = some m) :
    db' = w.db ∧ (w.db.users m.id).committed = some m := by
  cases s with
  | selectUserById id =>
    rcases reply with e | found
    · cases hg
    · obtain ⟨rfl, rfl⟩ := Db.exec_selectUserById ran
      have hv : (w.db.users id).view c = some m := hg
      have hid := hw.view_id running hv
      rw [hw.view_eq running (hn id)] at hv
      exact ⟨rfl, hid ▸ hv⟩
  | _ => cases hg

/-- A row that is there keeps what it has just been read with. -/
theorem Sound.since (hw : w.Sound) (hm : (w.db.users u).committed = some m) (hP : P m) :
    w.Since u P :=
  ⟨hw.listed u m hm, fun m' hm' => by rw [hm] at hm'; cases hm'; exact hP⟩

end World

end Webshelf
