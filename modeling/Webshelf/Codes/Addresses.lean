import Webshelf.Codes.Columns
import Webshelf.Users.Versions

/-!
# The address of an emailed code

A code is stored in the row of a user and mailed to the address the row has at
that time; it is presented with the address the row has by then. `update_user`
gives a row another address and leaves the codes in it. As long as it does so
only when no code is left to present or on its way into the row, and every code
that is stored is mailed, a code that is accepted was mailed to the address it
is presented with.
-/

namespace Webshelf

namespace Call

/-- The address and the code that was hashed of the code the call has read. -/
def offers : Call → Option (CodeKind × String × String)
  | verifyEmail (.claim user h _) | verifyEmail (.update user h _) =>
    some (.verification, user.email, h.plain)
  | resetPassword (.claim user h _ _) | resetPassword (.update user h _)
  | resetPassword (.refetch user h) | resetPassword (.revoke user h _)
  | resetPassword (.revoking user h _ _) | resetPassword (.commit user h _) =>
    some (.passwordReset, user.email, h.plain)
  | _ => none

theorem offers_eq (call : Call) :
    call.offers = call.carries.map fun code => (code.1, code.2.1.email, code.2.2.plain) := by
  cases call with
  | _ q => cases q <;> rfl

end Call

/-- The address a code was mailed to. -/
def Event.mailedTo : Event → Option String
  | .codeMailed _ _ address _ => some address
  | _ => none

/-- A code is stored that can be presented. -/
def UserModel.outstanding (m : UserModel) : Bool :=
  m.passwordReset.hash.isSome || (!m.emailVerified && m.verification.hash.isSome)

theorem UserModel.outstanding_of_hash {m : UserModel} {kind : CodeKind} {h : Argon2}
    (hh : (m.code kind).hash = some h) (hp : m.presentable kind = true) :
    m.outstanding = true := by
  cases kind with
  | verification =>
    have hv : m.verification.hash = some h := hh
    have hnot : m.emailVerified = false := by simpa [presentable] using hp
    simp [outstanding, hv, hnot]
  | passwordReset =>
    have hv : m.passwordReset.hash = some h := hh
    simp [outstanding, hv]

namespace Call

section
variable {cfg : Settings} {env : Env} {before : Call} {s : Stmt} {u : UserId} {c : CallId}
  {k : Except DbErr s.Reply → Call} {reply : Except DbErr s.Reply} {m v : UserModel}
  {kind : CodeKind} {h : Argon2} {address code : String} {db db' : Db}

/-- Only `update_user` writes the address outside a transaction. -/
theorem Writes.email {now : Time} {p : UserModel → Bool} {set : UserModel → UserModel}
    (h : Writes cfg now before (.updateUser .auto u p set)) : (set m).email = m.email ∨
      ∃ id user input sent address, before = Call.updateUser (.update id user input sent) ∧
        user.id = u ∧ input.email = some address ∧ (set m).email = cfg.toLowercase address := by
  cases h with
  | @updateUser id user input sent =>
    cases he : input.email with
    | none => exact Or.inl (by simp [ActiveModel.write, updateModel, he, ActiveValue.write])
    | some address =>
      refine Or.inr ⟨id, user, input, sent, address, rfl, rfl, he, ?_⟩
      simp [ActiveModel.write, updateModel, he, ActiveValue.write]
  | _ => exact Or.inl rfl

/-- An address stays verified. -/
theorem Writes.emailVerified {now : Time} {p : UserModel → Bool} {set : UserModel → UserModel}
    (h : Writes cfg now before (.updateUser .auto u p set)) :
    (set m).emailVerified = m.emailVerified ∨ (set m).emailVerified = true := by
  cases h with
  | autoVerify | verifyEmail => exact Or.inr rfl
  | _ => exact Or.inl rfl

/-- A COMMIT keeps the address, or is that of `update_user`. -/
theorem Working.email {k : Except DbErr Unit → Call}
    (issues : before.next cfg env = some ⟨.commit, k⟩) (h : before.Working u m v) :
    v.emailVerified = m.emailVerified ∧
      (v.email = m.email ∨ before = .updateUser (.commit u)) := by
  cases h.commits issues with
  | updateUser => exact ⟨rfl, .inr rfl⟩
  | resetPassword | changePassword | revokeAll | modifyBalance => exact ⟨rfl, .inl rfl⟩

/-- A code presented was read off the row, in this step or before. -/
theorem offers_step (issues : before.next cfg env = some ⟨s, k⟩)
    (hn : (k reply).offers = some (kind, address, code)) :
    before.offers = some (kind, address, code) ∨
      ∃ m h, s.picked reply = some m ∧ m.email = address ∧ h.plain = code ∧
        (m.code kind).hash = some h ∧ m.presentable kind = true := by
  rw [offers_eq, Option.map_eq_some_iff] at hn
  obtain ⟨⟨kind', m, h⟩, hm, hx⟩ := hn
  cases hx
  rcases carries_step issues hm with ⟨hb, -⟩ | ⟨-, hpick, hpresentable, hu⟩
  · exact .inl (by rw [offers_eq, hb, Option.map_some])
  · exact .inr ⟨m, h, hpick, rfl, rfl, hash_of_usable hu, hpresentable⟩

/-- A code about to be stored goes to the address of the row read in this step. -/
theorem mails_step (issues : before.next cfg env = some ⟨s, k⟩)
    (hn : (k reply).issues = some (kind, u, h)) : ∃ m p, s = .selectUser p ∧
      s.picked reply = some m ∧ m.id = u ∧
      (p m = true → (k reply).mails = some (kind, m.email, h.plain)) := by
  generalize hk : k reply = call at hn ⊢
  cases before with
  | requestReset q | resendCode q | sendVerification q =>
    cases q with
    | find email =>
      cases issues
      dsimp only at hk
      (repeat' split at hk) <;> subst hk <;> cases hn
      refine ⟨_, _, rfl, rfl, rfl, ?_⟩
      intro hp
      rw [beq_iff_eq.mp hp]
      rfl
    | store =>
      cases issues
      dsimp only at hk
      (repeat' split at hk) <;> subst hk <;> cases hn
    | done => cases issues
  | resetPassword q | modifyBalance q | updateUser q | changePassword q | autoVerify q
  | verifyEmail q | login q | wxLogin q | rotate q | revokeAll q | logout q | getUser q
  | setOpenid q | checkTokenVersion q | createUser q | deleteUser q =>
    obtain ⟨k', _, rfl⟩ := Next.map_some issues
    subst hk
    cases hn

/-- A code that is stored is mailed, if the mail service works. -/
theorem mailed {email : String} (issues : before.next cfg env = some ⟨s, k⟩)
    (hm : before.mails = some (kind, email, code)) (ok : s.applied reply = true)
    (hsend : env.sendOk = true) :
    .codeMailed c kind email code ∈ before.events c db db' (k reply) := by
  cases before with
  | requestReset q | resendCode q | sendVerification q =>
    cases q <;> cases hm
    cases issues
    rcases reply with e | _ | m
    · cases ok
    · cases ok
    · dsimp only
      rw [if_pos hsend]
      exact List.mem_singleton_self _
  | _ => cases hm

/-- A code that is accepted is the one presented. -/
theorem Logged.accepted {after : Call} {c' : CallId}
    (hl : before.Logged c db db' after (.codeAccepted c' kind address code)) :
    before.offers = some (kind, address, code) := by
  cases hl <;> rfl

end

end Call

namespace World

/-- The row that the call's UPDATE or COMMIT is going to give another address. -/
def readdresses (cfg : Settings) (w : World) : Call → Option UserId
  | .updateUser (.update id _ input _) =>
    if input.email.any fun e => (w.db.users id).committed.any fun m => m.email != cfg.toLowercase e
    then some id else none
  | .updateUser (.commit id) =>
    if (w.db.users id).pending.any fun q =>
      (w.db.users id).committed.any fun m => m.email != q.2.email
    then some id else none
  | _ => none

/-- A row gets another address only when no code in it can be presented and none is on its
way into it, and a code that is stored is mailed. -/
def readdressesIdle (cfg : Settings) (w : World) : Label → Bool
  | .exec c input =>
    match w.calls[c]? with
    | some before => input.fails || ((before.mails.isNone || input.sendOk) &&
      match w.readdresses cfg before with
      | some u => !(w.db.users u).committed.any UserModel.outstanding &&
        w.calls.all fun call => call.issues.map (fun x => x.2.1) != some u
      | none => true)
    | none => true
  | _ => true

/-- The code was mailed to the address. -/
def Sent (w : World) (kind : CodeKind) (address code : String) : Prop :=
  ∃ t c, (t, Event.codeMailed c kind address code) ∈ w.trace

structure Mailed (w : World) : Prop where
  rows : ∀ u m kind h, (w.db.users u).committed = some m → (m.code kind).hash = some h →
    m.presentable kind = true → w.Sent kind m.email h.plain
  presented : ∀ (c : CallId) (call : Call) kind address code, w.calls[c]? = some call →
    call.offers = some (kind, address, code) → w.Sent kind address code
  issued : ∀ (c : CallId) (call : Call) kind u h, w.calls[c]? = some call →
    call.issues = some (kind, u, h) → ∃ address, call.mails = some (kind, address, h.plain) ∧
      w.Since u fun m => m.email = address

/-- No code is stored. -/
def NoCodes (w : World) : Prop :=
  ∀ u m kind, (w.db.users u).committed = some m → (m.code kind).hash = none

/-- A code that was accepted was mailed before to the address it was presented with. -/
def AcceptsMailed (w : World) : Prop :=
  ∀ t c kind address code, (t, Event.codeAccepted c kind address code) ∈ w.trace →
    ∃ t' c', t' < t ∧ (t', Event.codeMailed c' kind address code) ∈ w.trace

variable {cfg : Settings} {w₀ w w' : World} {l : Label} {c : CallId} {before : Call} {s : Stmt}
  {input : Input} {applied : Bool} {k : Except DbErr s.Reply → Call}
  {reply : Except DbErr s.Reply} {db' : Db} {u : UserId} {m m' : UserModel} {kind : CodeKind}
  {address code : String}

theorem Initial.mailed (h0 : w.Initial) (hn : w.NoCodes) : w.Mailed where
  rows u m kind h hm hh := by rw [hn u m kind hm] at hh; cases hh
  presented c call kind address code hc := by rw [h0.calls] at hc; cases hc
  issued c call kind u h hc := by rw [h0.calls] at hc; cases hc

theorem Sent.after {call : Call} (hs : w.Sent kind address code) :
    (w.after c before applied call db').Sent kind address code := by
  obtain ⟨t, c', he⟩ := hs
  exact ⟨t, c', mem_after.mpr (.inl he)⟩

section
variable (hw : w.Sound) (running : w.calls[c]? = some before)
  (issues : before.next cfg (input.env w.ticks) = some ⟨s, k⟩)
  (ran : w.db.exec c input.fails s = some (db', reply))
include hw running issues ran

/-- The address of a row changes only by a call that readdresses it, and stays verified. -/
theorem email_after (hm : (w.db.users u).committed = some m)
    (hm' : (db'.users u).committed = some m') :
    (m.emailVerified = true → m'.emailVerified = true) ∧
      (m'.email = m.email ∨ s.applied reply = true ∧ w.readdresses cfg before = some u) := by
  have hrow := hw.row_step running issues ran u
  rw [hm, hm'] at hrow
  cases hrow with
  | same => exact ⟨id, .inl rfl⟩
  | @write _ _ set ok update =>
    constructor
    · intro hv
      rcases update.emailVerified (m := m) with h | h
      · exact h.trans hv
      · exact h
    · rcases update.email (m := m) with h | ⟨id, user, request, sent, e, rfl, hu, he, h⟩
      · exact Or.inl h
      · by_cases hsame : m.email = cfg.toLowercase e
        · exact Or.inl (h.trans hsame.symm)
        · have hid : id = u := (hw.calls c _ running).symm.trans hu
          subst hid
          exact Or.inr ⟨ok, by simp [readdresses, he, hm, hsame]⟩
  | commit ok issues' work =>
    obtain ⟨hv, he⟩ := work.email issues'
    refine ⟨fun h => hv.trans h, ?_⟩
    rcases he with he | rfl
    · exact Or.inl he
    · cases issues
      have hp := hw.pending_committed running rfl ran ok hm'
      by_cases hsame : m.email = m'.email
      · exact Or.inl hsame.symm
      · exact Or.inr ⟨ok, by simp [readdresses, hp, hm, hsame]⟩

omit hw issues in
/-- Under the guard no row with a code to present, or one on its way, is readdressed. -/
theorem readdresses_none (hok : w.readdressesIdle cfg (.exec c input) = true)
    (ok : s.applied reply = true) (hr : w.readdresses cfg before = some u) :
    (∀ m, (w.db.users u).committed = some m → m.outstanding = false) ∧
      ∀ (o : CallId) (call : Call) kind h, w.calls[o]? = some call →
        call.issues ≠ some (kind, u, h) := by
  simp only [readdressesIdle, running, Db.applied_of_exec ran ok, Bool.false_or, hr,
    Bool.and_eq_true, List.all_eq_true] at hok
  obtain ⟨_, hout, hiss⟩ := hok
  refine ⟨fun m hm => by simpa [hm] using hout, ?_⟩
  intro o call kind h hc hi
  have := hiss call (List.mem_of_getElem? hc)
  simp [hi] at this

theorem Mailed.exec (hM : w.Mailed) (hok : w.readdressesIdle cfg (.exec c input) = true) :
    (w.after c before (s.applied reply) (k reply) db').Mailed where
  rows u m' kind h hm' hh hpres := by
    change (db'.users u).committed = some m' at hm'
    have hcode := (hw.row_step running issues ran u).code kind
    rw [hm'] at hcode
    rcases hcode.hash_cases rfl with hnone | ⟨cols, hcols, hsame⟩ |
      ⟨cols, h', hcols, ok, hi, _, hnew⟩
    · rw [hh] at hnone
      cases hnone
    · -- the code was there before, and so was the address
      obtain ⟨m, hm, rfl⟩ := Option.map_eq_some_iff.mp hcols
      have hh' := hsame.symm.trans hh
      obtain ⟨hv, hemail⟩ := email_after hw running issues ran hm hm'
      have hpres' : m.presentable kind = true := by
        cases kind with
        | verification =>
          have hnot : m'.emailVerified ≠ true := by simpa [UserModel.presentable] using hpres
          have : m.emailVerified ≠ true := fun h => hnot (hv h)
          simpa [UserModel.presentable] using this
        | passwordReset => rfl
      rcases hemail with he | ⟨ok, hr⟩
      · rw [he]
        exact (hM.rows u m kind h hm hh' hpres').after
      · have hout := (readdresses_none running ran hok ok hr).1 m hm
        rw [UserModel.outstanding_of_hash hh' hpres'] at hout
        cases hout
    · -- the code is stored and mailed in this step
      rw [hh] at hnew
      cases hnew
      obtain ⟨m, hm, rfl⟩ := Option.map_eq_some_iff.mp hcols
      obtain ⟨address, hmail, hsince⟩ := hM.issued c before kind u h running hi
      rcases (email_after hw running issues ran hm hm').2 with he | ⟨ok, hr⟩
      · have hsend : input.sendOk = true := by
          simp only [readdressesIdle, running, Db.applied_of_exec ran ok, Bool.false_or, hmail,
            Option.isNone_some, Bool.and_eq_true] at hok
          exact hok.1
        rw [he, hsince.2 m hm]
        exact ⟨w.ticks, c, mem_after.mpr (.inr ⟨rfl,
          mem_observe.mpr (.inr (.inl ⟨ok, Call.mailed issues hmail ok hsend⟩))⟩)⟩
      · exact absurd hi
          ((readdresses_none running ran hok ok hr).2 c before kind h running)
  presented o call kind address code hc hp := by
    by_cases ho : o = c
    · subst ho
      rw [after_self running] at hc
      cases hc
      rcases Call.offers_step issues hp with hp | ⟨m, h, hpick, rfl, rfl, hh, hpres⟩
      · exact (hM.presented o before kind address code running hp).after
      · exact (hM.rows m.id m kind h (hw.selected running issues ran hpick).1 hh hpres).after
    · rw [after_other ho] at hc
      exact (hM.presented o call kind address code hc hp).after
  issued o call kind u h hc hi := by
    by_cases ho : o = c
    · subst ho
      rw [after_self running] at hc
      cases hc
      obtain ⟨m, p, rfl, hpick, rfl, hmail⟩ := Call.mails_step issues hi
      obtain ⟨hm, rfl⟩ := hw.selected running issues ran hpick
      rcases reply with e | found
      · cases hpick
      · cases hpick
        exact ⟨m.email, hmail (Db.exec_selectUser ran), hw.since hm rfl⟩
    · rw [after_other ho] at hc
      obtain ⟨address, hmail, hsince⟩ := hM.issued o call kind u h hc hi
      refine ⟨address, hmail, hsince.after hw ran ?_⟩
      intro m m' hm hm' he
      rcases (email_after hw running issues ran hm hm').2 with h' | ⟨ok, hr⟩
      · exact h'.trans he
      · exact absurd hi ((readdresses_none running ran hok ok hr).2 o call kind h hc)

end

theorem Mailed.step (hw : w.Sound) (hM : w.Mailed) (hok : w.readdressesIdle cfg l = true)
    (ht : Transition cfg w l w') : w'.Mailed := by
  cases ht with
  | exec running issues ran => exact Mailed.exec hw running issues ran hM hok
  | expire => exact ⟨hM.rows, hM.presented, hM.issued⟩
  | @invoke call start =>
    have hidle : call.offers = none ∧ call.issues = none := by
      cases call <;> rename_i q <;> cases q <;> first | exact ⟨rfl, rfl⟩ | cases start
    refine ⟨hM.rows, ?_, ?_⟩
    · intro c call' kind address code hc hp
      rcases join_calls hc with hc | rfl
      · exact hM.presented c call' kind address code hc hp
      · rw [hidle.1] at hp
        cases hp
    · intro c call' kind u h hc hi
      rcases join_calls hc with hc | rfl
      · exact hM.issued c call' kind u h hc hi
      · rw [hidle.2] at hi
        cases hi

theorem AcceptsMailed.step (hR : w.Recorded) (hM : w.Mailed) (hA : w.AcceptsMailed)
    (ht : Transition cfg w l w') : w'.AcceptsMailed := by
  cases ht with
  | invoke => exact hA
  | expire => exact hA
  | exec running issues ran =>
    intro t c' kind address code hmem
    rcases mem_after.mp hmem with he | ⟨rfl, he⟩
    · obtain ⟨t', c'', hlt, he'⟩ := hA t c' kind address code he
      exact ⟨t', c'', hlt, mem_after.mpr (.inl he')⟩
    · obtain ⟨_, hl⟩ := logged_of_observe he nofun nofun nofun
      obtain ⟨t', c'', he'⟩ := hM.presented _ _ kind address code running hl.accepted
      exact ⟨t', c'', hR.past t' _ he', mem_after.mpr (.inl he')⟩

/-- Codes work only for the mailbox they were sent to. -/
theorem codes_accepted_where_mailed (h0 : w₀.Initial) (hn : w₀.NoCodes)
    (h : Runs.Reaches (World.step cfg) (fun w l => w.readdressesIdle cfg l = true) w₀ w) :
    w.AcceptsMailed := by
  have hI : w.Sound ∧ w.Recorded ∧ w.Mailed ∧ w.AcceptsMailed :=
    h.invariant (I := fun w => w.Sound ∧ w.Recorded ∧ w.Mailed ∧ w.AcceptsMailed)
      ⟨h0.sound, h0.recorded, h0.mailed hn, fun t c kind address code he => by
        rw [h0.trace] at he; cases he⟩ fun _ _ _ ⟨hs, hR, hM, hA⟩ hok hstep =>
        have ht := step_transition hstep
        ⟨hs.step ht, hR.step ht, hM.step hs hok ht, hA.step hR hM ht⟩
  exact hI.2.2.2

/-! ## A change of address between mail and use -/


theorem noCodes_account : account.NoCodes := by
  intro u m kind hm
  have hmem := List.mem_of_find?_eq_some hm
  rw [List.mem_singleton.mp hmem]
  cases kind <;> rfl

def forgot : List Label :=
  [.invoke (.requestReset (.find "ada@example.com")), .exec 0 { code := "111111" }, .exec 0 {}]

def move (c : CallId) : List Label :=
  [.invoke (.updateUser (.find 1 ⟨some "eve@example.com", none, none⟩ "system")), .exec c {},
    .exec c {}]

def reset (c : CallId) (email : String) : List Label :=
  [.invoke (.resetPassword (.find email "111111" "N3wPassw0rd!")), .exec c {}, .exec c {},
    .exec c {}, .exec c {}, .exec c {}, .exec c {}]

theorem codes_accepted_where_mailed_idle :
    ((Runs.run (World.step .plain) (fun w l => w.readdressesIdle .plain l = true) account
      (forgot ++ reset 1 "ada@example.com" ++ move 2)).get (by decide)).AcceptsMailed :=
  codes_accepted_where_mailed initial_account noCodes_account (Runs.reaches_run_get _)

theorem code_accepted_elsewhere : ∃ w,
    Runs.Reaches (World.step .plain) Runs.Free account w ∧ ¬ w.AcceptsMailed := by
  let w := (Runs.run (World.step .plain) Runs.Free account
    (forgot ++ move 1 ++ reset 2 "eve@example.com")).get (by decide)
  have haccepted : (13, Event.codeAccepted 2 .passwordReset "eve@example.com" "111111") ∈
      w.trace := by decide
  have hmailed : w.trace.filterMap (fun te => te.2.mailedTo) = ["ada@example.com"] := by decide
  refine ⟨w, Runs.reaches_run_get _, ?_⟩
  intro h
  obtain ⟨t', c', _, he⟩ := h 13 2 .passwordReset _ _ haccepted
  have hmem : "eve@example.com" ∈ w.trace.filterMap fun te => te.2.mailedTo :=
    List.mem_filterMap.mpr ⟨_, he, rfl⟩
  rw [hmailed] at hmem
  exact absurd hmem (by decide)

end World

end Webshelf
