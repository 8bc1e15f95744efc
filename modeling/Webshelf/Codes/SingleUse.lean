import Webshelf.Codes.Drawn

/-!
# Single use of reset codes

The UPDATE of `reset_password` asks for some stored hash, not for the one the
code was compared with. As long as no code is issued over the head of a reset
that has presented the right code, the two are the same, and every code
authorises at most one replacement. One issued over its head is consumed in its
place.
-/

namespace Webshelf

namespace Call

/-- The reset presents the right code for the hash it has read, and has not
replaced the password yet. -/
def presents : Call → Option (UserId × Argon2)
  | resetPassword (.claim user h code _) =>
    if Argon2.verify code h then some (user.id, h) else none
  | resetPassword (.update user h _) => some (user.id, h)
  | _ => none

/-- The reset has replaced the password in its open transaction. -/
def consumes : Call → Option (UserId × Argon2)
  | resetPassword (.refetch user h) | resetPassword (.revoke user h _)
  | resetPassword (.revoking user h _ _) | resetPassword (.commit user h _) => some (user.id, h)
  | _ => none

section
variable {cfg : Settings} {env : Env} {before : Call} {s : Stmt} {u : UserId} {h : Argon2}
  {k : Except DbErr s.Reply → Call} {reply : Except DbErr s.Reply}

theorem presents_step (hi : before.next cfg env = some ⟨s, k⟩)
    (hn : (k reply).presents = some (u, h)) : before.presents = some (u, h) ∨
      ∃ m, s.picked reply = some m ∧ m.id = u ∧ m.passwordReset.hash = some h := by
  cases before with
  | resetPassword q =>
    cases q with
    | find =>
      cases hi
      dsimp only at hn
      (repeat' split at hn) <;> try cases hn
      rename_i m _ _ hu
      simp only [presents] at hn
      split at hn <;> cases hn
      exact Or.inr ⟨m, rfl, rfl, hash_of_usable hu⟩
    | claim user h' code =>
      cases hi
      dsimp only at hn
      (repeat' split at hn) <;> try cases hn
      rename_i hv
      exact Or.inl (by simp [presents, hv])
    | update | refetch | revoke | revoking | commit | abort =>
      cases hi
      dsimp only [deleted] at hn
      (repeat' split at hn) <;> cases hn
    | done => cases hi
  | requestReset q | resendCode q | sendVerification q | modifyBalance q | updateUser q
  | changePassword q | autoVerify q | verifyEmail q | login q | wxLogin q | rotate q
  | revokeAll q | logout q | getUser q | setOpenid q | checkTokenVersion q | createUser q
  | deleteUser q =>
    obtain ⟨k', _, rfl⟩ := Next.map_some hi
    cases hn

theorem consumes_step (hi : before.next cfg env = some ⟨s, k⟩)
    (hn : (k reply).consumes = some (u, h)) :
    before.consumes = some (u, h) ∧ s.staysOpen = true ∨
      ∃ user newHash, before = resetPassword (.update user h newHash) ∧ user.id = u ∧
        s.applied reply = true := by
  cases before with
  | resetPassword q =>
    cases q with
    | update user h' newHash =>
      cases hi
      dsimp only at hn
      split at hn <;> cases hn
      exact Or.inr ⟨user, newHash, rfl, rfl, rfl⟩
    | find | claim | refetch | revoke | revoking | commit | abort =>
      cases hi
      dsimp only [deleted] at hn
      (repeat' split at hn) <;> first | exact Or.inl ⟨hn, rfl⟩ | cases hn
    | done => cases hi
  | requestReset q | resendCode q | sendVerification q | modifyBalance q | updateUser q
  | changePassword q | autoVerify q | verifyEmail q | login q | wxLogin q | rotate q
  | revokeAll q | logout q | getUser q | setOpenid q | checkTokenVersion q | createUser q
  | deleteUser q =>
    obtain ⟨k', _, rfl⟩ := Next.map_some hi
    cases hn

theorem locks_of_consumes (hc : before.consumes = some (u, h)) : before.locks = some u := by
  cases before with
  | resetPassword q => cases q <;> cases hc <;> rfl
  | _ => cases hc

theorem idle_reset (hi : before.initial = true) :
    before.presents = none ∧ before.consumes = none := by
  cases before <;> rename_i q <;> cases q <;> first | exact ⟨rfl, rfl⟩ | cases hi

end

end Call

/-- The call that committed a replacement authorised by the code `h` of `u`. -/
def Event.resetBy (u : UserId) (h : Argon2) : Event → Option CallId
  | .resetCommitted c u' h' => if u' = u ∧ h' = h then some c else none
  | _ => none

/-- The call is about to commit a replacement authorised by the code `h` of `u`. -/
def Call.authorised (c : CallId) (u : UserId) (h : Argon2) : Call → List CallId
  | .resetPassword (.commit user h' _) => if user.id = u ∧ h' = h then [c] else []
  | _ => []

theorem Call.events_resetBy {c : CallId} {u : UserId} {h : Argon2} {db db' : Db}
    {before after : Call} :
    (before.events c db db' after).filterMap (Event.resetBy u h) = before.authorised c u h := by
  by_cases hb : ∃ user h' updated, before = .resetPassword (.commit user h' updated)
  · obtain ⟨user, h', updated, rfl⟩ := hb
    by_cases hu : user.id = u ∧ h' = h <;> simp [Call.events, Event.resetBy, Call.authorised, hu]
  · rw [Call.events_filterMap_nil fun e he => ?_]
    · unfold Call.authorised
      split
      · exact absurd ⟨_, _, _, rfl⟩ hb
      · rfl
    · cases he with
      | resetCommitted => exact absurd ⟨_, _, _, rfl⟩ hb
      | _ => rfl

namespace World

/-- The replacements authorised by the code `h` of `u`. -/
def resets (w : World) (u : UserId) (h : Argon2) : List CallId :=
  w.trace.filterMap fun (_, e) => e.resetBy u h

/-- No reset of `u` that presents the right code has still to replace the password. -/
def quiet (w : World) (u : UserId) : Bool :=
  w.calls.all fun call => call.presents.all fun (u', _) => u' != u

/-- The stored reset code of `u` is old enough to be replaced. -/
def cooled (w : World) (u : UserId) (now : Time) : Bool :=
  (w.db.users u).committed.any fun m =>
    m.passwordReset.sentAt.all fun t => decide (t ≤ now - seconds RESEND_COOLDOWN_SECONDS)

/-- `request_reset` does not store a code over the head of a reset that presents
the right code. -/
def reissuesQuietly (w : World) : Label → Bool
  | .exec c input =>
    match w.calls[c]? with
    | some (.requestReset (.store user _ _ _ now)) =>
      input.fails || !w.cooled user.id now || w.quiet user.id
    | _ => true
  | _ => true

structure SingleUse (w : World) : Prop where
  presented : ∀ (c : CallId) (call : Call) u h m, w.calls[c]? = some call →
    call.presents = some (u, h) → (w.db.users u).committed = some m →
    m.passwordReset.hash = some h ∨ m.passwordReset.hash = none
  consumed : ∀ (c : CallId) (call : Call) u h, w.calls[c]? = some call →
    call.consumes = some (u, h) → (∃ m, (w.db.users u).committed = some m ∧
      m.passwordReset.hash = some h) ∧ ∃ t, (t, Event.passwordReplaced c u h (some h)) ∈ w.trace
  spent : ∀ t c u h m, (t, Event.resetCommitted c u h) ∈ w.trace →
    (w.db.users u).committed = some m → m.passwordReset.hash ≠ some h
  matched : ∀ t c u h stored, (t, Event.passwordReplaced c u h stored) ∈ w.trace → stored = some h
  recorded : ∀ t c u h, (t, Event.resetCommitted c u h) ∈ w.trace →
    ∃ t', (t', Event.passwordReplaced c u h (some h)) ∈ w.trace
  once : ∀ u h, (w.resets u h).length ≤ 1

variable {cfg : Settings} {w₀ w w' : World} {l : Label} {c : CallId} {before : Call} {s : Stmt}
  {input : Input} {applied : Bool} {k : Except DbErr s.Reply → Call}
  {reply : Except DbErr s.Reply} {db' : Db} {u : UserId} {h : Argon2} {m : UserModel}

theorem Initial.singleUse (h0 : w.Initial) : w.SingleUse where
  presented c _ _ _ _ hc := by rw [h0.calls] at hc; cases hc
  consumed c _ _ _ hc := by rw [h0.calls] at hc; cases hc
  spent t c u h m he := by rw [h0.trace] at he; cases he
  matched t c u h stored he := by rw [h0.trace] at he; cases he
  recorded t c u h he := by rw [h0.trace] at he; cases he
  once u h := by simp [resets, h0.trace]

section
variable (hw : w.Sound) (hD : w.Drawn) (hS : w.SingleUse) (running : w.calls[c]? = some before)
  (issues : before.next cfg (input.env w.ticks) = some ⟨s, k⟩)
  (ran : w.db.exec c input.fails s = some (db', reply))
  (hok : w.reissuesQuietly (.exec c input) = true)
include hw hS running issues ran

include hok in
/-- While a reset presents the right code, its hash can only be cleared. -/
theorem presented_after {c' : CallId} {call : Call} (hc : w.calls[c']? = some call)
    (hp : call.presents = some (u, h)) (hm : (db'.users u).committed = some m) :
    m.passwordReset.hash = some h ∨ m.passwordReset.hash = none := by
  have hr := (hw.row_step running issues ran u).code .passwordReset
  have hm' : (db'.users u).committed.map (fun m => m.code .passwordReset) =
      some m.passwordReset := by rw [hm]; rfl
  rcases hr.hash_cases hm' with hn | ⟨cols, ho, he⟩ | ⟨cols, h', ho, ok, hi, cool, _⟩
  · exact Or.inr hn
  · obtain ⟨m₀, hm₀, rfl⟩ := Option.map_eq_some_iff.mp ho
    rw [he]
    exact hS.presented c' call u h m₀ hc hp hm₀
  · exfalso
    obtain ⟨m₀, hm₀, rfl⟩ := Option.map_eq_some_iff.mp ho
    cases before with
    | requestReset q =>
      cases q with
      | store user email code h'' sent =>
        cases hi
        have hcool : w.cooled user.id sent = true := by
          simpa [cooled, hm₀, Call.cools, UserModel.code] using cool
        simp only [reissuesQuietly, running, Db.applied_of_exec ran ok, hcool, Bool.not_true,
          Bool.or_false, Bool.false_or, quiet, List.all_eq_true] at hok
        have := hok call (List.mem_of_getElem? hc)
        simp [hp] at this
      | find | done => cases hi
    | resendCode q => cases q <;> cases hi
    | sendVerification q => cases q <;> cases hi
    | _ => cases hi

omit issues in
/-- A reset that has replaced the password keeps the row, and with it the hash. -/
theorem consumed_after {c' : CallId} {call : Call} (hc : w.calls[c']? = some call)
    (hp : call.consumes = some (u, h)) (hs : c' = c → s.staysOpen = true) :
    ∃ m, (db'.users u).committed = some m ∧ m.passwordReset.hash = some h := by
  obtain ⟨⟨m, hm, hh⟩, _⟩ := hS.consumed c' call u h hc hp
  obtain ⟨v, hv⟩ := hw.locked c' call u hc (Call.locks_of_consumes hp)
  refine ⟨m, ?_, hh⟩
  by_cases hcc : c' = c
  · subst hcc
    rw [(Db.exec_user ran u).committed_held hv (hs rfl)]
    exact hm
  · rw [row_other ran hv hcc]
    exact hm

end

/-- The UPDATE of a reset finds in the column the hash the code was compared with. -/
theorem replaced_matches (hw : w.Sound) (hS : w.SingleUse) {user : UserModel} {newHash : Argon2}
    {env : Env} {fails : Bool} {reply : Except DbErr (Option UserModel)}
    (running : w.calls[c]? = some (.resetPassword (.update user h newHash)))
    (ran : w.db.exec c fails (consumeResetCode user.id newHash env.now) = some (db', reply))
    (ok : (consumeResetCode user.id newHash env.now).applied reply = true) :
    ∃ m, (w.db.users user.id).committed = some m ∧ (db'.users user.id).committed = some m ∧
      (w.db.users user.id).view c = some m ∧ m.passwordReset.hash = some h := by
  rcases reply with e | _ | m'
  · cases ok
  · cases ok
  · obtain ⟨m, seen, hp, _, hwr⟩ := (Db.exec_user ran user.id).updated
    have hv := hw.view_eq (u := user.id) running fun _ _ hW => hW
    have hm : (w.db.users user.id).committed = some m := hv ▸ seen
    refine ⟨m, hm, ?_, seen, ?_⟩
    · rcases hwr with ⟨_, hr⟩ | ⟨hauto, _⟩
      · rw [hr]
        exact hm
      · cases hauto
    · rcases hS.presented c _ user.id h m running rfl hm with hh | hh
      · exact hh
      · rw [hh] at hp
        cases hp

theorem resets_after {call : Call} :
    (w.after c before applied call db').resets u h =
      w.resets u h ++ if applied then before.authorised c u h else [] :=
  filterMap_after (fun _ => rfl) (fun _ => rfl) (fun _ _ _ _ => rfl) Call.events_resetBy

theorem mem_resets {c' : CallId} (hc : c' ∈ w.resets u h) :
    ∃ t, (t, Event.resetCommitted c' u h) ∈ w.trace := by
  obtain ⟨⟨t, e⟩, he, hr⟩ := List.mem_filterMap.mp hc
  cases e with
  | resetCommitted c u' h' =>
    simp only [Event.resetBy] at hr
    split at hr
    · rename_i heq
      cases hr
      obtain ⟨rfl, rfl⟩ := heq
      exact ⟨t, he⟩
    · cases hr
  | _ => cases hr

theorem SingleUse.exec (hw : w.Sound) (hD : w.Drawn) (hS : w.SingleUse)
    (running : w.calls[c]? = some before)
    (issues : before.next cfg (input.env w.ticks) = some ⟨s, k⟩)
    (ran : w.db.exec c input.fails s = some (db', reply))
    (hok : w.reissuesQuietly (.exec c input) = true) :
    (w.after c before (s.applied reply) (k reply) db').SingleUse where
  presented c' call u h m hc hp hm := by
    by_cases ho : c' = c
    · subst ho
      rw [after_self running] at hc
      cases hc
      rcases Call.presents_step issues hp with hb | ⟨m₀, hpick, rfl, hh⟩
      · exact presented_after hw hS running issues ran hok running hb hm
      · obtain ⟨hm₀, rfl⟩ := hw.selected running issues ran hpick
        rw [show (w.db.users m₀.id).committed = some m from hm] at hm₀
        cases hm₀
        exact Or.inl hh
    · rw [after_other ho] at hc
      exact presented_after hw hS running issues ran hok hc hp hm
  consumed c' call u h hc hp := by
    by_cases ho : c' = c
    · subst ho
      rw [after_self running] at hc
      cases hc
      rcases Call.consumes_step issues hp with ⟨hb, hs⟩ | ⟨user, newHash, rfl, rfl, ok⟩
      · obtain ⟨_, t, he⟩ := hS.consumed c' before u h running hb
        exact ⟨consumed_after hw hS running ran running hb fun _ => hs, t, mem_after.mpr (.inl he)⟩
      · cases issues
        obtain ⟨m, hm, hm', hv, hh⟩ := replaced_matches hw hS running ran ok
        refine ⟨⟨m, hm', ?_⟩, w.ticks, mem_after.mpr (.inr ⟨rfl, ?_⟩)⟩
        · exact hh
        · have hseen : w.db.seen c' .txn user.id = some m := hv
          exact mem_observe.mpr (.inr (.inl ⟨ok, by simp [Call.events, hseen, hh]⟩))
    · rw [after_other ho] at hc
      obtain ⟨_, t, he⟩ := hS.consumed c' call u h hc hp
      exact ⟨consumed_after hw hS running ran hc hp fun h => absurd h ho, t,
        mem_after.mpr (.inl he)⟩
  spent t c' u h m hmem hm hh := by
    rcases mem_after.mp hmem with he | ⟨rfl, he⟩
    · have hr := (hw.row_step running issues ran u).code .passwordReset
      change (db'.users u).committed = some m at hm
      rw [hm] at hr
      rcases hr.hash rfl hh with ⟨cols, ho, hh'⟩ | ⟨_, hi⟩
      · obtain ⟨m₀, hm₀, rfl⟩ := Option.map_eq_some_iff.mp ho
        exact hS.spent t c' u h m₀ he hm₀ hh'
      · exact (hD.past t _ h he rfl).2 c before _ _ h running hi rfl
    · obtain ⟨ok, hl⟩ := logged_of_observe he nofun nofun nofun
      generalize k reply = call' at hl
      cases hl
      cases issues
      rcases reply with e | _
      · cases ok
      · obtain ⟨m₀, v, _, hW, hv⟩ := hw.committed running rfl ran
        rw [show (db'.users _).committed = some m from hm] at hv
        cases hv
        rw [hW.2.2] at hh
        cases hh
  matched t c' u h stored hmem := by
    rcases mem_after.mp hmem with he | ⟨rfl, he⟩
    · exact hS.matched t c' u h stored he
    · obtain ⟨ok, hl⟩ := logged_of_observe he nofun nofun nofun
      generalize k reply = call' at hl
      cases hl
      cases issues
      obtain ⟨m, _, _, hv, hh⟩ := replaced_matches hw hS running ran ok
      rw [show w.db.seen c .txn _ = some m from hv]
      exact hh
  recorded t c' u h hmem := by
    rcases mem_after.mp hmem with he | ⟨rfl, he⟩
    · obtain ⟨t', he'⟩ := hS.recorded t c' u h he
      exact ⟨t', mem_after.mpr (.inl he')⟩
    · obtain ⟨ok, hl⟩ := logged_of_observe he nofun nofun nofun
      generalize k reply = call' at hl
      cases hl
      obtain ⟨_, t', he'⟩ := hS.consumed c _ _ h running rfl
      exact ⟨t', mem_after.mpr (.inl he')⟩
  once u h := by
    rw [resets_after]
    by_cases hb : ∃ user updated, before = .resetPassword (.commit user h updated) ∧ user.id = u
    · obtain ⟨user, updated, rfl, rfl⟩ := hb
      have hnil : w.resets user.id h = [] := by
        rw [List.eq_nil_iff_forall_not_mem]
        intro c' hc'
        obtain ⟨t, he⟩ := mem_resets hc'
        obtain ⟨⟨m, hm, hh⟩, _⟩ := hS.consumed c _ user.id h running rfl
        exact hS.spent t c' user.id h m he hm hh
      rw [hnil]
      split <;> simp [Call.authorised]
    · have hnil : before.authorised c u h = [] := by
        unfold Call.authorised
        split
        · split
          · rename_i heq
            obtain ⟨rfl, rfl⟩ := heq
            exact absurd ⟨_, _, rfl, rfl⟩ hb
          · rfl
        · rfl
      rw [hnil, ite_self, List.append_nil]
      exact hS.once u h

theorem SingleUse.step (hw : w.Sound) (hD : w.Drawn) (hS : w.SingleUse)
    (hok : w.reissuesQuietly l = true) (ht : Transition cfg w l w') : w'.SingleUse := by
  cases ht with
  | exec running issues ran => exact hS.exec hw hD running issues ran hok
  | expire => exact ⟨hS.presented, hS.consumed, hS.spent, hS.matched, hS.recorded, hS.once⟩
  | invoke start =>
    obtain ⟨hp, hc⟩ := Call.idle_reset start
    refine ⟨?_, ?_, hS.spent,
      hS.matched, hS.recorded, hS.once⟩
    · intro c call u h m hcall hp' hm
      rcases join_calls hcall with hcall | rfl
      · exact hS.presented c call u h m hcall hp' hm
      · rw [hp] at hp'
        cases hp'
    · intro c call u h hcall hc'
      rcases join_calls hcall with hcall | rfl
      · exact hS.consumed c call u h hcall hc'
      · rw [hc] at hc'
        cases hc'

/-- Each code has authorised at most one committed replacement, and the UPDATE of a
committed replacement found the hash that its code was compared with. -/
structure CodesUsedOnce (w : World) : Prop where
  once : ∀ u h, (w.resets u h).length ≤ 1
  recorded : ∀ t c u h, (t, Event.resetCommitted c u h) ∈ w.trace →
    ∃ t', (t', Event.passwordReplaced c u h (some h)) ∈ w.trace
  matched : ∀ t c u h stored, (t, Event.passwordReplaced c u h stored) ∈ w.trace → stored = some h

theorem reset_codes_used_once (h0 : w₀.Initial)
    (h : Runs.Reaches (World.step cfg) (fun w l => w.reissuesQuietly l = true) w₀ w) :
    w.CodesUsedOnce := by
  have hI : w.Sound ∧ w.Drawn ∧ w.SingleUse :=
    h.invariant (I := fun w => w.Sound ∧ w.Drawn ∧ w.SingleUse)
      ⟨h0.sound, h0.drawn, h0.singleUse⟩ fun a l b ⟨hs, hD, hS⟩ hok hstep =>
        have ht := step_transition hstep
        ⟨hs.step ht, hD.step hs ht, hS.step hs hD hok ht⟩
  exact ⟨hI.2.2.once, hI.2.2.recorded, hI.2.2.matched⟩

/-! ## Two resets with one code -/

/-- An account with a reset code sent at time 0. -/
def resetPending : World :=
  .ofRows [{ UserModel.registered 1 "ada@example.com" "Passw0rd!" "user" with
    passwordReset := ⟨some (.hash 0 "111111"), some (minutes 10), some 0, 0⟩ }] [] 1

theorem initial_resetPending : resetPending.Initial :=
  initial_ofRow {
    balance := Int64.le_refl 0
    attempts := fun kind => by cases kind <;> exact Int.le_refl 0
    salts := fun kind h hh => by cases kind <;> cases hh; exact Nat.zero_lt_one }

def presentOld (newPassword : String) : Label :=
  .invoke (.resetPassword (.find "ada@example.com" "111111" newPassword))

/-- Both calls present the code; the second one consumes it, and then a new code is requested. -/
def requestAfterReset : List Label :=
  [presentOld "First-1st", presentOld "Second-2nd",
    .invoke (.requestReset (.find "ada@example.com")),
    .exec 1 {}, .exec 1 {}, .exec 1 {}, .exec 1 {}, .exec 1 {}, .exec 1 {},
    .exec 2 { code := "222222" }, .exec 2 {}]

/-- The same, with the first call between its comparison and its UPDATE meanwhile. -/
def requestDuringReset : List Label :=
  [presentOld "First-1st", presentOld "Second-2nd",
    .invoke (.requestReset (.find "ada@example.com")), .exec 0 {}, .exec 0 {},
    .exec 1 {}, .exec 1 {}, .exec 1 {}, .exec 1 {}, .exec 1 {}, .exec 1 {},
    .exec 2 { code := "222222" }, .exec 2 {},
    .exec 0 {}, .exec 0 {}, .exec 0 {}, .exec 0 {}]

theorem reset_codes_used_once_quiet :
    ((Runs.run (World.step .plain) (fun w l => w.reissuesQuietly l = true) resetPending
      requestAfterReset).get (by decide)).CodesUsedOnce :=
  reset_codes_used_once initial_resetPending (Runs.reaches_run_get _)

theorem reset_code_used_twice : ∃ w,
    Runs.Reaches (World.step .plain) Runs.Free resetPending w ∧ ¬ w.CodesUsedOnce := by
  let w := (Runs.run (World.step .plain) Runs.Free resetPending requestDuringReset).get (by decide)
  have htwice : (w.resets 1 (.hash 0 "111111")).length = 2 := by decide
  exact ⟨w, Runs.reaches_run_get _, fun h => by have := h.once 1 (.hash 0 "111111"); omega⟩

end World

end Webshelf
