import Webshelf.Codes.Guesses

/-!
# The resend cooldown

The time a code is sent is taken from the clock of the application before the
code is hashed, so the guarded UPDATEs of two calls may come in another order
than their times. The guard compares with the `sent_at` that is in the row, and
only clearing a code empties that column.
-/

namespace Webshelf

/-- What a run does to the codes: a guarded UPDATE that stored one with its
`sent_at`, or a statement that cleared one for good. -/
inductive CodeEvent where
  | issued (kind : CodeKind) (u : UserId) (sentAt : Time)
  | cleared (kind : CodeKind) (u : UserId)
  deriving DecidableEq

/-- What the statement the call is at does to a code, if it changes its row. -/
def Call.codeWork : Call → Option CodeEvent
  | .requestReset (.store user _ _ _ now) => some (.issued .passwordReset user.id now)
  | .resendCode (.store user _ _ _ now) => some (.issued .verification user.id now)
  | .verifyEmail (.update user _ _) => some (.cleared .verification user.id)
  | .resetPassword (.commit user _ _) => some (.cleared .passwordReset user.id)
  | _ => none

def Call.codeEvent (before : Call) (applied : Bool) : Option CodeEvent :=
  if applied then before.codeWork else none

/-- `send_verification_email` stores a code without the cooldown. -/
def Call.sendsUnguarded : Call → Bool
  | .sendVerification _ => true
  | _ => false

/-! ## Spaced logs -/

namespace CodeEvent

/-- The `sent_at` of the code that a log, the last event first, leaves in the row. -/
def latest (kind : CodeKind) (u : UserId) : List CodeEvent → Option Time
  | [] => none
  | .issued kind' u' t :: earlier =>
    if (kind', u') = (kind, u) then some t else latest kind u earlier
  | .cleared kind' u' :: earlier =>
    if (kind', u') = (kind, u) then none else latest kind u earlier

/-- Every code is issued a cooldown later than the one it replaces. -/
def Spaced : List CodeEvent → Prop
  | [] => True
  | .issued kind u t' :: earlier =>
    (∀ t, latest kind u earlier = some t → t + seconds RESEND_COOLDOWN_SECONDS ≤ t') ∧
      Spaced earlier
  | .cleared _ _ :: earlier => Spaced earlier

variable {kind : CodeKind} {u : UserId} {t t' : Time} {later between earlier : List CodeEvent}

theorem Spaced.of_append (h : Spaced (later ++ earlier)) : Spaced earlier := by
  induction later with
  | nil => exact h
  | cons e later ih =>
    cases e with
    | issued => exact ih h.2
    | cleared => exact ih h

/-- The code a log leaves is the one just issued, or stays the one of the log before. -/
theorem latest_append {e : Option CodeEvent} (h : latest kind u (e.toList ++ earlier) = some t) :
    e = some (.issued kind u t) ∨ latest kind u earlier = some t ∧
      e ≠ some (.cleared kind u) ∧ ∀ t', e ≠ some (.issued kind u t') := by
  cases e with
  | none => exact Or.inr ⟨h, nofun, nofun⟩
  | some e =>
    change latest kind u (e :: earlier) = some t at h
    cases e with
    | issued =>
      simp only [latest] at h
      split at h
      · rename_i heq
        cases heq
        cases h
        exact Or.inl rfl
      · rename_i hne
        exact Or.inr ⟨h, nofun, fun _ heq => hne (by cases heq; rfl)⟩
    | cleared =>
      simp only [latest] at h
      split at h
      · cases h
      · rename_i hne
        exact Or.inr ⟨h, fun heq => hne (by cases heq; rfl), nofun⟩

/-- As long as the code is not cleared, the one in the row was not issued before it. -/
theorem Spaced.latest_since (h : Spaced (between ++ .issued kind u t :: earlier))
    (uncleared : .cleared kind u ∉ between) :
    ∃ t₁, latest kind u (between ++ .issued kind u t :: earlier) = some t₁ ∧ t ≤ t₁ := by
  induction between with
  | nil => exact ⟨t, if_pos rfl, Int.le_refl t⟩
  | cons e between ih =>
    have hrest := fun h => ih h fun hm => uncleared (List.mem_cons_of_mem _ hm)
    cases e with
    | issued kind' u' t' =>
      obtain ⟨t₁, hlatest, hle⟩ := hrest h.2
      by_cases he : (kind', u') = (kind, u)
      · cases he
        have hgap := h.1 t₁ hlatest
        have hcool : (0 : Int) ≤ seconds RESEND_COOLDOWN_SECONDS := by decide
        refine ⟨t', if_pos rfl, ?_⟩
        exact Int.le_trans hle (Int.le_trans (Int.le_add_of_nonneg_right hcool) hgap)
      · exact ⟨t₁, by simpa only [List.cons_append, latest, if_neg he] using hlatest, hle⟩
    | cleared kind' u' =>
      obtain ⟨t₁, hlatest, hle⟩ := hrest h
      have he : (kind', u') ≠ (kind, u) := by
        rintro heq
        cases heq
        exact uncleared List.mem_cons_self
      exact ⟨t₁, by simpa only [List.cons_append, latest, if_neg he] using hlatest, hle⟩

/-- Two codes issued with no clearing between them are a cooldown apart. -/
theorem Spaced.apart
    (h : Spaced (later ++ .issued kind u t' :: (between ++ .issued kind u t :: earlier)))
    (uncleared : .cleared kind u ∉ between) : t + seconds RESEND_COOLDOWN_SECONDS ≤ t' := by
  obtain ⟨hgap, hrest⟩ := h.of_append
  obtain ⟨t₁, hlatest, hle⟩ := hrest.latest_since uncleared
  exact Int.le_trans (Int.add_le_add_right hle _) (hgap t₁ hlatest)

end CodeEvent

/-! ## The column -/

namespace Call

variable {u : UserId} {kind : CodeKind} {h : Argon2} {before : Call} {e : CodeEvent}

theorem sendsUnguarded_step {cfg : Settings} {env : Env} {stmt : Stmt}
    {k : Except DbErr stmt.Reply → Call} {reply : Except DbErr stmt.Reply}
    (hi : before.next cfg env = some ⟨stmt, k⟩) :
    (k reply).sendsUnguarded = before.sendsUnguarded := by
  cases before <;>
    · obtain ⟨k', _, rfl⟩ := Next.map_some hi
      rfl

theorem codeWork_of_issues (hi : before.issues = some (kind, u, h))
    (guarded : before.sendsUnguarded = false) :
    ∃ t, before.codeWork = some (.issued kind u t) := by
  cases before with
  | requestReset q | resendCode q =>
    cases q <;> cases hi
    exact ⟨_, rfl⟩
  | sendVerification => cases guarded
  | _ => cases hi

theorem codeWork_of_clears (hc : before.clears = some (kind, u)) :
    before.codeWork = some (.cleared kind u) := by
  cases before with
  | verifyEmail q | resetPassword q =>
    cases q <;> cases hc
    rfl
  | _ => cases hc

/-- A step that does not issue or clear the code of a row keeps its `sent_at`. -/
theorem CodeStep.sentAt {applied : Bool} {p p' : Option CodeColumns} {c' : CodeColumns}
    (hs : CodeStep u kind before applied p p') (guarded : before.sendsUnguarded = false)
    (born : p = none → p' = none) (uncleared : before.codeEvent applied ≠ some (.cleared kind u))
    (unissued : ∀ t, before.codeEvent applied ≠ some (.issued kind u t)) (hp : p' = some c') :
    ∃ c, p = some c ∧ c'.sentAt = c.sentAt := by
  cases hs with
  | same => exact ⟨c', hp, rfl⟩
  | count =>
    cases hp
    exact ⟨_, rfl, rfl⟩
  | issue ok issues =>
    obtain ⟨t, he⟩ := codeWork_of_issues issues guarded
    exact absurd (by rw [codeEvent, if_pos ok, he]) (unissued t)
  | clear ok clears =>
    exact absurd (by rw [codeEvent, if_pos ok, codeWork_of_clears clears]) uncleared
  | insert => cases born rfl
  | delete => cases hp

end Call

/-! ## Runs -/

/-- A server with the log of its codes, the last event first. -/
structure Issuing where
  world : World
  log : List CodeEvent := []

/-- What the step does to the codes, read off the world before it. -/
def World.codeEvent (cfg : Settings) (w : World) : Label → Option CodeEvent
  | .exec c input =>
    match w.calls[c]? with
    | none => none
    | some before =>
      match before.next cfg (input.env w.ticks) with
      | none => none
      | some ⟨stmt, _⟩ =>
        match w.db.exec c input.fails stmt with
        | none => none
        | some (_, reply) => before.codeEvent (stmt.applied reply)
  | _ => none

theorem World.codeEvent_exec {cfg : Settings} {w : World} {c : CallId} {input : Input}
    {before : Call} {stmt : Stmt} {k : Except DbErr stmt.Reply → Call}
    {reply : Except DbErr stmt.Reply} {db' : Db} (running : w.calls[c]? = some before)
    (issues : before.next cfg (input.env w.ticks) = some ⟨stmt, k⟩)
    (ran : w.db.exec c input.fails stmt = some (db', reply)) :
    w.codeEvent cfg (.exec c input) = before.codeEvent (stmt.applied reply) := by
  simp only [World.codeEvent, running, issues, ran]

/-- The step does not invoke `send_verification_email`. -/
def Label.guarded : Label → Bool
  | .invoke call => !call.sendsUnguarded
  | _ => true

namespace Issuing

variable {cfg : Settings} {w₀ : World} {s s' : Issuing} {l : Label}

def step (cfg : Settings) (s : Issuing) (l : Label) : Option Issuing :=
  (s.world.step cfg l).map fun w => ⟨w, (s.world.codeEvent cfg l).toList ++ s.log⟩

structure Cooled (s : Issuing) : Prop where
  sound : s.world.Sound
  guarded : ∀ (c : CallId) (call : Call), s.world.calls[c]? = some call →
    call.sendsUnguarded = false
  /-- The row of a code that was not cleared has the `sent_at` of the log. -/
  row : ∀ kind u t, CodeEvent.latest kind u s.log = some t → u ∈ s.world.db.ids ∧
    ∀ m, (s.world.db.users u).committed = some m → (m.code kind).sentAt = some t
  spaced : CodeEvent.Spaced s.log

theorem cooled_initial (h0 : w₀.Initial) : Cooled ⟨w₀, []⟩ where
  sound := h0.sound
  guarded c call hc := by
    rw [h0.calls] at hc
    cases hc
  row _ _ _ h := by cases h
  spaced := trivial

section
variable {w : World} {c : CallId} {before : Call} {stmt : Stmt} {input : Input}
  {k : Except DbErr stmt.Reply → Call} {reply : Except DbErr stmt.Reply} {db' : Db}
  {kind : CodeKind} {u : UserId} {t : Time} {env : Env} {r r' : Versioned CallId UserModel}

/-- A guarded UPDATE that went through found an old code, or none, and left its own time. -/
theorem issued (issues : before.next cfg env = some ⟨stmt, k⟩) (hs : UserStep c u stmt reply r r')
    (he : before.codeEvent (stmt.applied reply) = some (.issued kind u t)) :
    ∃ m m', r.committed = some m ∧ r'.committed = some m' ∧ (m'.code kind).sentAt = some t ∧
      ∀ t₀, (m.code kind).sentAt = some t₀ → t₀ + seconds RESEND_COOLDOWN_SECONDS ≤ t := by
  have hstored (kind : CodeKind) (h : Argon2) {reply : Except DbErr (storeCode kind u h t).Reply}
      (hs : UserStep c u (storeCode kind u h t) reply r r')
      (ok : (storeCode kind u h t).applied reply = true) :
      ∃ m m', r.committed = some m ∧ r'.committed = some m' ∧ (m'.code kind).sentAt = some t ∧
        ∀ t₀, (m.code kind).sentAt = some t₀ → t₀ + seconds RESEND_COOLDOWN_SECONDS ≤ t := by
    rcases reply with e | _ | m'
    · cases ok
    · cases ok
    · obtain ⟨m, seen, hp, rfl, ⟨hauto, _⟩ | ⟨_, _, rfl⟩⟩ := hs.updated
      · cases hauto
      · refine ⟨m, _, seen, rfl, by rw [UserModel.code_setCode], ?_⟩
        intro t₀ ht₀
        rw [ht₀] at hp
        exact Int.add_le_of_le_sub_right (of_decide_eq_true hp)
  unfold Call.codeEvent at he
  split at he
  · rename_i ok
    cases before with
    | requestReset q | resendCode q =>
      cases q <;> cases he
      cases issues
      exact hstored _ _ hs ok
    | verifyEmail q | resetPassword q => cases q <;> cases he
    | _ => cases he
  · cases he

variable (running : s.world.calls[c]? = some before)
  (issues : before.next cfg (input.env s.world.ticks) = some ⟨stmt, k⟩)
  (ran : s.world.db.exec c input.fails stmt = some (db', reply))
include issues ran

/-- What a step adds to the log is a cooldown later than the code it replaces. -/
theorem Cooled.spaced_exec (hI : s.Cooled) :
    CodeEvent.Spaced ((before.codeEvent (stmt.applied reply)).toList ++ s.log) := by
  cases he : before.codeEvent (stmt.applied reply) with
  | none => exact hI.spaced
  | some e =>
    cases e with
    | cleared => exact hI.spaced
    | issued kind u t =>
      obtain ⟨m, _, hm, _, _, hgap⟩ := issued issues (Db.exec_user ran u) he
      exact ⟨fun t₀ ht₀ => hgap t₀ ((hI.row kind u t₀ ht₀).2 m hm), hI.spaced⟩

include running

theorem Cooled.row_exec (hI : s.Cooled) (hlatest : CodeEvent.latest kind u
      ((before.codeEvent (stmt.applied reply)).toList ++ s.log) = some t) :
    u ∈ db'.ids ∧ ∀ m, (db'.users u).committed = some m → (m.code kind).sentAt = some t := by
  rcases CodeEvent.latest_append hlatest with he | ⟨hold, uncleared, unissued⟩
  · obtain ⟨m, m', hm, hm', hsent, _⟩ := issued issues (Db.exec_user ran u) he
    refine ⟨Db.mem_ids ran (hI.sound.listed u m hm), ?_⟩
    intro m₁ hm₁
    rw [hm'] at hm₁
    cases hm₁
    exact hsent
  · obtain ⟨hi, hrow⟩ := hI.row kind u t hold
    refine ⟨Db.mem_ids ran hi, ?_⟩
    intro m' hm'
    have born : (s.world.db.users u).committed.map (fun m => m.code kind) = none →
        (db'.users u).committed.map (fun m => m.code kind) = none := by
      rw [Option.map_eq_none_iff]
      intro ho
      exact absurd hi (Db.appeared ran ho (hI.sound.not_pending ho) hm').1
    obtain ⟨_, hc, hsent⟩ := ((hI.sound.row_step running issues ran u).code kind).sentAt
      (hI.guarded c before running) born uncleared unissued (by rw [hm', Option.map_some])
    obtain ⟨m, hm, rfl⟩ := Option.map_eq_some_iff.mp hc
    rw [hsent]
    exact hrow m hm

theorem Cooled.exec (hI : s.Cooled) :
    Cooled ⟨s.world.after c before (stmt.applied reply) (k reply) db',
      (before.codeEvent (stmt.applied reply)).toList ++ s.log⟩ where
  sound := hI.sound.step (.exec running issues ran)
  guarded c' call hc := by
    by_cases ho : c' = c
    · subst ho
      rw [World.after_self running] at hc
      cases hc
      rw [Call.sendsUnguarded_step issues]
      exact hI.guarded c' before running
    · rw [World.after_other ho] at hc
      exact hI.guarded c' call hc
  row _ _ _ hlatest := hI.row_exec running issues ran hlatest
  spaced := hI.spaced_exec issues ran

end

theorem step_cases (h : s.step cfg l = some s') : ∃ w, World.Transition cfg s.world l w ∧
    s' = ⟨w, (s.world.codeEvent cfg l).toList ++ s.log⟩ := by
  obtain ⟨w, hw, rfl⟩ := Option.map_eq_some_iff.mp h
  exact ⟨w, World.step_transition hw, rfl⟩

theorem Cooled.step (hI : s.Cooled) (hl : l.guarded = true) (h : s.step cfg l = some s') :
    s'.Cooled := by
  obtain ⟨w, ht, rfl⟩ := step_cases h
  have hsound := hI.sound.step ht
  cases ht with
  | exec running issues ran =>
    rw [World.codeEvent_exec running issues ran]
    exact hI.exec running issues ran
  | expire => exact ⟨hsound, hI.guarded, hI.row, hI.spaced⟩
  | invoke start =>
    refine ⟨hsound, fun c call hc => ?_, hI.row, hI.spaced⟩
    rcases World.join_calls hc with hold | rfl
    · exact hI.guarded c call hold
    · simpa [Label.guarded] using hl

/-- Without `send_verification_email`, two codes of one kind stored for a user are a
cooldown apart by their `sent_at`, unless the earlier one was cleared in between. -/
theorem issued_apart (h0 : w₀.Initial)
    (hr : Runs.Reaches (step cfg) (fun _ l => l.guarded = true) ⟨w₀, []⟩ s) :
    ∀ kind u t t' later between earlier,
      s.log = later ++ .issued kind u t' :: (between ++ .issued kind u t :: earlier) →
      .cleared kind u ∉ between → t + seconds RESEND_COOLDOWN_SECONDS ≤ t' := by
  intro kind u t t' later between earlier hlog uncleared
  have hI : s.Cooled :=
    hr.invariant (I := Cooled) (cooled_initial h0) fun a l b hI hl hstep => hI.step hl hstep
  exact (hlog ▸ hI.spaced).apart uncleared

/-- Three calls read the row at once. The second to come is refused by the guard,
the third took its time a cooldown after the first. -/
def resentTwice : Issuing :=
  (Runs.run (step .plain) (fun _ l => l.guarded = true) ⟨World.codesPending, []⟩
    (List.replicate 3 (.invoke (.resendCode (.find "ada@example.com"))) ++
      [.exec 0 { now := minutes 2, code := "222222" },
        .exec 1 { now := minutes 1, code := "333333" },
        .exec 2 { now := minutes 3, code := "444444" }, .exec 0 {}, .exec 1 {}, .exec 2 {}])).get
    (by decide)

theorem issued_apart_resent :
    resentTwice.log = [.issued .verification 1 (minutes 3), .issued .verification 1 (minutes 2)] ∧
      resentTwice.world.calls[1]? = some (.resendCode (.done (.error .tooSoon))) ∧
      minutes 2 + seconds RESEND_COOLDOWN_SECONDS ≤ minutes 3 :=
  have hr : Runs.Reaches (step .plain) (fun _ l => l.guarded = true) ⟨World.codesPending, []⟩
      resentTwice :=
    Runs.reaches_run_get _
  ⟨by decide, by decide, issued_apart World.initial_codesPending hr
    .verification 1 (minutes 2) (minutes 3) [] [] [] (by decide) (by decide)⟩

end Issuing

end Webshelf
