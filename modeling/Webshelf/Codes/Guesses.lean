import Webshelf.Codes.Drawn

/-!
# How often a code is guessed

A guess reads the hash in one statement and takes a slot on the counter in the
next, and storing or clearing a code sets the counter to zero. A guess that is
between its two statements when that happens takes its slot from the counter of
another code. As long as those guesses, with the ones already compared, are no
more than the limit, no code is compared with more guesses than the limit.
-/

namespace Webshelf

/-- The call that compared its guess with the code `h` of `u`. -/
def Event.guessBy (kind : CodeKind) (u : UserId) (h : Argon2) : Event → Option CallId
  | .codeCompared c kind' u' h' => if (kind', u', h') = (kind, u, h) then some c else none
  | _ => none

/-- The code the call is about to replace by another one, or to clear. -/
def Call.replaces (call : Call) : Option (CodeKind × UserId) :=
  (call.issues.map fun (kind, u, _) => (kind, u)).or call.clears

theorem Call.replaces_of_issues {call : Call} {kind : CodeKind} {u : UserId} {h : Argon2}
    (hi : call.issues = some (kind, u, h)) : call.replaces = some (kind, u) := by
  simp [replaces, hi]

theorem Call.replaces_of_clears {call : Call} {kind : CodeKind} {u : UserId}
    (hc : call.clears = some (kind, u)) :
    call.replaces = some (kind, u) ∧ ∀ c, call.cools c = true := by
  cases call with
  | verifyEmail q =>
    cases q <;> cases hc
    exact ⟨rfl, fun _ => rfl⟩
  | resetPassword q =>
    cases q <;> cases hc
    exact ⟨rfl, fun _ => rfl⟩
  | _ => cases hc

/-- The call compares its guess with the code `h` of `u` if it takes a slot now. -/
def Call.comparison (c : CallId) (kind : CodeKind) (u : UserId) (h : Argon2) (call : Call) :
    List CallId :=
  if call.claims = some (kind, u, h) then [c] else []

theorem Call.events_guessBy {c : CallId} {kind : CodeKind} {u : UserId} {h : Argon2}
    {db db' : Db} {before after : Call} :
    (before.events c db db' after).filterMap (Event.guessBy kind u h) =
      before.comparison c kind u h := by
  cases hb : before.claims with
  | none =>
    rw [Call.events_filterMap_nil fun e he => ?_]
    · simp [comparison, hb]
    · cases he with
      | verificationCompared | resetCompared => cases hb
      | _ => rfl
  | some x =>
    have hone : before.events c db db' after = [.codeCompared c x.1 x.2.1 x.2.2] := by
      cases before with
      | verifyEmail q =>
        cases q <;> cases hb
        rfl
      | resetPassword q =>
        cases q <;> cases hb
        rfl
      | _ => cases hb
    rw [hone]
    by_cases hx : x = (kind, u, h) <;> simp [comparison, hb, hx, Event.guessBy]

namespace World

/-- The guesses compared with the code `h` of `u`. -/
def guesses (w : World) (kind : CodeKind) (u : UserId) (h : Argon2) : List CallId :=
  w.trace.filterMap fun (_, e) => e.guessBy kind u h

/-- The guesses that have read the hash and not taken a slot yet. -/
def pendingGuesses (w : World) (kind : CodeKind) (u : UserId) (h : Argon2) : Nat :=
  w.calls.countP fun call => decide (call.claims = some (kind, u, h))

end World

/-! ## The counter -/

/-- What `n` comparisons with the code `h`, and `f` that may still come, are bounded by. -/
def Within (h : Argon2) (n f : Nat) (unborn : Prop) : Option CodeColumns → Prop
  | none => (n : Int) ≤ MAX_FAILED_ATTEMPTS ∧ (unborn → n + f = 0)
  | some c =>
    if c.hash = some h then (n : Int) ≤ c.failedAttempts ∧ (n : Int) ≤ MAX_FAILED_ATTEMPTS
    else ((n + f : Nat) : Int) ≤ MAX_FAILED_ATTEMPTS

section
variable {u : UserId} {kind : CodeKind} {before : Call} {applied : Bool} {h : Argon2}
  {n f f' : Nat} {unborn unborn' : Prop} {p p' : Option CodeColumns} {c : CodeColumns}

theorem Within.le (hp : Within h n f unborn p) : (n : Int) ≤ MAX_FAILED_ATTEMPTS := by
  unfold Within at hp
  split at hp
  · exact hp.1
  · split at hp
    · exact hp.2
    · omega

theorem Within.mono (hp : Within h n f unborn p) (hf : f' ≤ f) (hu : unborn' → unborn) :
    Within h n f' unborn' p := by
  unfold Within at hp ⊢
  split
  · exact ⟨hp.1, fun h' => by have := hp.2 (hu h'); omega⟩
  · split
    · rename_i hh
      simpa [hh] using hp
    · rename_i hh
      simp only [hh, if_false] at hp
      omega

/-- A step in which no guess reads `h` and none is compared with it. -/
theorem Within.step (hp : Within h n f unborn p)
    (hs : Call.CodeStep u kind before applied p p') (hf : f' ≤ f) (hu : unborn' → unborn)
    (hborn : p = none → p' ≠ none → unborn) (hknown : p ≠ none → ¬ unborn')
    (hfresh : before.issues = some (kind, u, h) → n = 0)
    (hcalm : ∀ c, p = some c → c.hash = some h → applied = true → before.replaces = some (kind, u) →
      before.cools c = true → ((n + f : Nat) : Int) ≤ MAX_FAILED_ATTEMPTS) :
    Within h n f' unborn' p' := by
  have hle := hp.le
  have hreplaced {c : CodeColumns} (hc : p = some c) (ok : applied = true)
      (hr : before.replaces = some (kind, u)) (cool : before.cools c = true) :
      ((n + f' : Nat) : Int) ≤ MAX_FAILED_ATTEMPTS := by
    by_cases hh : c.hash = some h
    · have := hcalm c hc hh ok hr cool
      omega
    · subst hc
      have : ((n + f : Nat) : Int) ≤ MAX_FAILED_ATTEMPTS := by simpa [Within, hh] using hp
      omega
  cases hs with
  | same => exact hp.mono hf hu
  | count =>
    simp only [Within] at hp ⊢
    split
    · rename_i hh
      simp only [hh, if_true] at hp
      omega
    · rename_i hh
      simp only [hh, if_false] at hp
      omega
  | @issue c h' _ _ ok issues cool =>
    have hr : before.replaces = some (kind, u) := Call.replaces_of_issues issues
    have := hreplaced rfl ok hr cool
    simp only [Within]
    split
    · rename_i hh
      cases hh
      have := hfresh issues
      omega
    · exact this
  | clear ok clears =>
    obtain ⟨hr, cool⟩ := Call.replaces_of_clears clears
    have := hreplaced rfl ok hr (cool _)
    simpa [Within, CodeColumns.empty] using this
  | insert =>
    have := hborn rfl nofun
    have := hp.2 this
    simp only [Within, CodeColumns.empty, MAX_FAILED_ATTEMPTS, reduceCtorEq, if_false]
    omega
  | delete => exact ⟨hle, fun h' => absurd h' (hknown nofun)⟩

/-- A guess takes a slot and is compared with `h`. -/
theorem Within.compared (hp : Within h n f unborn (some c))
    (room : c.failedAttempts < MAX_FAILED_ATTEMPTS) (hf : f = f' + 1) :
    Within h (n + 1) f' unborn' (some { c with failedAttempts := c.failedAttempts + 1 }) := by
  simp only [Within] at hp ⊢
  split
  · rename_i hh
    simp only [hh, if_true] at hp
    omega
  · rename_i hh
    simp only [hh, if_false] at hp
    omega

/-- A guess reads `h` off the row. -/
theorem Within.read (hp : Within h n f unborn (some c)) (hh : c.hash = some h) :
    Within h n f' unborn' (some c) := by
  simpa [Within, hh] using hp

end

namespace World

/-- A code is replaced or cleared only while the guesses compared with it, and
those that have read it and not taken a slot yet, are no more than the limit. -/
def replacesCalmly (w : World) : Label → Bool
  | .exec c input =>
    (w.calls[c]?).all fun call => call.replaces.all fun (kind, u) =>
      input.fails || ((w.db.users u).committed.all fun m =>
        !call.cools (m.code kind) || (m.code kind).hash.all fun h =>
          decide (((w.guesses kind u h).length + w.pendingGuesses kind u h : Nat) ≤
            MAX_FAILED_ATTEMPTS))
  | _ => true

def Bounded (w : World) : Prop :=
  ∀ kind u h, Within h (w.guesses kind u h).length (w.pendingGuesses kind u h) (u ∉ w.db.ids)
    ((w.db.users u).committed.map fun m => m.code kind)

variable {cfg : Settings} {w₀ w w' : World} {l : Label} {c : CallId} {before call : Call} {s : Stmt}
  {input : Input} {applied : Bool} {k : Except DbErr s.Reply → Call}
  {reply : Except DbErr s.Reply} {db' : Db} {kind : CodeKind} {u : UserId} {h : Argon2}
  {m : UserModel}

theorem guesses_after :
    (w.after c before applied call db').guesses kind u h =
      w.guesses kind u h ++ if applied then before.comparison c kind u h else [] :=
  filterMap_after (fun _ => rfl) (fun _ => rfl) (fun _ _ _ _ => rfl) Call.events_guessBy

theorem mem_guesses {c' : CallId} (hc : c' ∈ w.guesses kind u h) :
    ∃ t, (t, Event.codeCompared c' kind u h) ∈ w.trace := by
  obtain ⟨⟨t, e⟩, he, hr⟩ := List.mem_filterMap.mp hc
  cases e with
  | codeCompared c kind' u' h' =>
    simp only [Event.guessBy] at hr
    split at hr
    · rename_i heq
      cases hr
      cases heq
      exact ⟨t, he⟩
    · cases hr
  | _ => cases hr

/-- The call of the step leaves the guesses in hand, or joins them. -/
theorem pendingGuesses_after (running : w.calls[c]? = some before) :
    (w.after c before applied call db').pendingGuesses kind u h +
        (if before.claims = some (kind, u, h) then 1 else 0) =
      w.pendingGuesses kind u h + if call.claims = some (kind, u, h) then 1 else 0 := by
  obtain ⟨hlt, rfl⟩ := List.getElem?_eq_some_iff.mp running
  have hpos := List.boole_getElem_le_countP
    (p := fun call : Call => decide (call.claims = some (kind, u, h))) hlt
  simp only [pendingGuesses, World.after, List.countP_set hlt, decide_eq_true_eq] at hpos ⊢
  omega

theorem Initial.bounded (h0 : w.Initial) : w.Bounded := by
  intro kind u h
  have hn : w.guesses kind u h = [] := by simp [guesses, h0.trace]
  have hf : w.pendingGuesses kind u h = 0 := by simp [pendingGuesses, h0.calls]
  rw [hn, hf]
  cases hm : (w.db.users u).committed with
  | none => exact ⟨Int.le_of_lt_add_one (by decide), fun _ => rfl⟩
  | some m =>
    have := (h0.proper u m hm).attempts kind
    simp only [Within, Option.map_some, MAX_FAILED_ATTEMPTS, List.length_nil]
    split <;> omega

/-- A guess that takes a slot finds room on the counter of the row. -/
theorem claimed {env : Env} {r r' : Versioned CallId UserModel}
    (issues : before.next cfg env = some ⟨s, k⟩) (hc : before.claims = some (kind, u, h))
    (hs : UserStep c u s reply r r') (ok : s.applied reply = true) :
    ∃ m, r.committed = some m ∧ (m.code kind).failedAttempts < MAX_FAILED_ATTEMPTS ∧
      r'.committed.map (fun m => m.code kind) =
        some { m.code kind with failedAttempts := (m.code kind).failedAttempts + 1 } := by
  have hfound (kind : CodeKind) (u : UserId)
      {reply : Except DbErr (incrementFailedAttempts kind u).Reply}
      (hs : UserStep c u (incrementFailedAttempts kind u) reply r r')
      (ok : (incrementFailedAttempts kind u).applied reply = true) :
      ∃ m, r.committed = some m ∧ (m.code kind).failedAttempts < MAX_FAILED_ATTEMPTS ∧
        r'.committed.map (fun m => m.code kind) =
          some { m.code kind with failedAttempts := (m.code kind).failedAttempts + 1 } := by
    rcases reply with e | _ | m'
    · cases ok
    · cases ok
    · obtain ⟨m, seen, hp, rfl, ⟨hauto, _⟩ | ⟨_, _, rfl⟩⟩ := hs.updated
      · cases hauto
      · exact ⟨m, seen, of_decide_eq_true hp, by cases kind <;> rfl⟩
  cases before with
  | verifyEmail q =>
    cases q <;> cases hc
    cases issues
    exact hfound _ _ hs ok
  | resetPassword q =>
    cases q <;> cases hc
    cases issues
    exact hfound _ _ hs ok
  | _ => cases hc

theorem Bounded.exec (hw : w.Sound) (hD : w.Drawn) (hB : w.Bounded)
    (running : w.calls[c]? = some before)
    (issues : before.next cfg (input.env w.ticks) = some ⟨s, k⟩)
    (ran : w.db.exec c input.fails s = some (db', reply))
    (hok : w.replacesCalmly (.exec c input) = true) :
    (w.after c before (s.applied reply) (k reply) db').Bounded := by
  intro kind u h
  have hp := hB kind u h
  have hf : (w.after c before (s.applied reply) (k reply) db').pendingGuesses kind u h + _ = _ :=
    pendingGuesses_after running
  rw [guesses_after]
  change Within h _ _ (u ∉ db'.ids) ((db'.users u).committed.map fun m => m.code kind)
  generalize (w.after c before (s.applied reply) (k reply) db').pendingGuesses kind u h = f' at hf ⊢
  by_cases hn : (k reply).claims = some (kind, u, h)
  · -- the guess reads the hash
    obtain ⟨hb, m, hpick, rfl, hu⟩ := Call.claims_step issues hn
    obtain ⟨hm, rfl⟩ := hw.selected running issues ran hpick
    rw [hm] at hp ⊢
    simp only [Call.comparison, hb, reduceCtorEq, if_false, ite_self, List.append_nil]
    exact hp.read (hash_of_usable hu)
  by_cases hc : before.claims = some (kind, u, h) ∧ s.applied reply = true
  · -- the guess takes a slot
    obtain ⟨hc, ok⟩ := hc
    obtain ⟨m, hm, room, hm'⟩ := claimed issues hc (Db.exec_user ran u) ok
    rw [hm] at hp
    rw [hm']
    simp only [hc, hn, if_true, if_false, Nat.add_zero] at hf
    simpa [Call.comparison, hc, ok] using hp.compared room hf.symm
  · have hnil : (if s.applied reply then before.comparison c kind u h else []) = [] := by
      split
      · rename_i ok
        simp [Call.comparison, show before.claims ≠ some (kind, u, h) from fun h => hc ⟨h, ok⟩]
      · rfl
    rw [hnil, List.append_nil]
    refine hp.step ((hw.row_step running issues ran u).code kind) ?_
      (fun hu hi => hu (Db.mem_ids ran hi)) ?_ ?_ ?_ ?_
    · simp only [hn, if_false, Nat.add_zero] at hf
      omega
    · intro ho hne
      rw [Option.map_eq_none_iff] at ho
      obtain ⟨_, hne⟩ := Option.ne_none_iff_exists'.mp hne
      obtain ⟨m, hm, _⟩ := Option.map_eq_some_iff.mp hne
      exact (Db.appeared ran ho (hw.not_pending ho) hm).1
    · intro hne hu
      obtain ⟨_, hne⟩ := Option.ne_none_iff_exists'.mp hne
      obtain ⟨m, hm, _⟩ := Option.map_eq_some_iff.mp hne
      exact hu (Db.mem_ids ran (hw.listed u m hm))
    · intro hi
      rw [List.length_eq_zero_iff, List.eq_nil_iff_forall_not_mem]
      intro c' hc'
      obtain ⟨t, he⟩ := mem_guesses hc'
      exact (hD.past t _ h he rfl).2 c before _ _ h running hi rfl
    · intro cols hcols hh ok hr cool
      obtain ⟨m, hm, rfl⟩ := Option.map_eq_some_iff.mp hcols
      simpa [replacesCalmly, running, hr, Db.applied_of_exec ran ok, hm, cool, hh] using hok

theorem Bounded.step (hw : w.Sound) (hD : w.Drawn) (hB : w.Bounded)
    (hok : w.replacesCalmly l = true) (ht : Transition cfg w l w') : w'.Bounded := by
  cases ht with
  | exec running issues ran => exact hB.exec hw hD running issues ran hok
  | expire => exact hB
  | @invoke call start =>
    intro kind u h
    have hc : call.claims = none := by
      cases call <;> rename_i q <;> cases q <;> first | rfl | cases start
    have hf : (w.join call).pendingGuesses kind u h = w.pendingGuesses kind u h := by
      simp [pendingGuesses, join, hc]
    have := hB kind u h
    rw [← hf] at this
    exact this

/-- No code is compared with more guesses than the limit. -/
theorem guesses_bounded (h0 : w₀.Initial)
    (hr : Runs.Reaches (World.step cfg) (fun w l => w.replacesCalmly l = true) w₀ w) :
    ∀ kind u h, ((w.guesses kind u h).length : Int) ≤ MAX_FAILED_ATTEMPTS := by
  have hI : w.Sound ∧ w.Drawn ∧ w.Bounded :=
    hr.invariant (I := fun w => w.Sound ∧ w.Drawn ∧ w.Bounded)
      ⟨h0.sound, h0.drawn, h0.bounded⟩ fun a l b ⟨hs, hD, hB⟩ hok hstep =>
        have ht := step_transition hstep
        ⟨hs.step ht, hD.step hs ht, hB.step hs hD hok ht⟩
  exact fun kind u h => (hI.2.2 kind u h).le

/-! ## A guess that outlives its code -/

/-- An account with a code of either kind, both sent at time 0. -/
def codesPending : World :=
  .ofRows [{ UserModel.registered 1 "ada@example.com" "Passw0rd!" "user" with
    emailVerified := false
    verification := ⟨some (.hash 0 "111111"), some (minutes 10), some 0, 0⟩
    passwordReset := ⟨some (.hash 0 "111111"), some (minutes 10), some 0, 0⟩ }] [] 1

theorem initial_codesPending : codesPending.Initial :=
  initial_ofRow {
    balance := Int64.le_refl 0
    attempts := fun kind => by cases kind <;> exact Int.le_refl 0
    salts := fun kind h hh => by cases kind <;> cases hh <;> exact Nat.zero_lt_one }

def presentWrong : CodeKind → Label
  | .verification => .invoke (.verifyEmail (.find "ada@example.com" "000000"))
  | .passwordReset => .invoke (.resetPassword (.find "ada@example.com" "000000" "First-1st"))

def askAgain : CodeKind → Label
  | .verification => .invoke (.resendCode (.find "ada@example.com"))
  | .passwordReset => .invoke (.requestReset (.find "ada@example.com"))

/-- `n` guesses read the code, `m` of them are compared with it, then a new code is
issued, and then the last of the others is compared with the old one. -/
def guessAcrossReissue (kind : CodeKind) (n m : Nat) : List Label :=
  askAgain kind :: List.replicate n (presentWrong kind) ++
    (List.range n).map (fun i => .exec (i + 1) {}) ++
    (List.range m).map (fun i => .exec (i + 1) {}) ++
    [.exec 0 { now := minutes 2, code := "222222" }, .exec 0 {}, .exec n {}]

/-- Two guesses have read the code and are still to be compared when a new one is issued. -/
def calmReissue : World :=
  (Runs.run (World.step .plain) (fun w l => w.replacesCalmly l = true) codesPending
    (guessAcrossReissue .verification 5 3)).get (by decide)

theorem guesses_bounded_calm :
    (calmReissue.guesses .verification 1 (.hash 0 "111111")).length = 4 ∧
      ((calmReissue.guesses .verification 1 (.hash 0 "111111")).length : Int) ≤
        MAX_FAILED_ATTEMPTS :=
  ⟨by decide, guesses_bounded initial_codesPending (Runs.reaches_run_get _) .verification 1 _⟩

theorem guessed_across_reissue (kind : CodeKind) :
    ∃ w, Runs.Reaches (World.step .plain) Runs.Free codesPending w ∧
      MAX_FAILED_ATTEMPTS < ((w.guesses kind 1 (.hash 0 "111111")).length : Int) := by
  let w := (Runs.run (World.step .plain) Runs.Free codesPending
    (guessAcrossReissue kind 6 5)).get (by cases kind <;> decide)
  exact ⟨w, Runs.reaches_run_get _, by cases kind <;> decide⟩

theorem guesses_unbounded :
    (∃ w, Runs.Reaches (World.step .plain) Runs.Free codesPending w ∧
      MAX_FAILED_ATTEMPTS < ((w.guesses .verification 1 (.hash 0 "111111")).length : Int)) ∧
    ∃ w, Runs.Reaches (World.step .plain) Runs.Free codesPending w ∧
      MAX_FAILED_ATTEMPTS < ((w.guesses .passwordReset 1 (.hash 0 "111111")).length : Int) :=
  ⟨guessed_across_reissue .verification, guessed_across_reissue .passwordReset⟩

end World

end Webshelf
