import Webshelf.Codes.Columns

/-!
# Hashes of codes are drawn once

A code is hashed with a salt no other code has, so the hash names the issued
code: once it is stored, read or compared, no call is going to store it again.
-/

namespace Webshelf

/-- The hash of the code that the event is about. -/
def Event.codeHash : Event → Option Argon2
  | .codeCompared _ _ _ h | .resetCommitted _ _ h => some h
  | _ => none

namespace World

/-- The code has been issued: its salt is drawn, and no call is about to store it. -/
def Known (w : World) (h : Argon2) : Prop :=
  h.salt < w.ticks ∧ ∀ (c : CallId) (call : Call) kind u h', w.calls[c]? = some call →
    call.issues = some (kind, u, h') → h'.salt ≠ h.salt

structure Drawn (w : World) : Prop where
  rows : ∀ u m kind h, (w.db.users u).committed = some m → (m.code kind).hash = some h → w.Known h
  guesses : ∀ (c : CallId) (call : Call) kind u h, w.calls[c]? = some call →
    call.guess = some (kind, u, h) → w.Known h
  past : ∀ t (e : Event) h, (t, e) ∈ w.trace → e.codeHash = some h → w.Known h
  issued : ∀ (c : CallId) (call : Call) kind u h, w.calls[c]? = some call →
    call.issues = some (kind, u, h) → h.salt < w.ticks
  distinct : ∀ (c c' : CallId) (call call' : Call) kind u h kind' u' h', w.calls[c]? = some call →
    w.calls[c']? = some call' → call.issues = some (kind, u, h) →
    call'.issues = some (kind', u', h') → h.salt = h'.salt → c = c'

variable {cfg : Settings} {w w' : World} {l : Label} {c : CallId} {before : Call} {s : Stmt}
  {input : Input} {applied : Bool} {k : Except DbErr s.Reply → Call}
  {reply : Except DbErr s.Reply} {db' : Db} {u : UserId} {h : Argon2} {kind : CodeKind}

theorem Initial.drawn (h0 : w.Initial) : w.Drawn where
  rows u m kind h hm hh :=
    ⟨(h0.proper u m hm).salts kind h hh, fun c _ _ _ _ hc => by rw [h0.calls] at hc; cases hc⟩
  guesses c _ _ _ _ hc := by rw [h0.calls] at hc; cases hc
  past t e h he := by rw [h0.trace] at he; cases he
  issued c _ _ _ _ hc := by rw [h0.calls] at hc; cases hc
  distinct c _ _ _ _ _ _ _ _ _ hc := by rw [h0.calls] at hc; cases hc

section
variable (running : w.calls[c]? = some before)
  (issues : before.next cfg (input.env w.ticks) = some ⟨s, k⟩)
include running issues

/-- A call that is about to store a code after a step was about to store it
before, or draws the code in this step. -/
theorem issues_after {c' : CallId} {call : Call} {kind : CodeKind} {u : UserId} {h : Argon2}
    (hc : (w.after c before applied (k reply) db').calls[c']? = some call)
    (hi : call.issues = some (kind, u, h)) :
    (c' ≠ c ∧ w.calls[c']? = some call) ∨ (c' = c ∧ h.salt = w.ticks) := by
  by_cases ho : c' = c
  · subst ho
    rw [after_self running] at hc
    cases hc
    exact Or.inr ⟨rfl, Call.issues_step issues hi⟩
  · rw [after_other ho] at hc
    exact Or.inl ⟨ho, hc⟩

theorem Known.after (hk : w.Known h) : (w.after c before applied (k reply) db').Known h := by
  refine ⟨Nat.lt_succ_of_lt hk.1, ?_⟩
  intro c' call kind u h' hc hi
  rcases issues_after running issues hc hi with ⟨_, hc⟩ | ⟨_, hs⟩
  · exact hk.2 c' call kind u h' hc hi
  · have := hk.1
    omega

/-- Once it is stored a code is known. -/
theorem Drawn.stored (hD : w.Drawn) (hi : before.issues = some (kind, u, h)) :
    (w.after c before applied (k reply) db').Known h := by
  have hlt := hD.issued c before kind u h running hi
  refine ⟨Nat.lt_succ_of_lt hlt, ?_⟩
  intro c' call kind' u' h' hc hi'
  rcases issues_after running issues hc hi' with ⟨ho, hc⟩ | ⟨_, hs⟩
  · exact fun he => ho (hD.distinct c' c call before _ _ _ _ _ _ hc running hi' hi he)
  · omega

end

theorem guess_of_logged {db db' : Db} {call : Call} {e : Event}
    (hl : before.Logged c db db' call e) (he : e.codeHash = some h) :
    ∃ kind u, before.guess = some (kind, u, h) := by
  cases hl <;> cases he
  all_goals exact ⟨_, _, rfl⟩

theorem Drawn.exec (hw : w.Sound) (hD : w.Drawn) (running : w.calls[c]? = some before)
    (issues : before.next cfg (input.env w.ticks) = some ⟨s, k⟩)
    (ran : w.db.exec c input.fails s = some (db', reply)) :
    (w.after c before (s.applied reply) (k reply) db').Drawn where
  rows u m kind h hm hh := by
    have hr := (hw.row_step running issues ran u).code kind
    change (db'.users u).committed = some m at hm
    rw [hm] at hr
    rcases hr.hash rfl hh with ⟨c', hc', hh'⟩ | ⟨_, hi⟩
    · obtain ⟨m', hm', rfl⟩ := Option.map_eq_some_iff.mp hc'
      exact (hD.rows u m' kind h hm' hh').after running issues
    · exact hD.stored running issues hi
  guesses c' call kind u h hc hg := by
    by_cases ho : c' = c
    · subst ho
      rw [after_self running] at hc
      cases hc
      rcases Call.guess_step issues hg with hg | ⟨m, hp, hid, hu⟩
      · exact (hD.guesses c' before kind u h running hg).after running issues
      · obtain ⟨hm, _⟩ := hw.selected running issues ran hp
        exact (hD.rows m.id m kind h hm (hash_of_usable hu)).after running issues
    · rw [after_other ho] at hc
      exact (hD.guesses c' call kind u h hc hg).after running issues
  past t e h hmem he := by
    rcases mem_after.mp hmem with hold | ⟨rfl, hnew⟩
    · exact (hD.past t e h hold he).after running issues
    · have hl := logged_of_observe hnew (fun _ h => by subst h; cases he)
        (fun _ h => by subst h; cases he) (fun _ _ _ _ h => by subst h; cases he)
      obtain ⟨kind, u, hg⟩ := guess_of_logged hl.2 he
      exact (hD.guesses c before kind u h running hg).after running issues
  issued c' call kind u h hc hi := by
    rcases issues_after running issues hc hi with ⟨_, hc⟩ | ⟨_, hs⟩
    · exact Nat.lt_succ_of_lt (hD.issued c' call kind u h hc hi)
    · exact hs ▸ Nat.lt_succ_self _
  distinct c₁ c₂ call₁ call₂ kind u h kind' u' h' hc₁ hc₂ hi₁ hi₂ he := by
    rcases issues_after running issues hc₁ hi₁ with ⟨_, hold₁⟩ | ⟨rfl, hs₁⟩ <;>
      rcases issues_after running issues hc₂ hi₂ with ⟨_, hold₂⟩ | ⟨rfl, hs₂⟩
    · exact hD.distinct c₁ c₂ call₁ call₂ _ _ _ _ _ _ hold₁ hold₂ hi₁ hi₂ he
    · have := hD.issued c₁ call₁ _ _ _ hold₁ hi₁
      omega
    · have := hD.issued c₂ call₂ _ _ _ hold₂ hi₂
      omega
    · rfl

theorem Known.mono (hk : w.Known h) (hc : w'.calls = w.calls) (ht : w.ticks ≤ w'.ticks) :
    w'.Known h :=
  ⟨Nat.lt_of_lt_of_le hk.1 ht, fun c call kind u h' hcall => hk.2 c call kind u h' (hc ▸ hcall)⟩

theorem Known.join {call : Call} (start : call.initial = true) (hk : w.Known h) :
    (w.join call).Known h := by
  refine ⟨Nat.lt_succ_of_lt hk.1, ?_⟩
  intro c call' kind u h' hc hi
  rcases join_calls hc with hc | rfl
  · exact hk.2 c call' kind u h' hc hi
  · rw [(Call.idle_code start).1] at hi
    cases hi

theorem Drawn.step (hw : w.Sound) (hD : w.Drawn) (ht : Transition cfg w l w') : w'.Drawn := by
  cases ht with
  | exec running issues ran => exact hD.exec hw running issues ran
  | expire =>
    have hle := Nat.le_succ w.ticks
    exact {
      rows := fun u m kind h hm hh => (hD.rows u m kind h hm hh).mono rfl hle
      guesses := fun c call kind u h hc hg => (hD.guesses c call kind u h hc hg).mono rfl hle
      past := fun t e h he hh => (hD.past t e h he hh).mono rfl hle
      issued := fun c call kind u h hc hi => Nat.lt_succ_of_lt (hD.issued c call kind u h hc hi)
      distinct := hD.distinct }
  | @invoke call start =>
    obtain ⟨hni, hng⟩ := Call.idle_code start
    have old {c : CallId} {call' : Call} {kind u h} (hc : (w.join call).calls[c]? = some call')
        (hi : call'.issues = some (kind, u, h)) : w.calls[c]? = some call' := by
      rcases join_calls hc with hc | rfl
      · exact hc
      · rw [hni] at hi
        cases hi
    exact {
      rows := fun u m kind h hm hh => (hD.rows u m kind h hm hh).join start
      guesses := fun c call' kind u h hc hg => by
        rcases join_calls hc with hc | rfl
        · exact (hD.guesses c call' kind u h hc hg).join start
        · rw [hng] at hg
          cases hg
      past := fun t e h he hh => (hD.past t e h he hh).join start
      issued := fun c call' kind u h hc hi =>
        Nat.lt_succ_of_lt (hD.issued c call' kind u h (old hc hi) hi)
      distinct := fun c₁ c₂ _ _ _ _ _ _ _ _ hc₁ hc₂ hi₁ hi₂ he =>
        hD.distinct c₁ c₂ _ _ _ _ _ _ _ _ (old hc₁ hi₁) (old hc₂ hi₂) hi₁ hi₂ he }

end World

end Webshelf
