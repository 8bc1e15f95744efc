import Webshelf.Server.Sound

/-!
# One operation after the other

In sequential use a call is made when every call before it has returned, and no
Redis command fails.
-/

namespace Webshelf

namespace Call

/-- The call has returned. -/
def finished : Call → Bool
  | requestReset (.done _) | resendCode (.done _) | sendVerification (.done _)
  | autoVerify (.done _) | verifyEmail (.done _) | resetPassword (.done _) | login (.done _)
  | wxLogin (.done _) | rotate (.done _) | revokeAll (.done _) | logout .done
  | checkTokenVersion (.done _) | createUser (.done _) | updateUser (.done _)
  | changePassword (.done _) | deleteUser (.done _) | modifyBalance (.done _)
  | getUser (.done _) | setOpenid (.done _) => true
  | _ => false

/-- The call's next step talks to Redis. -/
def onRedis : Call → Bool
  | checkTokenVersion (.get _ _) | checkTokenVersion (.set _ _ _) | createUser (.invalidate _ _ _)
  | updateUser (.invalidate _ _ _) | changePassword (.invalidate _ _ _ _)
  | revokeAll (.invalidate _) | deleteUser (.invalidate _ _) | modifyBalance (.invalidate _ _)
  | getUser (.get _ _) | getUser (.marker _ _) | getUser (.set _ _ _) | getUser (.setNull _) => true
  | _ => false

theorem running_of_issues {cfg : Settings} {env : Env} {before : Call} {s : Stmt}
    {k : Except DbErr s.Reply → Call} (issues : before.next cfg env = some ⟨s, k⟩) :
    before.finished = false := by
  cases before <;> rename_i q <;> cases q <;> first | rfl | cases issues

end Call

namespace World

/-- One operation after the other, with Redis working. -/
def oneByOne (w : World) : Label → Bool
  | .invoke _ => w.calls.all Call.finished
  | .exec c input => (w.calls[c]?).all fun call => !(input.fails && call.onRedis)
  | .expire _ => true

/-- At most one call is under way. -/
def Serial (w : World) : Prop :=
  ∀ (c c' : CallId) (call call' : Call), w.calls[c]? = some call → w.calls[c']? = some call' →
    call.finished = false → call'.finished = false → c = c'

variable {cfg : Settings} {w : World} {c c' : CallId} {before call : Call} {s : Stmt} {env : Env}
  {applied : Bool} {k : Except DbErr s.Reply → Call} {call₁ : Call} {db' : Db}

theorem Initial.serial (h0 : w.Initial) : w.Serial :=
  fun c c' call call' hc => by rw [h0.calls] at hc; cases hc

/-- The other calls have returned. -/
theorem Serial.others (hS : w.Serial) (running : w.calls[c]? = some before)
    (issues : before.next cfg env = some ⟨s, k⟩) (ho : c' ≠ c) (hc : w.calls[c']? = some call) :
    call.finished = true := by
  by_contra hf
  exact ho (hS c' c call before hc running (by simpa using hf) (Call.running_of_issues issues))

theorem Serial.exec (hS : w.Serial) (running : w.calls[c]? = some before)
    (issues : before.next cfg env = some ⟨s, k⟩) :
    (w.after c before applied call₁ db').Serial := by
  intro o o' call call' hc hc' hf hf'
  have honly {o : CallId} {call : Call}
      (hc : (w.after c before applied call₁ db').calls[o]? = some call)
      (hf : call.finished = false) : o = c := by
    by_contra ho
    rw [after_other ho] at hc
    rw [hS.others running issues ho hc] at hf
    cases hf
  exact (honly hc hf).trans (honly hc' hf').symm

/-- A call joins once all the others have returned. -/
theorem Serial.join (hone : w.oneByOne (.invoke call) = true) : (w.join call).Serial := by
  intro o o' call₁ call₂ hc hc' hf hf'
  have hnew {o : CallId} {call' : Call} (hc : (w.join call).calls[o]? = some call')
      (hf : call'.finished = false) : o = w.calls.length := by
    rcases Nat.lt_trichotomy o w.calls.length with h | h | h
    · have hold : w.calls[o]? = some call' := by
        simpa [World.join, List.getElem?_append_left h] using hc
      rw [List.all_eq_true.mp hone call' (List.mem_of_getElem? hold)] at hf
      cases hf
    · exact h
    · have hlen : (w.join call).calls.length ≤ o := by
        simp only [World.join, List.length_append, List.length_singleton]
        omega
      rw [List.getElem?_eq_none hlen] at hc
      cases hc
  exact (hnew hc hf).trans (hnew hc' hf').symm

end World

end Webshelf
