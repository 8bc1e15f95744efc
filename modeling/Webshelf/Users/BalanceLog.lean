import Mathlib.Data.List.Nodup
import Webshelf.Users.Balance

/-!
# Who committed what on a balance

The entries of the balance ledger with the calls that committed them. A call of
`set_balance` or `adjust_balance` commits at most one.
-/

namespace Webshelf

/-- A call, the user whose balance it changed, and the operation it committed. -/
abbrev BalanceEntry := CallId × UserId × BalanceOp

def Event.balanceEntry : Event → Option BalanceEntry
  | .balanceCommitted c u op => some (c, u, op)
  | _ => none

/-- The entry the call is about to commit. -/
def Call.committedEntry (c : CallId) : Call → List BalanceEntry
  | .modifyBalance (.commit id op _) => [(c, id, op)]
  | _ => []

/-- The COMMIT of the balance function is behind the call. -/
def Call.balanceDone : Call → Bool
  | .modifyBalance (.invalidate _ _) | .modifyBalance (.done _) => true
  | _ => false

section
variable {cfg : Settings} {env : Env} {before after : Call} {s : Stmt} {c : CallId}
  {k : Except DbErr s.Reply → Call} {reply : Except DbErr s.Reply} {db db' : Db}

theorem Call.events_balanceEntry :
    (before.events c db db' after).filterMap Event.balanceEntry = before.committedEntry c := by
  by_cases h : ∃ id op result, before = .modifyBalance (.commit id op result)
  · obtain ⟨id, op, result, rfl⟩ := h
    rfl
  · rw [Call.events_filterMap_nil fun e he => ?_]
    · unfold Call.committedEntry
      split
      · exact absurd ⟨_, _, _, rfl⟩ h
      · rfl
    · cases he with
      | balanceCommitted => exact absurd ⟨_, _, _, rfl⟩ h
      | _ => rfl

theorem Call.mem_committedEntry {e : BalanceEntry} (h : e ∈ before.committedEntry c) :
    ∃ result, before = .modifyBalance (.commit e.2.1 e.2.2 result) ∧ e.1 = c := by
  unfold committedEntry at h
  split at h
  · rw [List.mem_singleton.mp h]
    exact ⟨_, rfl, rfl⟩
  · cases h

theorem Call.balanceDone_step (issues : before.next cfg env = some ⟨s, k⟩)
    (h : before.balanceDone = true) : (k reply).balanceDone = true := by
  cases before with
  | modifyBalance q =>
    cases q with
    | invalidate =>
      cases issues
      rfl
    | done => cases issues
    | lock | update | commit | abort => cases h
  | _ => cases h

end

namespace World

variable {cfg : Settings} {w₀ w w' : World} {l : Label} {c : CallId} {before : Call}
  {applied : Bool} {db' : Db} {u : UserId}

/-- The committed balance operations, in commit order. -/
def balanceLog (w : World) : List BalanceEntry :=
  w.trace.filterMap fun (_, e) => e.balanceEntry

theorem balanceOps_eq_log :
    w.balanceOps u = (w.balanceLog.filter fun e => decide (e.2.1 = u)).map fun e => e.2.2 := by
  unfold balanceOps balanceLog
  rw [List.filter_filterMap, List.map_filterMap]
  refine List.filterMap_congr ?_
  intro te _
  obtain ⟨t, e⟩ := te
  cases e with
  | balanceCommitted c u' op =>
    by_cases hu : u' = u <;> simp [Event.balanceOp, Event.balanceEntry, Option.filter, hu]
  | _ => rfl

theorem balanceLog_after {call : Call} :
    (w.after c before applied call db').balanceLog =
      w.balanceLog ++ if applied then before.committedEntry c else [] :=
  filterMap_after (fun _ => rfl) (fun _ => rfl) (fun _ _ _ _ => rfl) Call.events_balanceEntry

theorem mem_balanceLog_after {call : Call} {e : BalanceEntry}
    (h : e ∈ (w.after c before applied call db').balanceLog) :
    e ∈ w.balanceLog ∨
      applied = true ∧ e.1 = c ∧
        ∃ result, before = .modifyBalance (.commit e.2.1 e.2.2 result) := by
  rw [balanceLog_after, List.mem_append] at h
  rcases h with h | h
  · exact Or.inl h
  · rw [List.mem_ite_nil_right] at h
    obtain ⟨result, hb, hc⟩ := Call.mem_committedEntry h.2
    exact Or.inr ⟨h.1, hc, result, hb⟩

/-- No call is in the log twice. -/
structure CommitsOnce (w : World) : Prop where
  nodup : (w.balanceLog.map Prod.fst).Nodup
  behind : ∀ e ∈ w.balanceLog, ∃ call, w.calls[e.1]? = some call ∧ call.balanceDone = true

theorem CommitsOnce.step (hO : w.CommitsOnce) (ht : Transition cfg w l w') : w'.CommitsOnce := by
  cases ht with
  | expire => exact ⟨hO.nodup, hO.behind⟩
  | invoke =>
    exact ⟨hO.nodup, fun e he => by
      obtain ⟨call, hc, hd⟩ := hO.behind e he
      exact ⟨call, join_old hc, hd⟩⟩
  | @exec c _ before s k db' reply running issues ran =>
    constructor
    · -- a call at its COMMIT has no entry yet
      have hnew : before.committedEntry c ≠ [] → c ∉ w.balanceLog.map Prod.fst := by
        intro hne hin
        obtain ⟨e, he, rfl⟩ := List.mem_map.mp hin
        obtain ⟨call, hc, hd⟩ := hO.behind e he
        rw [running] at hc
        cases hc
        obtain ⟨e', he'⟩ := List.exists_mem_of_ne_nil _ hne
        obtain ⟨_, rfl, _⟩ := Call.mem_committedEntry he'
        cases hd
      rw [balanceLog_after]
      split
      · unfold Call.committedEntry at hnew ⊢
        split
        · rename_i id op result
          rw [List.map_append]
          refine List.nodup_append.mpr ⟨hO.nodup, List.nodup_singleton _, ?_⟩
          intro a ha b hb hab
          rw [List.map_singleton, List.mem_singleton] at hb
          rw [hab, hb] at ha
          exact hnew nofun ha
        · rw [List.append_nil]
          exact hO.nodup
      · rw [List.append_nil]
        exact hO.nodup
    · intro e he
      rcases mem_balanceLog_after he with he | ⟨ok, rfl, result, rfl⟩
      · obtain ⟨call, hc, hd⟩ := hO.behind e he
        by_cases ho : e.1 = c
        · rw [ho] at hc ⊢
          rw [running] at hc
          cases hc
          exact ⟨_, after_self running, Call.balanceDone_step issues hd⟩
        · exact ⟨call, by rw [after_other ho]; exact hc, hd⟩
      · cases issues
        rcases reply with e | _
        · cases ok
        · exact ⟨_, after_self running, rfl⟩

theorem Initial.commitsOnce (h0 : w.Initial) : w.CommitsOnce := by
  have hlog : w.balanceLog = [] := by simp [balanceLog, h0.trace]
  exact ⟨by simp [hlog], fun e he => by rw [hlog] at he; cases he⟩

end World

end Webshelf
