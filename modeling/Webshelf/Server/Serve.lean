import Webshelf.Server.Sequential

/-!
# A list of calls, one after the other

`World.serve` makes each call and runs it to its end before the next one is
made. The database answers every statement, a Redis command fails where the
input says so, and Redis entries may run out before any statement. `fuel` bounds
the statements of one call.
-/

namespace Webshelf

/-- What the world outside gives a run: the inputs of a statement and the Redis entries that
have run out by then, at each step. -/
structure Outside where
  input : Nat → Input
  expired : Nat → List CacheKey := fun _ => []

namespace World

/-- Redis entries run out. -/
def expire (w : World) (keys : List CacheKey) : World :=
  keys.foldl (fun w key => { w with db := w.db.expire key, ticks := w.ticks + 1 }) w

/-- The inputs of the call's next statement: only Redis may fail. -/
def inputFor (w : World) (out : Outside) (call : Call) : Input :=
  { out.input w.ticks with fails := (out.input w.ticks).fails && call.onRedis }

/-- Run call `c` to its end. -/
def finish (cfg : Settings) (out : Outside) (c : CallId) : (fuel : Nat) → World → Option World
  | 0, w => if (w.calls[c]?).all Call.finished then some w else none
  | fuel + 1, w =>
    match w.calls[c]? with
    | none => some w
    | some call =>
      if call.finished then some w
      else
        let w := w.expire (out.expired w.ticks)
        (w.step cfg (.exec c (w.inputFor out call))).bind (finish cfg out c fuel)

/-- Make the calls one after the other. -/
def serve (cfg : Settings) (out : Outside) (fuel : Nat) : List Call → World → Option World
  | [], w => some w
  | call :: rest, w =>
    (w.step cfg (.invoke call)).bind fun w' =>
      (finish cfg out w.calls.length fuel w').bind (serve cfg out fuel rest)

variable {cfg : Settings} {out : Outside} {w w' : World} {c : CallId} {before call : Call}
  {s : Stmt} {input : Input} {k : Except DbErr s.Reply → Call} {reply : Except DbErr s.Reply}
  {db' : Db} {fuel : Nat} {keys : List CacheKey}

@[simp] theorem expire_calls : (w.expire keys).calls = w.calls := by
  induction keys generalizing w with
  | nil => rfl
  | cons key keys ih => exact ih

@[simp] theorem expire_users : (w.expire keys).db.users = w.db.users := by
  induction keys generalizing w with
  | nil => rfl
  | cons key keys ih => exact ih

@[simp] theorem expire_ids : (w.expire keys).db.ids = w.db.ids := by
  induction keys generalizing w with
  | nil => rfl
  | cons key keys ih => exact ih

theorem expire_redis {key : CacheKey} {x : CacheValue}
    (h : (w.expire keys).db.redis key = some x) : w.db.redis key = some x := by
  induction keys generalizing w with
  | nil => exact h
  | cons key' keys ih => exact Db.redis_of_expire (ih h)

theorem step_exec (running : w.calls[c]? = some before)
    (issues : before.next cfg (input.env w.ticks) = some ⟨s, k⟩)
    (ran : w.db.exec c input.fails s = some (db', reply)) :
    w.step cfg (.exec c input) = some (w.after c before (s.applied reply) (k reply) db') := by
  simp only [step, running, issues, ran]

/-- A property of the running call that each of its statements keeps, with fewer statements
to go, holds when the call returns. -/
theorem finish_of_steps {α : Type} {R : World → Call → Prop} {left : Call → Nat}
    {answer : Call → α}
    (hexpire : ∀ w call keys, R w call → R (w.expire keys) call)
    (hstep : ∀ w before, w.calls[c]? = some before → before.finished = false → R w before →
      ∃ w' call, w.step cfg (.exec c (w.inputFor out before)) = some w' ∧
        w'.calls = w.calls.set c call ∧ R w' call ∧ left call < left before ∧
        answer call = answer before)
    (running : w.calls[c]? = some before) (hR : R w before) (hfuel : left before ≤ fuel) :
    ∃ w' call, finish cfg out c fuel w = some w' ∧ w'.calls = w.calls.set c call ∧
      call.finished = true ∧ R w' call ∧ answer call = answer before := by
  have hdone {w : World} {before : Call} (running : w.calls[c]? = some before) :
      w.calls = w.calls.set c before := by
    obtain ⟨hlt, rfl⟩ := List.getElem?_eq_some_iff.mp running
    exact (List.set_getElem_self hlt).symm
  induction fuel generalizing w before with
  | zero =>
    cases hf : before.finished with
    | true => exact ⟨w, before, by simp [finish, running, hf], hdone running, hf, hR, rfl⟩
    | false =>
      obtain ⟨_, call, _, _, _, hlt, _⟩ := hstep w before running hf hR
      omega
  | succ fuel ih =>
    cases hf : before.finished with
    | true => exact ⟨w, before, by simp [finish, running, hf], hdone running, hf, hR, rfl⟩
    | false =>
      have running' : (w.expire (out.expired w.ticks)).calls[c]? = some before := by
        rw [expire_calls]
        exact running
      obtain ⟨w₁, call₁, hs, hc, hR₁, hlt, ha⟩ :=
        hstep _ before running' hf (hexpire w before _ hR)
      have running₁ : w₁.calls[c]? = some call₁ := by
        rw [hc, expire_calls]
        exact set_running running
      obtain ⟨w₂, call₂, hfin, hc₂, hf₂, hR₂, ha₂⟩ := ih running₁ hR₁ (by omega)
      refine ⟨w₂, call₂, ?_, ?_, hf₂, hR₂, ha₂.trans ha⟩
      · simp only [finish, running, hf, Bool.false_eq_true, if_false, hs, Option.bind_some, hfin]
      · rw [hc₂, hc, expire_calls, List.set_set]

/-- Calls that each come to the same end from every state `I` describes, and leave such a
state behind. -/
theorem serve_of_steps {I : World → Prop} {P : Call → Prop} {R : CallId → World → Call → Prop}
    {left : Call → Nat} {result : Call → Call}
    (hexpire : ∀ c w call keys, R c w call → R c (w.expire keys) call)
    (hstep : ∀ c w before, w.calls[c]? = some before → before.finished = false → R c w before →
      ∃ w' call, w.step cfg (.exec c (w.inputFor out before)) = some w' ∧
        w'.calls = w.calls.set c call ∧ R c w' call ∧ left call < left before ∧
        result call = result before)
    (hstart : ∀ w call, I w → P call → call.initial = true ∧
      R w.calls.length (w.join call) call ∧ left call ≤ fuel)
    (hend : ∀ c w call, R c w call → call.finished = true → I w ∧ call = result call)
    {calls : List Call} (hP : ∀ call ∈ calls, P call) (hI : I w) :
    ∃ w', serve cfg out fuel calls w = some w' ∧ w'.calls = w.calls ++ calls.map result := by
  induction calls generalizing w with
  | nil => exact ⟨w, rfl, by simp⟩
  | cons call rest ih =>
    obtain ⟨hinit, hR, hleft⟩ := hstart w call hI (hP call List.mem_cons_self)
    have running : (w.join call).calls[w.calls.length]? = some call := by simp [join]
    obtain ⟨w₁, call₁, hfin, hc₁, hf₁, hR₁, ha⟩ :=
      finish_of_steps (R := R w.calls.length) (hexpire _) (hstep _) running hR hleft
    obtain ⟨hI₁, hcall⟩ := hend _ w₁ call₁ hR₁ hf₁
    obtain ⟨w₂, hserve, hc₂⟩ := ih (fun call h => hP call (List.mem_cons_of_mem _ h)) hI₁
    refine ⟨w₂, by simp [serve, step, hinit, hfin, hserve], ?_⟩
    have hset : (w.join call).calls.set w.calls.length call₁ = w.calls ++ [call₁] := by
      simp [join, List.set_append_right]
    rw [hc₂, hc₁, hset, hcall, ha]
    simp

end World

end Webshelf
