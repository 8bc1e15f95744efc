import Webshelf.Server.Sequential

/-!
# A call on its own

`World.alone` runs one call to its end while every other call stays where it
is. Any statement of the call may fail. `World.alone_cases` is the rule for such
a run: as long as no statement is of a certain kind it keeps what each of its
steps keeps, and one that is of that kind is its last.
-/

namespace Webshelf

/-- The table of refresh tokens is the same. -/
def Db.SameTokens (db db' : Db) : Prop := ∀ i, db'.tokens.committed i = db.tokens.committed i

theorem Db.SameTokens.exec {db₀ db db' : Db} {c : CallId} {fails : Bool} {s : Stmt}
    {reply : Except DbErr s.Reply} (h : db₀.SameTokens db)
    (ran : db.exec c fails s = some (db', reply)) (hc : s ≠ .commit ∨ ∃ e, reply = .error e)
    (hd : ∀ id p, s ≠ .deleteUser id p) : db₀.SameTokens db' :=
  fun i => ((Db.exec_tokens ran).committed_eq i hc hd).trans (h i)

/-- A DELETE of call `c` waits at a row that another transaction holds. -/
def Db.Waits (c : CallId) (db : Db) (waiting : List TokenId) : Prop :=
  ∃ i rest t st, waiting = i :: rest ∧ db.tokens.get i = some (t, st) ∧ st.heldByOther c = true

section
variable {db db' : Db} {c : CallId} {fails : Bool} {p : RefreshToken → Bool}
  {reply waiting : List TokenId}

theorem Db.Waits.eq_cons (h : db.Waits c waiting) : ∃ i rest, waiting = i :: rest := by
  obtain ⟨i, rest, _, _, heq, _⟩ := h
  exact ⟨i, rest, heq⟩

/-- As long as the other transaction stays where it is, the DELETE can only fail. -/
theorem Db.Waits.resume_fails {reply : Except DbErr (List TokenId)} (h : db.Waits c waiting)
    (ran : db.exec c fails (.resumeDelete waiting) = some (db', reply)) : fails = true := by
  obtain ⟨i, rest, t, st, rfl, hg, held⟩ := h
  cases fails with
  | true => rfl
  | false => simp [Db.exec, Db.eval, Db.resumeDelete, hg, held] at ran

/-- A DELETE has visited all of its rows, or waits. -/
theorem Db.exec_deleteTokens (ran : db.exec c fails (.deleteTokens p) = some (db', .ok reply)) :
    reply = [] ∨ db'.Waits c reply := by
  cases reply with
  | nil => exact .inl rfl
  | cons i rest =>
    obtain ⟨hleft, htokens⟩ := (Db.exec_tokens ran).swept
    obtain ⟨t, st, hg, held⟩ := Heap.deleteScan_held hleft.symm
    exact .inr ⟨i, rest, t, st, rfl, by rw [htokens, hg], held⟩

end

namespace World

/-- Run call `c` to its end, with an input for each statement, and list what it
issued: the place it stood at and the input. `none` where a statement waits for
a lock, or the inputs run out. -/
def alone (cfg : Settings) (c : CallId) : List Input → World → Option (World × List (Call × Input))
  | [], w => if (w.calls[c]?).any Call.finished then some (w, []) else none
  | input :: rest, w =>
    (w.calls[c]?).bind fun call =>
      if call.finished then some (w, [])
      else (w.step cfg (.exec c input)).bind fun w' =>
        (alone cfg c rest w').map fun (w'', issued) => (w'', (call, input) :: issued)

/-- Make the call and run it on its own. -/
def callAlone (cfg : Settings) (call : Call) (inputs : List Input) (w : World) :
    Option (World × List (Call × Input)) :=
  (w.step cfg (.invoke call)).bind (alone cfg w.calls.length inputs)

variable {cfg : Settings} {w w' : World} {c : CallId} {before call : Call} {inputs : List Input}
  {issued : List (Call × Input)}

theorem alone_finished (running : w.calls[c]? = some before) (hf : before.finished = true) :
    alone cfg c inputs w = some (w, []) := by
  cases inputs with
  | nil => simp [alone, running, hf]
  | cons => simp [alone, running, hf]

theorem alone_cases {P B : World → Call → Prop} {bad : Call → Input → Prop}
    (hstep : ∀ (w : World) (before : Call) (input : Input) (s : Stmt)
      (k : Except DbErr s.Reply → Call) (reply : Except DbErr s.Reply) (db' : Db),
      P w before → w.calls[c]? = some before →
      before.next cfg (input.env w.ticks) = some ⟨s, k⟩ →
      w.db.exec c input.fails s = some (db', reply) →
      P (w.after c before (s.applied reply) (k reply) db') (k reply) ∧ ¬ bad before input ∨
        B (w.after c before (s.applied reply) (k reply) db') (k reply) ∧
          (k reply).finished = true ∧ bad before input)
    (running : w.calls[c]? = some before) (hP : P w before)
    (run : alone cfg c inputs w = some (w', issued)) :
    ∃ call, w'.calls[c]? = some call ∧ call.finished = true ∧
      (P w' call ∧ (∀ q ∈ issued, ¬ bad q.1 q.2) ∨ B w' call ∧ ∃ q ∈ issued, bad q.1 q.2) := by
  induction inputs generalizing w before issued with
  | nil =>
    simp only [alone, running, Option.any_some] at run
    split at run
    · rename_i hf
      cases run
      exact ⟨before, running, hf, .inl ⟨hP, fun _ h => absurd h List.not_mem_nil⟩⟩
    · cases run
  | cons input rest ih =>
    simp only [alone, running, Option.bind_some] at run
    split at run
    · rename_i hf
      cases run
      exact ⟨before, running, hf, .inl ⟨hP, fun _ h => absurd h List.not_mem_nil⟩⟩
    · obtain ⟨w₁, hw₁, run⟩ := Option.bind_eq_some_iff.mp run
      obtain ⟨⟨w₂, issued'⟩, run', heq⟩ := Option.map_eq_some_iff.mp run
      cases heq
      cases step_transition hw₁ with
      | @exec _ _ before' s k db' reply running' issues ran =>
        cases running.symm.trans running'
        rcases hstep w before input s k reply db' hP running issues ran with
          ⟨hP', hgood⟩ | ⟨hB, hf, hbad⟩
        · obtain ⟨call, hcall, hf, ⟨hP'', hall⟩ | ⟨hB, q, hq, hbad⟩⟩ :=
            ih (after_self running) hP' run'
          · exact ⟨call, hcall, hf, .inl ⟨hP'', List.forall_mem_cons.mpr ⟨hgood, hall⟩⟩⟩
          · exact ⟨call, hcall, hf, .inr ⟨hB, q, List.mem_cons_of_mem _ hq, hbad⟩⟩
        · have hself : (w.after c before (s.applied reply) (k reply) db').calls[c]? =
              some (k reply) :=
            after_self running
          rw [alone_finished hself hf] at run'
          cases run'
          exact ⟨k reply, hself, hf, .inr ⟨hB, _, List.mem_cons_self, hbad⟩⟩

end World

end Webshelf
