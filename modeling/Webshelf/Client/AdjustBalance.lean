import Mathlib.Data.List.Perm.Subperm
import Mathlib.Tactic.Ring
import Webshelf.Client.Retry
import Webshelf.Server.History
import Webshelf.Users.BalanceLog

/-!
# `adjust_balance` from end to end

One call of `Client::adjust_balance`, the network and the server. A request can
be lost on its way, arrive at any time after it was sent, or be answered with
anything by something in between; the client sees answers and failures, never
whether its request was served. The server goes on serving everybody else.
-/

namespace Webshelf

/-- `AdjustBalanceResponse` of client-api. -/
structure AdjustBalanceResponse where
  balance : Int64
  message : String
  deriving DecidableEq

/-- The arguments of `Client::adjust_balance` and the configured retries. -/
structure AdjustBalance where
  id : UserId
  amount : Int64
  maxRetries : Nat

inductive Request where
  | inFlight
  | lost
  /-- The handler called the service. -/
  | served (c : CallId)
  deriving DecidableEq

def Request.call : Request → Option CallId
  | served c => some c
  | _ => none

/-- The server, the call of the client, and the requests it has sent, oldest first. -/
structure Exchange where
  server : World
  client : SendAndParse AdjustBalanceResponse
  requests : List Request

namespace Exchange

inductive Move where
  | wake
  | send
  /-- Request `n` reaches the handler, with the role of the token's claims. -/
  | arrive (n : Nat) (actorRole : String)
  | drop (n : Nat)
  | answer (r : Except ReqwestError (Response AdjustBalanceResponse))
  | serve (l : Label)

def step (cfg : Settings) (p : AdjustBalance) (s : Exchange) : Move → Option Exchange
  | .wake =>
    match s.client with
    | .sleep attempt _ => some { s with client := .send attempt }
    | _ => none
  | .send =>
    match s.client with
    | .send attempt => some { s with
        client := .await attempt
        requests := s.requests ++ [.inFlight] }
    | _ => none
  | .arrive n actorRole =>
    match s.requests[n]? with
    | some .inFlight => some { s with
        server := s.server.join (.modifyBalance (adjustBalance p.id p.amount actorRole))
        requests := s.requests.set n (.served s.server.calls.length) }
    | _ => none
  | .drop n =>
    match s.requests[n]? with
    | some .inFlight => some { s with requests := s.requests.set n .lost }
    | _ => none
  | .answer r =>
    match s.client with
    | .await attempt =>
      some { s with client := .finish p.maxRetries attempt (attemptResult r) }
    | _ => none
  | .serve l => (s.server.step cfg l).map fun server => { s with server := server }

/-- The calls the service received from this call of the client. -/
def calls (s : Exchange) : List CallId :=
  s.requests.filterMap Request.call

/-- What the call of the client has committed. -/
def adjustments (s : Exchange) : List BalanceEntry :=
  s.server.balanceLog.filter fun e => decide (e.1 ∈ s.calls)

/-- The client is about to send its first request. -/
structure Initial (p : AdjustBalance) (s : Exchange) : Prop where
  server : s.server.Initial
  client : s.client = .enter p.maxRetries 0 none
  requests : s.requests = []

/-- No request after which the client sent another one has committed. -/
def RetriesUncommitted (s : Exchange) : Prop :=
  ∀ n c, n + 1 < s.requests.length → s.requests[n]? = some (.served c) →
    ∀ e ∈ s.server.balanceLog, e.1 ≠ c

/-- Nobody else has committed a balance operation on the user. -/
def Alone (p : AdjustBalance) (s : Exchange) : Prop :=
  ∀ e ∈ s.server.balanceLog, e.2.1 = p.id → e.1 ∈ s.calls

instance (p : AdjustBalance) (s : Exchange) : Decidable (s.Alone p) :=
  inferInstanceAs (Decidable (∀ e ∈ s.server.balanceLog, e.2.1 = p.id → e.1 ∈ s.calls))

/-- The call has changed the balance by 0 or by `amount`. -/
def AtMostOnce (p : AdjustBalance) (s₀ s : Exchange) : Prop :=
  s.Alone p → ∀ m, (s.server.db.users p.id).committed = some m →
    m.balance.toInt = s₀.server.openingBalance p.id ∨
      m.balance.toInt = s₀.server.openingBalance p.id + p.amount.toInt

end Exchange

/-- The call adjusts the balance of `id` by `amount`, as far as it still reads them. -/
def Call.Adjusts (id : UserId) (amount : Int64) : Call → Prop
  | .modifyBalance (.lock id' op _) | .modifyBalance (.update id' _ op _ _)
  | .modifyBalance (.commit id' op _) => id' = id ∧ op = .adjust amount
  | .modifyBalance _ => True
  | _ => False

theorem Call.adjusts_step {cfg : Settings} {env : Env} {before : Call} {s : Stmt}
    {k : Except DbErr s.Reply → Call} {reply : Except DbErr s.Reply} {id : UserId} {amount : Int64}
    (issues : before.next cfg env = some ⟨s, k⟩) (h : before.Adjusts id amount) :
    (k reply).Adjusts id amount := by
  cases before with
  | modifyBalance q =>
    cases q with
    | lock | update =>
      cases issues
      dsimp only
      (repeat' split) <;> first | exact h | trivial
    | commit | invalidate | abort =>
      cases issues
      dsimp only
      (repeat' split) <;> trivial
    | done => cases issues
  | _ => exact h.elim

namespace Exchange

variable {cfg : Settings} {p : AdjustBalance} {s s' s₀ : Exchange} {m : Move}

/-- Everything a move does to the server: nothing, or a step of it. -/
theorem server_step (h : s.step cfg p m = some s') :
    s'.server = s.server ∨ ∃ l, s.server.step cfg l = some s'.server := by
  cases m with
  | wake | send | answer =>
    simp only [step] at h
    split at h <;> cases h
    exact Or.inl rfl
  | drop =>
    simp only [step] at h
    split at h <;> cases h
    exact Or.inl rfl
  | arrive n actorRole =>
    simp only [step] at h
    split at h <;> cases h
    exact Or.inr ⟨.invoke (.modifyBalance (adjustBalance p.id p.amount actorRole)), rfl⟩
  | serve l =>
    obtain ⟨server, hs, rfl⟩ := Option.map_eq_some_iff.mp h
    exact Or.inr ⟨l, hs⟩

theorem server_reaches (h : Runs.Reaches (step cfg p) Runs.Free s₀ s) :
    Runs.Reaches (World.step cfg) Runs.Free s₀.server s.server := by
  refine h.invariant (I := fun s => Runs.Reaches (World.step cfg) Runs.Free s₀.server s.server)
    .start ?_
  intro a l b ih _ hstep
  rcases server_step hstep with he | ⟨l, hl⟩
  · rw [he]
    exact ih
  · exact .next ih trivial hl

/-- What holds between the requests, the calls that serve them and the log. -/
structure Tracked (p : AdjustBalance) (s : Exchange) : Prop where
  sent : s.client.Sent p.maxRetries s.requests.length
  once : s.server.CommitsOnce
  serving : ∀ c ∈ s.calls, ∃ call, s.server.calls[c]? = some call ∧ call.Adjusts p.id p.amount
  distinct : s.calls.Nodup
  committed : ∀ e ∈ s.server.balanceLog, e.1 ∈ s.calls → e.2 = (p.id, .adjust p.amount)

/-- A request that is not served yet, or never, adds no call. -/
theorem calls_set {rs : List Request} {n : Nat} {r r' : Request} (h : rs[n]? = some r)
    (hr : r.call = none) (hr' : r'.call = none) :
    (rs.set n r').filterMap Request.call = rs.filterMap Request.call := by
  induction rs generalizing n with
  | nil => rfl
  | cons a rest ih =>
    cases n with
    | zero =>
      cases h
      simp [hr, hr']
    | succ n =>
      rw [List.getElem?_cons_succ] at h
      simp only [List.set_cons_succ, List.filterMap_cons, ih h]

/-- The request that arrives adds its call. -/
theorem mem_calls_served {rs : List Request} {n : Nat} {c c' : CallId}
    (h : c' ∈ (rs.set n (.served c)).filterMap Request.call) :
    c' = c ∨ c' ∈ rs.filterMap Request.call := by
  obtain ⟨r, hr, hc⟩ := List.mem_filterMap.mp h
  rcases List.mem_or_eq_of_mem_set hr with hr | rfl
  · exact Or.inr (List.mem_filterMap.mpr ⟨r, hr, hc⟩)
  · cases hc
    exact Or.inl rfl

theorem nodup_calls_served {rs : List Request} {n : Nat} {c : CallId}
    (h : (rs.filterMap Request.call).Nodup) (hc : c ∉ rs.filterMap Request.call)
    (hn : rs[n]? = some .inFlight) : ((rs.set n (.served c)).filterMap Request.call).Nodup := by
  induction rs generalizing n with
  | nil => cases hn
  | cons a rest ih =>
    cases n with
    | zero =>
      cases hn
      exact List.nodup_cons.mpr ⟨hc, h⟩
    | succ n =>
      rw [List.set_cons_succ]
      cases a with
      | inFlight | lost => exact ih h hc hn
      | served c' =>
        obtain ⟨hnot, hrest⟩ := List.nodup_cons.mp h
        obtain ⟨hne, hc⟩ := not_or.mp (List.mem_cons.not.mp hc)
        refine List.nodup_cons.mpr ⟨fun hmem => ?_, ih hrest hc hn⟩
        rcases mem_calls_served hmem with rfl | hmem
        · exact hne rfl
        · exact hnot hmem

theorem Tracked.serve {l : Label} {server : World} (hT : Tracked p s)
    (ht : World.Transition cfg s.server l server) : Tracked p { s with server := server } where
  sent := hT.sent
  once := hT.once.step ht
  distinct := hT.distinct
  serving c hc := by
    obtain ⟨call, hcall, ha⟩ := hT.serving c hc
    cases ht with
    | invoke => exact ⟨call, World.join_old hcall, ha⟩
    | expire => exact ⟨call, hcall, ha⟩
    | @exec o _ before _ _ _ _ running issues ran =>
      by_cases ho : c = o
      · subst ho
        rw [running] at hcall
        cases hcall
        exact ⟨_, World.after_self running, Call.adjusts_step issues ha⟩
      · exact ⟨call, by rw [World.after_other ho]; exact hcall, ha⟩
  committed e he hc := by
    cases ht with
    | invoke => exact hT.committed e he hc
    | expire => exact hT.committed e he hc
    | exec running issues ran =>
      rcases World.mem_balanceLog_after he with he | ⟨_, ho, result, rfl⟩
      · exact hT.committed e he hc
      · obtain ⟨call, hcall, ha⟩ := hT.serving e.1 hc
        rw [ho, running] at hcall
        cases hcall
        exact Prod.ext ha.1 ha.2

theorem Tracked.arrive {n : Nat} {actorRole : String} (hT : Tracked p s)
    (hn : s.requests[n]? = some .inFlight) :
    Tracked p { s with
      server := s.server.join (.modifyBalance (adjustBalance p.id p.amount actorRole))
      requests := s.requests.set n (.served s.server.calls.length) } := by
  have hnew : s.server.calls.length ∉ s.calls := fun hmem => by
    obtain ⟨call, hcall, _⟩ := hT.serving _ hmem
    exact Nat.lt_irrefl _ (List.getElem?_eq_some_iff.mp hcall).1
  constructor
  · rw [List.length_set]
    exact hT.sent
  · exact ⟨hT.once.nodup, fun e he => by
      obtain ⟨call, hc, hd⟩ := hT.once.behind e he
      exact ⟨call, World.join_old hc, hd⟩⟩
  · intro c hc
    rcases mem_calls_served hc with rfl | hc
    · exact ⟨.modifyBalance (adjustBalance p.id p.amount actorRole), by simp [World.join], rfl, rfl⟩
    · obtain ⟨call, hcall, ha⟩ := hT.serving c hc
      exact ⟨call, World.join_old hcall, ha⟩
  · exact nodup_calls_served hT.distinct hnew hn
  · intro e he hc
    rcases mem_calls_served hc with heq | hc
    · obtain ⟨call, hcall, _⟩ := hT.once.behind e he
      rw [heq] at hcall
      exact absurd (List.getElem?_eq_some_iff.mp hcall).1 (Nat.lt_irrefl _)
    · exact hT.committed e he hc

theorem Tracked.step (hT : Tracked p s) (h : s.step cfg p m = some s') : Tracked p s' := by
  cases m with
  | wake =>
    simp only [Exchange.step] at h
    split at h
    · rename_i attempt ms hclient
      cases h
      have hsent : (SendAndParse.sleep attempt ms : SendAndParse AdjustBalanceResponse).Sent
          p.maxRetries s.requests.length := hclient ▸ hT.sent
      exact { hT with sent := hsent }
    · cases h
  | send =>
    simp only [Exchange.step] at h
    split at h
    · rename_i attempt hclient
      cases h
      have hsent : (SendAndParse.send attempt : SendAndParse AdjustBalanceResponse).Sent
          p.maxRetries s.requests.length := hclient ▸ hT.sent
      have hcalls : (s.requests ++ [Request.inFlight]).filterMap Request.call = s.calls := by
        rw [List.filterMap_append]
        exact List.append_nil _
      exact {
        sent := ⟨by rw [List.length_append, hsent.1, List.length_singleton], hsent.2⟩
        once := hT.once
        serving := fun c hc => hT.serving c (hcalls ▸ hc)
        distinct := (congrArg List.Nodup hcalls).mpr hT.distinct
        committed := fun e he hc => hT.committed e he (hcalls ▸ hc) }
    · cases h
  | arrive n actorRole =>
    simp only [Exchange.step] at h
    split at h
    · rename_i hn
      cases h
      exact hT.arrive hn
    · cases h
  | drop n =>
    simp only [Exchange.step] at h
    split at h
    · rename_i hn
      cases h
      have hcalls : (s.requests.set n .lost).filterMap Request.call = s.calls :=
        calls_set hn rfl rfl
      exact {
        sent := by rw [List.length_set]; exact hT.sent
        once := hT.once
        serving := fun c hc => hT.serving c (hcalls ▸ hc)
        distinct := (congrArg List.Nodup hcalls).mpr hT.distinct
        committed := fun e he hc => hT.committed e he (hcalls ▸ hc) }
    · cases h
  | answer r =>
    simp only [Exchange.step] at h
    split at h
    · rename_i attempt hclient
      cases h
      have hsent : (SendAndParse.await attempt : SendAndParse AdjustBalanceResponse).Sent
          p.maxRetries s.requests.length := hclient ▸ hT.sent
      exact { hT with sent := by rw [hsent.1]; exact SendAndParse.sent_finish hsent.2 }
    · cases h
  | serve l =>
    obtain ⟨server, hs, rfl⟩ := Option.map_eq_some_iff.mp h
    exact hT.serve (World.step_transition hs)

theorem Initial.tracked (h0 : s.Initial p) : Tracked p s where
  sent := by
    rw [h0.client, h0.requests]
    exact SendAndParse.sent_enter (Nat.zero_le _)
  once := h0.server.commitsOnce
  serving c hc := by simp [calls, h0.requests] at hc
  distinct := by simp [calls, h0.requests]
  committed e he hc := by simp [calls, h0.requests] at hc

theorem Tracked.reached (h0 : s₀.Initial p)
    (h : Runs.Reaches (Exchange.step cfg p) Runs.Free s₀ s) :
    Tracked p s :=
  h.invariant h0.tracked fun _ _ _ hT _ hstep => hT.step hstep

section
variable (hT : Tracked p s)
include hT

theorem Tracked.nodup : (s.adjustments.map Prod.fst).Nodup :=
  hT.once.nodup.sublist (List.filter_sublist.map Prod.fst)

theorem Tracked.adjustments_le : s.adjustments.length ≤ s.requests.length := by
  have hsub : s.adjustments.map Prod.fst ⊆ s.calls := fun c hc => by
    obtain ⟨e, he, rfl⟩ := List.mem_map.mp hc
    simpa using (List.mem_filter.mp he).2
  calc s.adjustments.length = (s.adjustments.map Prod.fst).length := (List.length_map _).symm
    _ ≤ s.calls.length := (List.subperm_of_subset hT.nodup hsub).length_le
    _ ≤ s.requests.length := List.length_filterMap_le _ _

theorem Tracked.adjustment {e : BalanceEntry} (he : e ∈ s.adjustments) :
    e.2 = (p.id, .adjust p.amount) := by
  obtain ⟨hlog, hc⟩ := List.mem_filter.mp he
  exact hT.committed e hlog (by simpa using hc)

/-- An entry belongs to the last request if none of the others has committed. -/
theorem Tracked.at_most_one (hr : s.RetriesUncommitted) : s.adjustments.length ≤ 1 := by
  have hlast : ∀ e ∈ s.adjustments, s.requests[s.requests.length - 1]? = some (.served e.1) := by
    intro e he
    obtain ⟨hlog, hc⟩ := List.mem_filter.mp he
    obtain ⟨r, hmem, hcall⟩ := List.mem_filterMap.mp (of_decide_eq_true hc)
    cases r with
    | inFlight | lost => cases hcall
    | served c =>
      cases hcall
      obtain ⟨n, hn, hget⟩ := List.mem_iff_getElem.mp hmem
      have hsome : s.requests[n]? = some (.served e.1) := List.getElem?_eq_some_iff.mpr ⟨hn, hget⟩
      have hn' : ¬ n + 1 < s.requests.length := fun hlt => hr n e.1 hlt hsome e hlog rfl
      have hnl : n = s.requests.length - 1 := by omega
      exact hnl ▸ hsome
  have hnodup := hT.nodup
  match hadj : s.adjustments with
  | [] => exact Nat.zero_le _
  | [_] => exact Nat.le_refl _
  | a :: b :: rest =>
    rw [hadj] at hlast hnodup
    have hab : a.1 = b.1 := by
      have ha := hlast a List.mem_cons_self
      rw [hlast b (List.mem_cons_of_mem _ List.mem_cons_self), Option.some.injEq,
        Request.served.injEq] at ha
      exact ha.symm
    rw [List.map_cons, List.map_cons, hab] at hnodup
    exact absurd List.mem_cons_self (List.nodup_cons.mp hnodup).1

theorem Tracked.balanceOps (ha : s.Alone p) :
    s.server.balanceOps p.id = List.replicate s.adjustments.length (.adjust p.amount) := by
  have hsame : s.server.balanceLog.filter (fun e => decide (e.2.1 = p.id)) = s.adjustments :=
    List.filter_congr fun e he => decide_eq_decide.mpr
      ⟨ha e he, fun hc => congrArg Prod.fst (hT.committed e he hc)⟩
  rw [World.balanceOps_eq_log, hsame]
  refine List.eq_replicate_iff.mpr ⟨List.length_map _, ?_⟩
  intro op hop
  obtain ⟨e, he, rfl⟩ := List.mem_map.mp hop
  exact congrArg Prod.snd (hT.adjustment he)

end

theorem foldl_adjust {k : Nat} {amount : Int64} {b : Int} :
    (List.replicate k (BalanceOp.adjust amount)).foldl BalanceOp.apply b =
      b + k * amount.toInt := by
  induction k generalizing b with
  | zero => simp
  | succ k ih =>
    rw [List.replicate_succ, List.foldl_cons, ih]
    simp only [BalanceOp.apply, Nat.cast_add, Nat.cast_one]
    ring

/-- A call of the client sends at most `max_retries + 1` requests, each of which
adjusts the balance at most once; so it changes the balance by 0 or by `amount`
as long as no request that was sent again has committed. -/
theorem adjust_balance_per_request (h0 : s₀.Initial p)
    (h : Runs.Reaches (step cfg p) Runs.Free s₀ s) :
    s.requests.length ≤ p.maxRetries + 1 ∧
    s.adjustments.length ≤ s.requests.length ∧
    (s.adjustments.map Prod.fst).Nodup ∧
    (∀ e ∈ s.adjustments, e.2 = (p.id, .adjust p.amount)) ∧
    (s.RetriesUncommitted → s.adjustments.length ≤ 1) ∧
    (s.Alone p → ∀ m, (s.server.db.users p.id).committed = some m →
      m.balance.toInt =
        s₀.server.openingBalance p.id + s.adjustments.length * p.amount.toInt) := by
  have hT := Tracked.reached h0 h
  refine ⟨hT.sent.le, hT.adjustments_le, hT.nodup, fun e he => hT.adjustment he, hT.at_most_one, ?_⟩
  intro ha m hm
  have hledger := ((World.Ledgers.reached h0.server (server_reaches h)).balance p.id m hm).2
  rw [hledger, hT.balanceOps ha, foldl_adjust]

def unsent (p : AdjustBalance) : Exchange :=
  ⟨World.adjustedAccount, .enter p.maxRetries 0 none, []⟩

theorem initial_unsent {p : AdjustBalance} : (unsent p).Initial p where
  server := World.initial_ofRow UserModel.proper_registered
  client := rfl
  requests := rfl

/-- Add 5, with one retry. -/
def addFive : AdjustBalance := ⟨1, 5, 1⟩

/-- The first request is lost, the second one served. -/
def retried : Exchange :=
  (Runs.run (step .plain addFive) Runs.Free (unsent addFive)
    [.send, .drop 0, .answer (.error { isTimeout := true }), .wake, .send, .arrive 1 "admin",
      .serve (.exec 0 {}), .serve (.exec 0 {}), .serve (.exec 0 {})]).get (by decide)

theorem adjust_balance_per_request_retried : retried.adjustments.length ≤ 2 ∧
    ∃ m, (retried.server.db.users 1).committed = some m ∧ m.balance = 5 ∧
      m.balance.toInt = retried.adjustments.length * 5 := by
  have hc := adjust_balance_per_request initial_unsent
    (Runs.reaches_run_get _ : Runs.Reaches (step .plain addFive) Runs.Free _ retried)
  have hb : (retried.server.db.users 1).committed.map UserModel.balance = some 5 := by decide
  obtain ⟨m, hm, hbal⟩ := Option.map_eq_some_iff.mp hb
  refine ⟨Nat.le_trans hc.2.1 hc.1, m, hm, hbal, ?_⟩
  have hopen : (unsent addFive).server.openingBalance 1 = 0 := by decide
  have heq := hc.2.2.2.2.2 (by decide) m hm
  rwa [show addFive.id = 1 from rfl, hopen, Int.zero_add] at heq

/-- The first request is served, but its answer is lost. -/
def servedTwice : Exchange :=
  (Runs.run (step .plain addFive) Runs.Free (unsent addFive)
    [.send, .arrive 0 "admin", .serve (.exec 0 {}), .serve (.exec 0 {}), .serve (.exec 0 {}),
      .answer (.error { isTimeout := true }), .wake, .send, .arrive 1 "admin",
      .serve (.exec 1 {}), .serve (.exec 1 {}), .serve (.exec 1 {})]).get (by decide)

/-- After a lost answer the retry adjusts the balance again. -/
theorem adjust_balance_twice : (unsent addFive).Initial addFive ∧
    Runs.Reaches (step .plain addFive) Runs.Free (unsent addFive) servedTwice ∧
    ¬ AtMostOnce addFive (unsent addFive) servedTwice := by
  refine ⟨initial_unsent, Runs.reaches_run_get _, ?_⟩
  intro hbad
  have hb : (servedTwice.server.db.users 1).committed.map (fun m => m.balance.toInt) = some 10 := by
    decide
  obtain ⟨m, hm, hbal⟩ := Option.map_eq_some_iff.mp hb
  have hopen : (unsent addFive).server.openingBalance 1 = 0 := by decide
  have heq := hbad (by decide) m hm
  rw [hbal, show addFive.id = 1 from rfl, hopen] at heq
  revert heq
  decide

end Exchange

end Webshelf
