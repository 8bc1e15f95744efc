import Mathlib.Data.Int.Basic
import Webshelf.Server.Sound

/-!
# The balance ledger

A user's balance is the result of the committed balance operations in the order
of their commits: `set_balance` and `adjust_balance` read the row with FOR
UPDATE and hold it until they commit, and no other statement writes the column.
-/

namespace Webshelf

/-- What a committed operation makes of the balance, in unbounded integers. -/
def BalanceOp.apply (b : Int) : BalanceOp → Int
  | .set balance => balance.toInt
  | .adjust amount => b + amount.toInt

/-- The operation on the balance of `u` that the event records. -/
def Event.balanceOp (u : UserId) : Event → Option BalanceOp
  | .balanceCommitted _ u' op => if u' = u then some op else none
  | _ => none

/-- The committed operations on the balance of `u`, in commit order. -/
def World.balanceOps (w : World) (u : UserId) : List BalanceOp :=
  w.trace.filterMap fun (_, e) => e.balanceOp u

/-- The balance a ledger starts with: that of the row, or that of a new row. -/
def World.openingBalance (w : World) (u : UserId) : Int :=
  ((w.db.users u).committed.map fun m => m.balance.toInt).getD 0

theorem checkedAdd_eq {a b c : Int64} (h : checkedAdd a b = some c) :
    c.toInt = a.toInt + b.toInt := by
  simp only [checkedAdd] at h
  split at h
  · rename_i hr
    cases h
    exact Int64.toInt_ofInt_of_le hr.1 hr.2
  · cases h

/-- The checks of both functions: the new balance is what the operation says, and not negative. -/
theorem BalanceOp.newBalance_ok {op : BalanceOp} {old new : Int64}
    (h : op.newBalance old = .ok new) : new.toInt = op.apply old.toInt ∧ 0 ≤ new.toInt := by
  cases op with
  | set balance =>
    simp only [newBalance] at h
    split at h
    · cases h
    · rename_i hneg
      cases h
      exact ⟨rfl, by simpa [Int64.lt_iff_toInt_lt] using hneg⟩
  | adjust amount =>
    simp only [newBalance] at h
    split at h
    · cases h
    · rename_i sum hs
      split at h
      · cases h
      · rename_i hneg
        cases h
        exact ⟨checkedAdd_eq hs, by simpa [Int64.lt_iff_toInt_lt] using hneg⟩

/-- The operation on the balance of `u` that the call is about to commit. -/
def Call.committedOp (u : UserId) : Call → List BalanceOp
  | .modifyBalance (.commit id op _) => if id = u then [op] else []
  | _ => []

section
variable {cfg : Settings} {env : Env} {before after : Call} {s : Stmt} {u : UserId} {c : CallId}
  {m v : UserModel} {db db' : Db}

theorem Call.events_balanceOp :
    (before.events c db db' after).filterMap (Event.balanceOp u) = before.committedOp u := by
  by_cases h : ∃ id op result, before = .modifyBalance (.commit id op result)
  · obtain ⟨id, op, result, rfl⟩ := h
    by_cases hu : id = u <;> simp [Call.events, Event.balanceOp, Call.committedOp, hu]
  · rw [Call.events_filterMap_nil fun e he => ?_]
    · unfold Call.committedOp
      split
      · exact absurd ⟨_, _, _, rfl⟩ h
      · rfl
    · cases he with
      | balanceCommitted => exact absurd ⟨_, _, _, rfl⟩ h
      | _ => rfl

/-- No statement outside a transaction writes the balance. -/
theorem Call.Writes.balance_eq {now : Time} {p : UserModel → Bool} {set : UserModel → UserModel}
    (h : Writes cfg now before (.updateUser .auto u p set)) : (set m).balance = m.balance := by
  cases h <;> rfl

/-- Only the balance functions commit a row with another balance. -/
theorem Call.Working.balance_eq {k : Except DbErr Unit → Call} (h : before.Working u m v)
    (issues : before.next cfg env = some ⟨.commit, k⟩)
    (hb : ∀ op result, before ≠ .modifyBalance (.commit u op result)) : v.balance = m.balance := by
  cases h.commits issues with
  | @modifyBalance _ op result => exact absurd rfl (hb op result)
  | resetPassword | updateUser | changePassword | revokeAll => rfl

end

namespace World

variable {cfg : Settings} {w₀ w w' : World} {c : CallId} {before : Call} {s : Stmt} {env : Env}
  {fails applied : Bool} {k : Except DbErr s.Reply → Call} {reply : Except DbErr s.Reply}
  {db' : Db} {u : UserId} {l : Label}

theorem balanceOps_after {call : Call} :
    (w.after c before applied call db').balanceOps u =
      w.balanceOps u ++ if applied then before.committedOp u else [] :=
  filterMap_after (fun _ => rfl) (fun _ => rfl) (fun _ _ _ _ => rfl) Call.events_balanceOp

theorem committedOp_eq_nil (h : ∀ op result, before ≠ .modifyBalance (.commit u op result)) :
    before.committedOp u = [] := by
  cases before with
  | modifyBalance q =>
    cases q with
    | commit id op result =>
      simp only [Call.committedOp, ite_eq_right_iff]
      rintro rfl
      exact absurd rfl (h op result)
    | lock | update | invalidate | abort | done => rfl
  | _ => rfl

/-- The rows agree with the ledgers that began in `w₀`. -/
structure Ledgers (w₀ w : World) : Prop where
  balance : ∀ u m, (w.db.users u).committed = some m → 0 ≤ m.balance.toInt ∧
    m.balance.toInt = (w.balanceOps u).foldl BalanceOp.apply (w₀.openingBalance u)
  unborn : ∀ u, u ∉ w.db.ids → w.balanceOps u = [] ∧ w₀.openingBalance u = 0

theorem Ledgers.exec (hw : w.Sound) (hL : Ledgers w₀ w) (running : w.calls[c]? = some before)
    (issues : before.next cfg env = some ⟨s, k⟩) (ran : w.db.exec c fails s = some (db', reply)) :
    Ledgers w₀ (w.after c before (s.applied reply) (k reply) db') where
  balance u m hm := by
    change (db'.users u).committed = some m at hm
    rw [balanceOps_after]
    have hr := hw.row_step running issues ran u
    rw [hm] at hr
    by_cases hb : ∃ op result, before = .modifyBalance (.commit u op result)
    · obtain ⟨op, result, rfl⟩ := hb
      cases issues
      cases reply with
      | ok =>
        obtain ⟨m₀, v, hm₀, hW, hv⟩ := hw.committed running rfl ran
        rw [hv] at hm
        cases hm
        obtain ⟨h0, heq⟩ := hL.balance u m₀ hm₀
        obtain ⟨hop, hge⟩ := BalanceOp.newBalance_ok hW.2.1
        refine ⟨hge, ?_⟩
        simp [Stmt.applied, Call.committedOp, hop, ← heq]
      | error e =>
        rw [show (Stmt.commit.applied (.error e)) = false from rfl, if_neg Bool.false_ne_true,
          List.append_nil]
        exact hL.balance u m hr.eq_of_failed.symm
    · have hb' : ∀ op result, before ≠ .modifyBalance (.commit u op result) :=
        fun op result h => hb ⟨op, result, h⟩
      rw [committedOp_eq_nil hb', ite_self, List.append_nil]
      generalize ho : (w.db.users u).committed = o at hr
      cases hr with
      | same => exact hL.balance u m ho
      | write _ update =>
        rw [update.balance_eq]
        exact hL.balance u _ ho
      | commit _ issues work =>
        rw [work.balance_eq issues hb']
        exact hL.balance u _ ho
      | insert =>
        obtain ⟨hops, hopen⟩ := hL.unborn u (Db.appeared ran ho (hw.not_pending ho) hm).1
        rw [hops, hopen]
        have hzero : (0 : Int64).toInt = 0 := by decide
        exact ⟨Int.le_of_eq hzero.symm, hzero⟩
  unborn u hu := by
    change u ∉ db'.ids at hu
    have hu' : u ∉ w.db.ids := fun h => hu (Db.mem_ids ran h)
    obtain ⟨ho, hz⟩ := hL.unborn u hu'
    refine ⟨?_, hz⟩
    have hb : ∀ op result, before ≠ .modifyBalance (.commit u op result) := by
      rintro op result rfl
      obtain ⟨v, hp⟩ := hw.locked c _ u running rfl
      obtain ⟨m, _, hm, _⟩ := hw.working u c v hp
      exact hu' (hw.listed u m hm)
    rw [balanceOps_after, ho, committedOp_eq_nil hb, ite_self, List.append_nil]

theorem Ledgers.step (hw : w.Sound) (hL : Ledgers w₀ w) (ht : Transition cfg w l w') :
    Ledgers w₀ w' := by
  cases ht with
  | exec running issues ran => exact hL.exec hw running issues ran
  | invoke => exact ⟨hL.balance, hL.unborn⟩
  | expire => exact ⟨hL.balance, hL.unborn⟩

theorem Initial.ledgers (h0 : w.Initial) : Ledgers w w where
  balance u m hm := by
    have hops : w.balanceOps u = [] := by simp [balanceOps, h0.trace]
    rw [hops]
    simp only [openingBalance, hm, Option.map_some, Option.getD_some, List.foldl_nil, and_true]
    simpa [Int64.le_iff_toInt_le] using (h0.proper u m hm).balance
  unborn u hu := by
    have hn : (w.db.users u).committed = none :=
      Option.eq_none_iff_forall_ne_some.mpr fun m hm => hu (h0.listed u m hm)
    exact ⟨by simp [balanceOps, h0.trace], by simp [openingBalance, hn]⟩

theorem Ledgers.reached (h0 : w₀.Initial) (h : Runs.Reaches (World.step cfg) Runs.Free w₀ w) :
    Ledgers w₀ w := by
  have hsl : w.Sound ∧ Ledgers w₀ w :=
    h.invariant (I := fun w => w.Sound ∧ Ledgers w₀ w) ⟨h0.sound, h0.ledgers⟩
      fun _ _ _ ⟨hs, hL⟩ _ hstep =>
        have ht := step_transition hstep
        ⟨hs.step ht, hL.step hs ht⟩
  exact hsl.2

end World

/-! ## Refused calls -/

/-- NotFound and NotAllowed. -/
def UserError.refusal : UserError → Bool
  | .notFound | .notAllowed _ => true
  | _ => false

namespace Call

/-- The call returned NotFound or NotAllowed. -/
def refused : Call → Bool
  | modifyBalance (.done (.error e)) | updateUser (.done (.error e))
  | changePassword (.done (.error e)) => e.refusal
  | _ => false

/-- What still speaks for a change the call made to the row of `u`. -/
def Blame (db : Db) (u : UserId) : Call → Prop
  | modifyBalance (.invalidate _ _) | modifyBalance (.done (.ok _)) => True
  | modifyBalance _ => False
  | updateUser (.refetch id) | changePassword (.refetch id _) => u = id ∧ u ∈ db.ids
  | updateUser (.invalidate _ _ _) | updateUser (.done (.ok _))
  | changePassword (.invalidate _ _ _ _) | changePassword (.done (.ok _)) => True
  | updateUser (.done (.error e)) | changePassword (.done (.error e)) =>
    e.refusal = true → (db.users u).committed = none ∧ u ∈ db.ids
  | updateUser _ | changePassword _ => False
  | _ => True

/-- The places of the three functions from which a step changes a committed row. -/
def Changes (u : UserId) (o : Option UserModel) : Call → Prop
  | modifyBalance (.commit _ _ _) | updateUser (.update _ _ _ _) => True
  | updateUser (.commit id) | changePassword (.commit id _) => u = id ∧ o.isSome = true
  | modifyBalance _ | updateUser _ | changePassword _ => False
  | _ => True

section
variable {cfg : Settings} {env : Env} {before : Call} {s : Stmt} {u : UserId} {c : CallId}
  {applied fails : Bool} {o o' : Option UserModel} {k : Except DbErr s.Reply → Call}
  {reply : Except DbErr s.Reply} {db db' : Db}

theorem RowStep.changed (h : RowStep cfg env u before applied o o') (hne : o' ≠ o) :
    applied = true ∧ before.Changes u o := by
  cases h with
  | same => exact absurd rfl hne
  | write ok update =>
    refine ⟨ok, ?_⟩
    cases update <;> trivial
  | insert ok hid create =>
    subst create
    exact ⟨ok, trivial⟩
  | delete ok delete =>
    subst delete
    exact ⟨ok, trivial⟩
  | commit ok issues work =>
    refine ⟨ok, ?_⟩
    cases work.commits issues with
    | updateUser | changePassword => exact ⟨rfl, rfl⟩
    | resetPassword | revokeAll | modifyBalance => trivial

theorem Blame.step (issues : before.next cfg env = some ⟨s, k⟩)
    (ran : db.exec c fails s = some (db', reply))
    (hr : RowStep cfg env u before (s.applied reply) (db.users u).committed
      (db'.users u).committed)
    (hids : ∀ m, (db.users u).committed = some m → u ∈ db.ids)
    (h : before.Blame db u ∨ (db'.users u).committed ≠ (db.users u).committed) :
    (k reply).Blame db' u := by
  cases before with
  | modifyBalance q =>
    rcases h with h | h
    · cases q with
      | invalidate => cases issues; trivial
      | done => cases issues
      | lock | update | commit | abort => exact h.elim
    · obtain ⟨ok, hb⟩ := hr.changed h
      cases q with
      | commit =>
        cases issues
        rcases reply with e | _
        · cases ok
        · trivial
      | lock | update | invalidate | abort | done => exact hb.elim
  | updateUser q =>
    rcases h with h | h
    · cases q with
      | refetch id =>
        cases issues
        rcases reply with e | _ | m
        · rintro ⟨⟩
        · obtain ⟨rfl, hnone⟩ := Db.exec_selectUserById_none ran
          obtain ⟨rfl, hi⟩ := h
          intro _
          exact ⟨hnone, hi⟩
        · trivial
      | invalidate _ _ rest => cases issues; cases rest <;> trivial
      | done => cases issues
      | find | bump | updateBumped | commit | update | abort => exact h.elim
    · obtain ⟨ok, hb⟩ := hr.changed h
      cases q with
      | commit id =>
        cases issues
        rcases reply with e | _
        · cases ok
        · obtain ⟨m, hm⟩ := Option.isSome_iff_exists.mp hb.2
          exact ⟨hb.1, Db.mem_ids ran (hids m hm)⟩
      | update =>
        cases issues
        rcases reply with e | _ | m
        · cases ok
        · cases ok
        · trivial
      | find | bump | updateBumped | refetch | invalidate | abort | done => exact hb.elim
  | changePassword q =>
    rcases h with h | h
    · cases q with
      | refetch id =>
        cases issues
        rcases reply with e | _ | m
        · rintro ⟨⟩
        · obtain ⟨rfl, hnone⟩ := Db.exec_selectUserById_none ran
          obtain ⟨rfl, hi⟩ := h
          intro _
          exact ⟨hnone, hi⟩
        · trivial
      | invalidate _ _ _ rest => cases issues; cases rest <;> trivial
      | done => cases issues
      | find | bump | update | revoke | revoking | commit | abort => exact h.elim
    · obtain ⟨ok, hb⟩ := hr.changed h
      cases q with
      | commit id =>
        cases issues
        rcases reply with e | _
        · cases ok
        · obtain ⟨m, hm⟩ := Option.isSome_iff_exists.mp hb.2
          exact ⟨hb.1, Db.mem_ids ran (hids m hm)⟩
      | find | bump | update | revoke | revoking | refetch | invalidate | abort | done =>
        exact hb.elim
  | resetPassword q | requestReset q | resendCode q | sendVerification q | autoVerify q
  | verifyEmail q | login q | wxLogin q | rotate q | revokeAll q | logout q | getUser q
  | setOpenid q | checkTokenVersion q | createUser q | deleteUser q =>
    obtain ⟨k', _, rfl⟩ := Next.map_some issues
    trivial

/-- A row that is gone stays gone, whatever another call does. -/
theorem Blame.mono (ran : db.exec c fails s = some (db', reply))
    (hp : (db.users u).committed = none → ∀ v, (db.users u).pending ≠ some (c, v))
    (h : before.Blame db u) : before.Blame db' u := by
  have gone : (db.users u).committed = none ∧ u ∈ db.ids →
      (db'.users u).committed = none ∧ u ∈ db'.ids := fun ⟨ha, hi⟩ =>
    ⟨Option.eq_none_iff_forall_ne_some.mpr fun m hm =>
      (Db.appeared ran ha (hp ha) hm).1 hi, Db.mem_ids ran hi⟩
  cases before with
  | modifyBalance q =>
    cases q with
    | done r => cases r <;> exact h
    | lock | update | commit | invalidate | abort => exact h
  | updateUser q =>
    cases q with
    | refetch => exact ⟨h.1, Db.mem_ids ran h.2⟩
    | done r =>
      cases r with
      | ok => trivial
      | error => exact fun he => gone (h he)
    | find | bump | updateBumped | commit | update | invalidate | abort => exact h
  | changePassword q =>
    cases q with
    | refetch => exact ⟨h.1, Db.mem_ids ran h.2⟩
    | done r =>
      cases r with
      | ok => trivial
      | error => exact fun he => gone (h he)
    | find | bump | update | revoke | revoking | commit | invalidate | abort => exact h
  | _ => trivial

end

end Call

namespace World

variable {cfg : Settings} {w₀ w w' : World} {l : Label}

/-- Every change in the history is still accounted for by the call that made it. -/
def Blamed (w : World) : Prop :=
  ∀ t c u call, (t, Event.changed c u) ∈ w.trace → w.calls[c]? = some call → call.Blame w.db u

theorem Blamed.step (hw : w.Sound) (hB : w.Blamed)
    (hc : ∀ t c u, (t, Event.changed c u) ∈ w.trace → c < w.calls.length)
    (ht : Transition cfg w l w') : w'.Blamed := by
  cases ht with
  | expire => exact hB
  | invoke start =>
    intro t c u call' he hcall
    have hlt := hc t c u he
    rw [join, List.getElem?_append_left hlt] at hcall
    exact hB t c u call' he hcall
  | @exec c input before s k db' reply running issues ran =>
    intro t o u call' hmem hcall
    have hids : ∀ m, (w.db.users u).committed = some m → u ∈ w.db.ids := hw.listed u
    rcases mem_after.mp hmem with he | ⟨rfl, he⟩
    · by_cases ho : o = c
      · subst ho
        rw [after_self running] at hcall
        cases hcall
        exact Call.Blame.step issues ran (hw.row_step running issues ran u) hids
          (Or.inl (hB t o u before he running))
      · rw [after_other ho] at hcall
        exact Call.Blame.mono ran (fun ha => hw.not_pending ha) (hB t o u call' he hcall)
    · obtain ⟨rfl, hne⟩ := changed_of_observe he
      rw [after_self running] at hcall
      cases hcall
      exact Call.Blame.step issues ran (hw.row_step running issues ran u) hids (Or.inr hne)

/-- The history names calls that were made. -/
theorem changed_lt (h0 : w₀.Initial) (h : Runs.Reaches (World.step cfg) Runs.Free w₀ w) :
    ∀ t c u, (t, Event.changed c u) ∈ w.trace → c < w.calls.length := by
  refine h.invariant (I := fun w => ∀ t c u, (t, Event.changed c u) ∈ w.trace →
    c < w.calls.length) (fun t c u he => by rw [h0.trace] at he; cases he) ?_
  intro a l b hI _ hstep t o u hmem
  cases step_transition hstep with
  | expire => exact hI t o u hmem
  | invoke =>
    have hlt : o < a.calls.length := hI t o u hmem
    simp only [join, List.length_append, List.length_singleton]
    exact Nat.lt_succ_of_lt hlt
  | exec running =>
    simp only [World.after, List.length_set]
    rcases mem_after.mp hmem with he | ⟨rfl, he⟩
    · exact hI t o u he
    · obtain ⟨rfl, _⟩ := changed_of_observe he
      exact (List.getElem?_eq_some_iff.mp running).1

/-- In every state of every run a user's balance is between 0 and `i64::MAX` and
is the result of the committed operations in commit order; and a call that
returned NotFound or NotAllowed has changed no row that is still there. -/
theorem balance_ledger (h0 : w₀.Initial)
    (h : Runs.Reaches (World.step cfg) Runs.Free w₀ w) :
    (∀ u m, (w.db.users u).committed = some m →
      0 ≤ m.balance.toInt ∧ m.balance.toInt ≤ Int64.maxValue.toInt ∧
      m.balance.toInt = (w.balanceOps u).foldl BalanceOp.apply (w₀.openingBalance u)) ∧
    (∀ c call t u, w.calls[c]? = some call → call.refused = true →
      (t, Event.changed c u) ∈ w.trace → (w.db.users u).committed = none) ∧
    ∀ (c : CallId) (e : UserError) t u,
      w.calls[c]? = some (.modifyBalance (.done (.error e))) →
      (t, Event.changed c u) ∉ w.trace := by
  have hL := Ledgers.reached h0 h
  have hsb : w.Sound ∧ w.Blamed := by
    refine h.invariant_of (I := fun w => w.Sound ∧ w.Blamed) ⟨h0.sound, ?_⟩ ?_
    · intro t c u call he
      rw [h0.trace] at he
      cases he
    · intro a l b hr ⟨hs, hB⟩ _ hstep
      have ht := step_transition hstep
      exact ⟨hs.step ht, hB.step hs (changed_lt h0 hr) ht⟩
  obtain ⟨_, hB⟩ := hsb
  refine ⟨?_, ?_, ?_⟩
  · intro u m hm
    obtain ⟨hge, heq⟩ := hL.balance u m hm
    exact ⟨hge, Int64.toInt_le _, heq⟩
  · intro c call t u hcall href he
    have hb := hB t c u call he hcall
    cases call with
    | modifyBalance q =>
      cases q with
      | done r =>
        cases r with
        | ok => cases href
        | error => exact hb.elim
      | lock | update | commit | invalidate | abort => cases href
    | updateUser q =>
      cases q with
      | done r =>
        cases r with
        | ok => cases href
        | error => exact (hb href).1
      | find | bump | updateBumped | refetch | update | commit | invalidate | abort => cases href
    | changePassword q =>
      cases q with
      | done r =>
        cases r with
        | ok => cases href
        | error => exact (hb href).1
      | find | bump | update | revoke | revoking | refetch | commit | invalidate | abort =>
        cases href
    | _ => cases href
  · intro c e t u hcall he
    exact hB t c u _ he hcall

/-- An administrator adds 7 to an account and then takes 3 from it. -/
def adjustedTwice : List Label :=
  [.invoke (.modifyBalance (adjustBalance 1 7 "admin")), .exec 0 {}, .exec 0 {}, .exec 0 {},
    .invoke (.modifyBalance (adjustBalance 1 (-3) "admin")), .exec 1 {}, .exec 1 {}, .exec 1 {}]

def adjustedAccount : World :=
  .ofRows [.registered 1 "ada@example.com" "Passw0rd!" "user"] [] 1

def adjusted : World :=
  (Runs.run (World.step .plain) Runs.Free adjustedAccount adjustedTwice).get (by decide)

theorem balance_ledger_adjusted : ∃ m, (adjusted.db.users 1).committed = some m ∧ m.balance = 4 ∧
    m.balance.toInt = (adjusted.balanceOps 1).foldl BalanceOp.apply 0 := by
  have h0 : adjustedAccount.Initial := initial_ofRow UserModel.proper_registered
  have h : Runs.Reaches (World.step .plain) Runs.Free adjustedAccount adjusted :=
    Runs.reaches_run_get _
  have hb : (adjusted.db.users 1).committed.map UserModel.balance = some 4 := by decide
  obtain ⟨m, hm, hbal⟩ := Option.map_eq_some_iff.mp hb
  exact ⟨m, hm, hbal, ((balance_ledger h0 h).1 1 m hm).2.2⟩

end World

end Webshelf
